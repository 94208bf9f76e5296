import SketchBuild.Project.Listing
import SketchBuild.Proofs.Path.Routes
import SketchBuild.Proofs.Text.ByteOrder

/-!
# What listings say

The header folders of a project are the directories that hold its headers, and its source files are
the configured ones, each written as a path from the project's directory: `listings_exact`.

* `Path.Precedes`: the order of paths, component by component.
* `HasHeader`: a header of the project, of the board or of a library. It is held by `Path.holder`.
* `leadsTo`: where an entry of a listing leads from the project's directory.
-/

namespace SketchBuild

/-! ### The order of paths -/

/-- The root comes before a dot, a dot before `..`, and `..` before names, which are in the order of
their bytes. -/
def Component.Precedes : Component → Component → Prop
  | .name m, .name n => Text.utf8 m < Text.utf8 n
  | a, b => a.rank < b.rank

theorem Component.compare_eq_lt_iff {a b : Component} : compare a b = .lt ↔ a.Precedes b := by
  have hlex : compare a b = .lt ↔
      compare a.rank b.rank = .lt ∨ compare a.rank b.rank = .eq ∧ compare a.text b.text = .lt :=
    Ordering.then_eq_lt
  rw [hlex, Text.compare_eq_lt_iff, Nat.compare_eq_lt, Nat.compare_eq_eq]
  cases a <;> cases b <;> simp [Precedes, rank, text, Text.utf8_lt_iff]

theorem Component.compare_list_eq_lt_iff {as bs : List Component} :
    compare as bs = .lt ↔ List.Lex Component.Precedes as bs := by
  induction as generalizing bs with
  | nil => cases bs <;> simp [compare, List.compareLex]
  | cons a as ih =>
    cases bs with
    | nil => simp [compare, List.compareLex]
    | cons b bs =>
      have hcons : compare (a :: as) (b :: bs) = (compare a b).then (compare as bs) :=
        List.compareLex_cons_cons
      rw [hcons, Ordering.then_eq_lt, List.cons_lex_cons_iff, ih, Component.compare_eq_lt_iff,
        Std.compare_eq_iff_eq]

namespace Path

/-- The order of paths: the first components that differ decide. -/
def Precedes (p q : Path) : Prop :=
  List.Lex Component.Precedes p.components q.components

/-- The order of routes is that of the paths they are written as. To stay comes first: a dot is
before `..` and before all names. -/
theorem precedes_ofRoute {route route' : List Component} (hroute : ∀ c ∈ route, IsStep c)
    (hroute' : ∀ c ∈ route', IsStep c) (h : compare route route' = .lt) :
    (ofRoute route).Precedes (ofRoute route') := by
  rw [Component.compare_list_eq_lt_iff] at h
  have hne' : route' ≠ [] := by
    rintro rfl
    exact List.not_lex_nil h
  rw [Precedes, components_ofRoute hne' hroute']
  by_cases hne : route = []
  · obtain ⟨c, rest, rfl⟩ := List.exists_cons_of_ne_nil hne'
    rw [hne]
    apply List.Lex.rel
    cases hroute' c List.mem_cons_self with
    | parent => exact Nat.lt_succ_self 1
    | name => show 1 < 3; omega
  · rwa [components_ofRoute hne hroute]

end Path

namespace Project

variable {current : Path} {project other : Project} {header folder : Path}

/-- A header of the project, of the core, of the variant or of a library. -/
def HasHeader (project : Project) (header : Path) : Prop :=
  header ∈ project.headers ∨ header ∈ project.board.coreHeaders ∨
    header ∈ project.board.variantHeaders ∨
    ∃ (name : Text) (library : Library),
      project.libraries[name]? = some library ∧ header ∈ library.headers

theorem mem_allHeaders : header ∈ project.allHeaders ↔ project.HasHeader header := by
  simp only [allHeaders, HasHeader, List.mem_append, List.mem_flatMap, Prod.exists,
    Std.ExtTreeMap.mem_toList_iff_getElem?_eq_some, or_assoc]

/-- Where an entry of a listing leads, from the project's directory. -/
def leadsTo (current : Path) (project : Project) (entry : Path) : List Text :=
  ((current.join project.directory).join entry).resolved

/-- In an absolute directory the entries are relative paths, which lead to their goals. -/
theorem leadsTo_ofRoute (hcurrent : current.isAbsolute = true) (goal : Path) :
    project.leadsTo current (.ofRoute (project.routeTo current goal)) =
      (current.join goal).resolved := by
  have hrelative := Path.resolved_join_relativeTo
    (Path.isAbsolute_join_of_isAbsolute hcurrent goal)
    (Path.isAbsolute_join_of_isAbsolute hcurrent project.directory)
  rwa [Path.relativeTo, if_pos (Path.isAbsolute_join_eq hcurrent _ _)] at hrelative

theorem isStep_of_mem_routeTo (hcurrent : current.isAbsolute = true) (goal : Path) :
    ∀ c ∈ project.routeTo current goal, Path.IsStep c := by
  obtain ⟨common, left, right, -, -, -, hordinary, hroute⟩ :=
    Path.exists_route_eq (Path.isAbsolute_join_eq hcurrent goal project.directory)
  rw [routeTo, hroute]
  exact Path.isStep_of_mem_route _ hordinary

/-! ### Header folders -/

/-- The routes of the header folders, in their order. -/
def folderRoutes (current : Path) (project : Project) : List (List Component) :=
  (Std.ExtTreeSet.ofList
    (project.allHeaders.map fun header => project.routeTo current header.directory)).toList

theorem headerFolders_eq (current : Path) (project : Project) :
    project.headerFolders current = (project.folderRoutes current).map .ofRoute := rfl

theorem mem_folderRoutes {route : List Component} :
    route ∈ project.folderRoutes current ↔
      ∃ header, project.HasHeader header ∧ project.routeTo current header.directory = route := by
  simp only [folderRoutes, Std.ExtTreeSet.mem_toList, Std.ExtTreeSet.mem_ofList,
    List.contains_iff_mem, List.mem_map, mem_allHeaders]

theorem mem_headerFolders :
    folder ∈ project.headerFolders current ↔
      ∃ header, project.HasHeader header ∧
        .ofRoute (project.routeTo current header.directory) = folder := by
  rw [headerFolders_eq, List.mem_map]
  constructor
  · rintro ⟨route, hroute, rfl⟩
    obtain ⟨header, hheader, rfl⟩ := mem_folderRoutes.1 hroute
    exact ⟨header, hheader, rfl⟩
  · rintro ⟨header, hheader, rfl⟩
    exact ⟨_, mem_folderRoutes.2 ⟨header, hheader, rfl⟩, rfl⟩

theorem pairwise_headerFolders (hcurrent : current.isAbsolute = true) :
    (project.headerFolders current).Pairwise Path.Precedes := by
  have hstep : ∀ route ∈ project.folderRoutes current, ∀ c ∈ route, Path.IsStep c := by
    intro route hroute
    obtain ⟨header, -, rfl⟩ := mem_folderRoutes.1 hroute
    exact isStep_of_mem_routeTo hcurrent _
  rw [headerFolders_eq, List.pairwise_map]
  exact Std.ExtTreeSet.ordered_toList.imp_of_mem fun hroute hroute' hlt =>
    Path.precedes_ofRoute (hstep _ hroute) (hstep _ hroute') hlt

/-- Which headers there are decides, not where and how often they are listed. -/
theorem headerFolders_congr (hdirectory : other.directory = project.directory)
    (hheaders : ∀ header, other.HasHeader header ↔ project.HasHeader header) :
    other.headerFolders current = project.headerFolders current := by
  rw [headerFolders_eq, headerFolders_eq, folderRoutes, folderRoutes]
  congr 2
  apply Std.ExtTreeSet.ext_mem
  intro route
  simp only [Std.ExtTreeSet.mem_ofList, List.contains_iff_mem, List.mem_map, mem_allHeaders,
    hheaders, routeTo, hdirectory]

/-- Without climbing, different entries lead to different directories. -/
theorem nodup_map_leadsTo (hcurrent : current.isAbsolute = true)
    (hclimb : ∀ header, project.HasHeader header → (current.join header.directory).climb = 0) :
    ((project.headerFolders current).map (project.leadsTo current)).Nodup := by
  rw [headerFolders_eq, List.map_map, List.Nodup, List.pairwise_map]
  refine Std.ExtTreeSet.distinct_toList.imp_of_mem fun hroute hroute' hne hsame => hne ?_
  obtain ⟨header, hheader, rfl⟩ := mem_folderRoutes.1 hroute
  obtain ⟨header', hheader', rfl⟩ := mem_folderRoutes.1 hroute'
  simp only [Function.comp_apply, leadsTo_ofRoute hcurrent] at hsame
  rw [Std.compare_eq_iff_eq, routeTo, routeTo]
  refine Path.route_congr (Path.isAbsolute_join_eq hcurrent _ _) ?_ hsame
  rw [hclimb header hheader, hclimb header' hheader']

/-! ### Both listings -/

/-- **Listings say exactly what is configured**, in every absolute current directory.

* The header folders are in strictly ascending order. They lead from the project's directory to the
  directories that hold a header, and to no others.
* They stay the same when headers are permuted, repeated or moved between the project, the board and
  the libraries.
* No two of them lead to one directory, if no header climbs above the root. For a header without a
  parent, which is held by the current directory, neither may that one climb.
* The source files lead to the configured sources, one by one in their order. -/
theorem listings_exact (current : Path) (project : Project)
    (hcurrent : current.isAbsolute = true) :
    (project.headerFolders current).Pairwise Path.Precedes ∧
      (∀ names, (∃ folder ∈ project.headerFolders current,
          project.leadsTo current folder = names) ↔
        ∃ header, project.HasHeader header ∧ (Path.holder current header).resolved = names) ∧
      (∀ other : Project, other.directory = project.directory →
        (∀ header, other.HasHeader header ↔ project.HasHeader header) →
        other.headerFolders current = project.headerFolders current) ∧
      ((∀ header, project.HasHeader header → (current.join header).climb = 0 ∧
          (header.parent? = none → current.climb = 0)) →
        ((project.headerFolders current).map (project.leadsTo current)).Nodup) ∧
      (project.sourceFiles current).map (project.leadsTo current) =
        project.sources.map fun source => (current.join source).resolved := by
  refine ⟨pairwise_headerFolders hcurrent, fun names => ?_, fun other => headerFolders_congr,
    fun hclimb => ?_, ?_⟩
  · have hholder : ∀ header, project.leadsTo current
        (.ofRoute (project.routeTo current header.directory)) =
          (Path.holder current header).resolved := fun header =>
      (leadsTo_ofRoute hcurrent _).trans (Path.resolved_join_directory current header)
    constructor
    · rintro ⟨folder, hfolder, rfl⟩
      obtain ⟨header, hheader, rfl⟩ := mem_headerFolders.1 hfolder
      exact ⟨header, hheader, (hholder header).symm⟩
    · rintro ⟨header, hheader, rfl⟩
      exact ⟨_, mem_headerFolders.2 ⟨header, hheader, rfl⟩, hholder header⟩
  · refine nodup_map_leadsTo hcurrent fun header hheader => ?_
    obtain ⟨hstays, hnone⟩ := hclimb header hheader
    exact Path.climb_join_directory hstays hnone
  · rw [sourceFiles, List.map_map]
    exact List.map_congr_left fun source _ => leadsTo_ofRoute hcurrent source

/-- Headers in all four places, two of them in one directory, with the project beside them. -/
theorem listings_exact_everywhere :
    let current := Path.ofString "/w"
    let library : Library := { headers := [.ofString "p/../lib/l.h", .ofString "/w/src/b.h"] }
    let project : Project :=
      { directory := .ofString "p/.", headers := [.ofString "src/a.h"]
        board := { coreHeaders := [.ofString "/opt//core/c.h"], variantHeaders := [.ofString "v.h"] }
        libraries := Std.ExtTreeMap.ofList [("L".toList, library)]
        sources := [.ofString "src/../x.cpp"] }
    let gathered : Project := { project with headers := project.allHeaders.reverse }
    (current.isAbsolute = true ∧ gathered.directory = project.directory ∧
        (∀ header, gathered.HasHeader header ↔ project.HasHeader header) ∧
        ∀ header, project.HasHeader header → (current.join header).climb = 0 ∧
          (header.parent? = none → current.climb = 0)) ∧
      project.headerFolders current =
        [.ofString "..", .ofString "../../opt/core", .ofString "../lib", .ofString "../src"] ∧
      project.sourceFiles current = [.ofString "../x.cpp"] ∧
      gathered.headerFolders current = project.headerFolders current ∧
      ((project.headerFolders current).map (project.leadsTo current)).Nodup := by
  intro current library project gathered
  have hgathered : ∀ header, gathered.HasHeader header ↔ project.HasHeader header := by
    intro header
    have hthere : ∀ header ∈ gathered.allHeaders, header ∈ project.allHeaders := by decide +kernel
    have hback : ∀ header ∈ project.allHeaders, header ∈ gathered.allHeaders := by decide +kernel
    rw [← mem_allHeaders, ← mem_allHeaders]
    exact ⟨hthere header, hback header⟩
  have hclimb : ∀ header, project.HasHeader header → (current.join header).climb = 0 ∧
      (header.parent? = none → current.climb = 0) := by
    have hall : ∀ header ∈ project.allHeaders, (current.join header).climb = 0 ∧
        (header.parent? = none → current.climb = 0) := by decide +kernel
    exact fun header hheader => hall header (mem_allHeaders.2 hheader)
  obtain ⟨-, -, hsame, hnodup, -⟩ := listings_exact current project rfl
  exact ⟨⟨rfl, rfl, hgathered, hclimb⟩, by decide +kernel, by decide +kernel,
    hsame gathered rfl hgathered, hnodup hclimb⟩

end Project

end SketchBuild
