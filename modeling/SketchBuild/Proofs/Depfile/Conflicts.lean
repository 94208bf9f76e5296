import Mathlib.Data.Set.Card
import SketchBuild.Proofs.Depfile.Rules
import SketchBuild.Proofs.Text.ByteOrder

/-!
# Version conflicts

When augmentation refuses a dependency file, and what it says then.

* `neededVersions`: the versions of a library that the directories of its headers stand for.
* `Disagrees`: a configured library of which several versions are needed.
* `IsConflict`: what is reported, the first such library in byte order of names.

There is a conflict exactly if the file has a target and libraries disagree
(`augment_eq_error_iff`). Only the target and the set of headers matter for it and for the stamp
rules: they give one `verdict`, whatever the layout of the file (`verdict_congr`).
-/

namespace SketchBuild.Depfile

variable {used : List LibraryId} {name : Text} {library : Library}

/-! ### Several versions -/

/-- The versions of a library that are needed: those that the directories of its headers stand
for. -/
def neededVersions (uses : LibraryId → Prop) (name : Text) (library : Library) : Set Text :=
  {version | ∃ given, uses ⟨name, given⟩ ∧
    version = if given = [] then library.version else given}

/-- The library is configured, and different versions of it are needed. -/
def Disagrees (registry : Registry) (uses : LibraryId → Prop) (name : Text) : Prop :=
  ∃ library, registry[name]? = some library ∧ (neededVersions uses name library).Nontrivial

/-- What is reported about a target: the first library, by the bytes of its name, of which
different versions are needed, and how many they are. -/
structure IsConflict (registry : Registry) (uses : LibraryId → Prop)
    (conflict : VersionConflict) : Prop where
  disagrees : Disagrees registry uses conflict.library
  first : ∀ name, Disagrees registry uses name →
    ¬ Text.utf8 name < Text.utf8 conflict.library
  count : ∀ library, registry[conflict.library]? = some library →
    conflict.count = (neededVersions uses conflict.library library).ncard

theorem coe_versions :
    ((versions used name library).toFinset : Set Text) =
      neededVersions (· ∈ used) name library := by
  ext version
  rw [Finset.mem_coe, List.mem_toFinset, mem_versions]
  exact exists_congr fun _ => and_congr_right fun _ => eq_comm

theorem length_versions :
    (versions used name library).length = (neededVersions (· ∈ used) name library).ncard := by
  rw [← coe_versions, Set.ncard_coe_finset, List.toFinset_card_of_nodup nodup_versions]

theorem one_lt_length_versions_iff :
    1 < (versions used name library).length ↔
      (neededVersions (· ∈ used) name library).Nontrivial := by
  rw [← coe_versions, ← List.toFinset_card_of_nodup nodup_versions]
  exact Finset.one_lt_card_iff_nontrivial

/-- Which versions are in use does not depend on the order of the directories. -/
theorem perm_versions {used' : List LibraryId} (h : ∀ id, id ∈ used ↔ id ∈ used')
    (name : Text) (library : Library) :
    (versions used name library).Perm (versions used' name library) := by
  refine (List.perm_ext_iff_of_nodup nodup_versions nodup_versions).2 fun version => ?_
  simp only [mem_versions, h]

/-! ### The first conflict -/

theorem stampRules_cons_of_several {target : Text} {libraries : List (Text × Library)}
    (h : 1 < (versions used name library).length) :
    stampRules target used ((name, library) :: libraries) =
      .error ⟨target, (versions used name library).length, name⟩ := by
  rw [stampRules]
  split
  · next hnone => simp [hnone] at h
  · next hone => simp [hone] at h
  · rfl

theorem stampRules_cons_eq_error {target : Text} {libraries : List (Text × Library)}
    {conflict : VersionConflict} (h : ¬ 1 < (versions used name library).length) :
    stampRules target used ((name, library) :: libraries) = .error conflict ↔
      stampRules target used libraries = .error conflict := by
  rw [stampRules]
  split
  · exact Iff.rfl
  · cases stampRules target used libraries with
    | ok rules =>
      constructor
      · intro h
        cases h
      · intro h
        cases h
    | error other => exact Iff.rfl
  · next hnone hone =>
    -- A list of at most one version has been dealt with.
    cases hversions : versions used name library with
    | nil => exact absurd hversions hnone
    | cons version others =>
      cases others with
      | nil => exact absurd hversions (hone version)
      | cons => simp [hversions] at h

/-- Going through the libraries stops at the first one in several versions. -/
theorem stampRules_eq_error_iff {target : Text} {libraries : List (Text × Library)}
    {conflict : VersionConflict} :
    stampRules target used libraries = .error conflict ↔
      ∃ before name library after, libraries = before ++ (name, library) :: after ∧
        (∀ entry ∈ before, ¬ 1 < (versions used entry.1 entry.2).length) ∧
        1 < (versions used name library).length ∧
        conflict = ⟨target, (versions used name library).length, name⟩ := by
  induction libraries with
  | nil => simp [stampRules]
  | cons entry libraries ih =>
    obtain ⟨name, library⟩ := entry
    by_cases hmany : 1 < (versions used name library).length
    · rw [stampRules_cons_of_several hmany]
      constructor
      · intro h
        exact ⟨[], name, library, libraries, rfl, by simp, hmany, (Except.error.inj h).symm⟩
      · rintro ⟨before, name', library', after, hlist, hbefore, -, rfl⟩
        cases before with
        | nil => cases hlist; rfl
        | cons first before =>
          cases hlist
          exact absurd hmany (hbefore _ List.mem_cons_self)
    · rw [stampRules_cons_eq_error hmany, ih]
      constructor
      · rintro ⟨before, name', library', after, rfl, hbefore, hlater⟩
        exact ⟨(name, library) :: before, name', library', after, rfl,
          List.forall_mem_cons.2 ⟨hmany, hbefore⟩, hlater⟩
      · rintro ⟨before, name', library', after, hlist, hbefore, hlater⟩
        cases before with
        | nil => cases hlist; exact absurd hlater.1 hmany
        | cons first before =>
          cases hlist
          exact ⟨before, name', library', after, rfl, (List.forall_mem_cons.1 hbefore).2, hlater⟩

/-- A target conflicts with the registry exactly as `IsConflict` says. -/
theorem stampRules_toList_eq_error_iff {registry : Registry} {target : Text}
    {conflict : VersionConflict} :
    stampRules target used registry.toList = .error conflict ↔
      conflict.target = target ∧ IsConflict registry (· ∈ used) conflict := by
  obtain ⟨hsorted, hmem⟩ := lists_toList registry
  rw [stampRules_eq_error_iff]
  constructor
  · rintro ⟨before, name, library, after, hlist, hbefore, hmany, rfl⟩
    have hlibrary : registry[name]? = some library := by
      rw [← hmem, hlist]
      exact List.mem_append_right _ List.mem_cons_self
    refine ⟨rfl, ⟨library, hlibrary, one_lt_length_versions_iff.1 hmany⟩, ?_, ?_⟩
    · rintro other ⟨otherLibrary, hother, hdisagrees⟩
      rw [Text.utf8_lt_iff]
      rw [← hmem, hlist] at hother
      rcases List.mem_append.1 hother with hother | hother
      · exact absurd (one_lt_length_versions_iff.2 hdisagrees) (hbefore _ hother)
      · rcases List.mem_cons.1 hother with heq | hother
        · cases heq
          exact List.lt_irrefl _
        · rw [hlist] at hsorted
          have hlater := (List.pairwise_cons.1 (List.pairwise_append.1 hsorted).2.1).1
          exact List.lt_asymm (hlater _ hother)
    · intro otherLibrary hother
      obtain rfl := Option.some.inj (hlibrary.symm.trans hother)
      exact length_versions
  · rintro ⟨rfl, ⟨library, hlibrary, hdisagrees⟩, hfirst, hcount⟩
    obtain ⟨before, after, hlist⟩ := List.append_of_mem ((hmem _ _).2 hlibrary)
    refine ⟨before, conflict.library, library, after, hlist, fun entry hentry hmany => ?_,
      one_lt_length_versions_iff.2 hdisagrees, ?_⟩
    · -- The libraries before it come first in order.
      have hregistry : registry[entry.1]? = some entry.2 := by
        rw [← hmem, hlist]
        exact List.mem_append_left _ hentry
      have hnot := hfirst entry.1 ⟨entry.2, hregistry, one_lt_length_versions_iff.1 hmany⟩
      rw [hlist] at hsorted
      have hlt := (List.pairwise_append.1 hsorted).2.2 entry hentry _ List.mem_cons_self
      exact hnot (Text.utf8_lt_iff.2 hlt)
    · rw [length_versions, ← hcount library hlibrary]

/-! ### The verdict on a target and its headers -/

/-- The stamp rules of a target, or the conflict; without a target there is nothing to stamp. -/
def verdict (registry : Registry) (used : List LibraryId) :
    Option Text → Except VersionConflict (List Text)
  | none => .ok []
  | some target => stampRules target used registry.toList

theorem augment_eq_map_verdict (registry : Registry) (used : List LibraryId) (content : Text) :
    augment registry used content =
      (verdict registry used (read content).target?).map fun rules =>
        closed content ++ (read content).items.flatMap phonyRule ++ rules.flatten := by
  rw [augment]
  cases (read content).target? with
  | none => rfl
  | some target =>
    cases hrules : stampRules target used registry.toList with
    | ok rules => simp [verdict, hrules, Except.map, bind, Except.bind, pure, Except.pure]
    | error conflict => simp [verdict, hrules, Except.map, bind, Except.bind]

theorem hasStamps_of_verdict {registry : Registry} {target? : Option Text} {rules : List Text}
    (h : verdict registry used target? = .ok rules) :
    HasStamps registry (· ∈ used) target? rules := by
  cases target? with
  | none =>
    cases h
    exact .absent
  | some target => exact .found (lists_toList registry) (stamps_of_stampRules h)

theorem verdict_eq_error_iff {registry : Registry} {target? : Option Text}
    {conflict : VersionConflict} :
    verdict registry used target? = .error conflict ↔
      target? = some conflict.target ∧ IsConflict registry (· ∈ used) conflict := by
  cases target? with
  | none => exact ⟨nofun, nofun⟩
  | some target =>
    rw [verdict, stampRules_toList_eq_error_iff, Option.some.injEq, eq_comm]

theorem stampRules_congr {used' : List LibraryId} (h : ∀ id, id ∈ used ↔ id ∈ used')
    (target : Text) (libraries : List (Text × Library)) :
    stampRules target used libraries = stampRules target used' libraries := by
  induction libraries with
  | nil => rfl
  | cons entry libraries ih =>
    obtain ⟨name, library⟩ := entry
    have hperm := perm_versions h name library
    by_cases hmany : 1 < (versions used name library).length
    · have hlength := hperm.length_eq
      rw [stampRules_cons_of_several hmany, stampRules_cons_of_several (hlength ▸ hmany), hlength]
    · -- One version at most has only one order.
      have hversions : versions used name library = versions used' name library := by
        cases hlist : versions used name library with
        | nil => rw [hlist] at hperm; exact hperm.nil_eq
        | cons version others =>
          cases others with
          | nil => rw [hlist] at hperm; exact hperm.singleton_eq
          | cons => simp [hlist] at hmany
      rw [stampRules, stampRules, hversions, ih]

/-- The order and the repetition of headers do not matter. -/
theorem verdict_congr {used' : List LibraryId} (h : ∀ id, id ∈ used ↔ id ∈ used')
    (registry : Registry) (target? : Option Text) :
    verdict registry used target? = verdict registry used' target? := by
  cases target? with
  | none => rfl
  | some target => exact stampRules_congr h target registry.toList

/-! ### Dependency files -/

variable {registry : Registry} {directoryOf : Text → Text} {content : Text}
  {conflict : VersionConflict}

theorem augment_eq_error_iff :
    augment registry (usedIn directoryOf content) content = .error conflict ↔
      ∃ items, Reads content (some conflict.target) items ∧
        IsConflict registry (Uses directoryOf items) conflict := by
  have huses : (· ∈ usedIn directoryOf content) = Uses directoryOf (read content).items :=
    funext fun _ => propext mem_usedIn
  have hmap : augment registry (usedIn directoryOf content) content = .error conflict ↔
      verdict registry (usedIn directoryOf content) (read content).target? = .error conflict := by
    rw [augment_eq_map_verdict]
    cases verdict registry (usedIn directoryOf content) (read content).target? <;>
      simp [Except.map]
  rw [hmap, verdict_eq_error_iff, huses]
  constructor
  · rintro ⟨htarget, hconflict⟩
    exact ⟨_, reads_iff.2 (by rw [← htarget]), hconflict⟩
  · rintro ⟨items, hreads, hconflict⟩
    rw [reads_iff.1 hreads]
    exact ⟨rfl, hconflict⟩

/-- A library that is stamped is needed in one version, and one that is not stamped in none. -/
theorem Stamps.subsingleton {uses : LibraryId → Prop} {target : Text}
    {libraries : List (Text × Library)} {rules : List Text}
    (h : Stamps target uses libraries rules) {name : Text} {library : Library}
    (hmem : (name, library) ∈ libraries) : (neededVersions uses name library).Subsingleton := by
  induction h with
  | nil => cases hmem
  | unused hunused _ ih =>
    rcases List.mem_cons.1 hmem with heq | hmem
    · cases heq
      rintro _ ⟨given, hgiven, -⟩
      exact absurd hgiven (hunused given)
    · exact ih hmem
  | used _ hversion _ ih =>
    rcases List.mem_cons.1 hmem with heq | hmem
    · cases heq
      rintro _ ⟨given, hgiven, rfl⟩ _ ⟨given', hgiven', rfl⟩
      rw [← hversion given hgiven, ← hversion given' hgiven']
    · exact ih hmem

theorem exists_augment_eq_error_iff :
    (∃ conflict, augment registry (usedIn directoryOf content) content = .error conflict) ↔
      ∃ target items name, Reads content (some target) items ∧
        Disagrees registry (Uses directoryOf items) name := by
  constructor
  · rintro ⟨conflict, h⟩
    obtain ⟨items, hreads, hconflict⟩ := augment_eq_error_iff.1 h
    exact ⟨_, items, _, hreads, hconflict.disagrees⟩
  · rintro ⟨target, items, name, hreads, library, hlibrary, hdisagrees⟩
    cases h : augment registry (usedIn directoryOf content) content with
    | error conflict => exact ⟨conflict, rfl⟩
    | ok augmented =>
      obtain ⟨target?, items', rules, haugmented⟩ := augment_eq_ok_iff.1 h
      cases (reads_iff.1 hreads).symm.trans (reads_iff.1 haugmented.reads)
      cases haugmented.stamps with
      | found hlibraries hstamps =>
        have hone := hstamps.subsingleton ((hlibraries.2 _ _).2 hlibrary)
        exact absurd hdisagrees hone.not_nontrivial

/-- The headers of a dependency file decide which libraries are used. -/
theorem uses_congr {items items' : List Text}
    (h : ∀ header, ".h".toList <:+ header → (header ∈ items ↔ header ∈ items'))
    (id : LibraryId) : Uses directoryOf items id ↔ Uses directoryOf items' id := by
  refine exists_congr fun header => ?_
  constructor
  · rintro ⟨hmem, hheader, hid⟩
    exact ⟨(h header hheader).1 hmem, hheader, hid⟩
  · rintro ⟨hmem, hheader, hid⟩
    exact ⟨(h header hheader).2 hmem, hheader, hid⟩

/-- **A conflict is reported exactly when there is one.** Augmentation fails if and only if there
is a target and some configured library is needed in different versions; it then names the target,
the first such library by the bytes of its name and the number of its versions. The failure, or the
stamp rules, are the same for any two dependency files with the same target and the same headers. -/
theorem conflict_iff_several_versions (registry : Registry) (content : Text) :
    (∀ (directoryOf : Text → Text) (conflict : VersionConflict),
      augment registry (usedIn directoryOf content) content = .error conflict ↔
        ∃ items, Reads content (some conflict.target) items ∧
          IsConflict registry (Uses directoryOf items) conflict) ∧
    (∀ directoryOf : Text → Text,
      (∃ conflict, augment registry (usedIn directoryOf content) content = .error conflict) ↔
        ∃ target items name, Reads content (some target) items ∧
          Disagrees registry (Uses directoryOf items) name) ∧
    (∀ (w : Workspace) (failure : Failure),
      ((augmentHere registry content : Action Session Text).run.run w).1 = .error failure ↔
        ∃ conflict items, failure = .versionConflict conflict ∧
          Reads content (some conflict.target) items ∧
          IsConflict registry (Uses (directoryIn w) items) conflict) ∧
    ∀ (directoryOf : Text → Text) (content' : Text) (target? : Option Text)
      (items items' : List Text), Reads content target? items → Reads content' target? items' →
      (∀ header, ".h".toList <:+ header → (header ∈ items ↔ header ∈ items')) →
      ∃ result : Except VersionConflict (List Text),
        (∀ rules, result = .ok rules →
          HasStamps registry (Uses directoryOf items) target? rules) ∧
        augment registry (usedIn directoryOf content) content =
          result.map (fun rules => closed content ++ items.flatMap phonyRule ++ rules.flatten) ∧
        augment registry (usedIn directoryOf content') content' =
          result.map (fun rules => closed content' ++ items'.flatMap phonyRule ++ rules.flatten) := by
  refine ⟨fun _ _ => augment_eq_error_iff, fun _ => exists_augment_eq_error_iff, ?_, ?_⟩
  · intro w failure
    simp only [run_augmentHere, ← augment_eq_error_iff, exists_and_left]
    cases augment registry (usedIn (directoryIn w) content) content with
    | ok augmented => simp [Except.mapError]
    | error conflict => simp [Except.mapError, eq_comm]
  · intro directoryOf content' target? items items' hreads hreads' hheaders
    have hread := reads_iff.1 hreads
    have hread' := reads_iff.1 hreads'
    have hused : ∀ id, id ∈ usedIn directoryOf content ↔ id ∈ usedIn directoryOf content' := by
      intro id
      rw [mem_usedIn, mem_usedIn, hread, hread']
      exact uses_congr hheaders id
    have huses : (· ∈ usedIn directoryOf content) = Uses directoryOf items :=
      funext fun _ => propext (mem_usedIn.trans (by rw [hread]))
    refine ⟨verdict registry (usedIn directoryOf content) target?, fun rules hrules => ?_, ?_, ?_⟩
    · rw [← huses]
      exact hasStamps_of_verdict hrules
    · rw [augment_eq_map_verdict, hread]
    · rw [augment_eq_map_verdict, hread', verdict_congr hused]

/-- A conflict in two layouts. -/
theorem conflict_of_two_layouts :
    let registry : Registry := Std.ExtTreeMap.ofList [("S".toList, ({} : Library))]
    let directoryOf := fun header => directoryName ⟨header⟩
    let content := "a.o: S-1/s.h S-2/s.h\n".toList
    let content' := "a.o: S-2/s.h \\\n S-1/s.h S-2/s.h".toList
    let items := ["S-1/s.h".toList, "S-2/s.h".toList]
    let items' := ["S-2/s.h".toList, "S-1/s.h".toList, "S-2/s.h".toList]
    Reads content (some "a.o".toList) items ∧ Reads content' (some "a.o".toList) items' ∧
      (∀ header, ".h".toList <:+ header → (header ∈ items ↔ header ∈ items')) ∧
      ∃ result : Except VersionConflict (List Text),
        (∀ rules, result = .ok rules →
          HasStamps registry (Uses directoryOf items) (some "a.o".toList) rules) ∧
        augment registry (usedIn directoryOf content) content =
          result.map (fun rules => closed content ++ items.flatMap phonyRule ++ rules.flatten) ∧
        augment registry (usedIn directoryOf content') content' =
          result.map (fun rules =>
            closed content' ++ items'.flatMap phonyRule ++ rules.flatten) := by
  intro registry directoryOf content content' items items'
  have hreads : Reads content (some "a.o".toList) items := reads_iff.2 (by decide +kernel)
  have hreads' : Reads content' (some "a.o".toList) items' := reads_iff.2 (by decide +kernel)
  have hheaders : ∀ header, ".h".toList <:+ header → (header ∈ items ↔ header ∈ items') := by
    intro header _
    simp only [items, items', List.mem_cons, List.not_mem_nil, or_false]
    constructor
    · rintro (rfl | rfl)
      · exact Or.inr (Or.inl rfl)
      · exact Or.inl rfl
    · rintro (rfl | rfl | rfl)
      · exact Or.inr rfl
      · exact Or.inl rfl
      · exact Or.inr rfl
  exact ⟨hreads, hreads', hheaders, (conflict_iff_several_versions registry content).2.2.2
    directoryOf content' _ items items' hreads hreads' hheaders⟩

example :
    augment (Std.ExtTreeMap.ofList [("S".toList, ({} : Library))])
        [⟨"S".toList, "1".toList⟩, ⟨"S".toList, "2".toList⟩, ⟨"S".toList, "1".toList⟩]
        "a.o: S-1/s.h S-2/s.h S-1/t.h\n".toList =
      .error ⟨"a.o".toList, 2, "S".toList⟩ := by
  decide +kernel

end SketchBuild.Depfile
