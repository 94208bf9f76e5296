import Mathlib.Data.List.TakeWhile
import SketchBuild.Proofs.FileTree.Shape

/-!
# Making directories

What it means for a tree that a path leads to a directory, and what making one changes.

* `walk_append`: a walk that creates nothing can be cut in two anywhere.
* `makeDirectory_of_isDirectory`: a directory that is there cannot be made again.
* `isDirectory_of_makeDirectory`: one that has been made is there.
* `locate_ne_link`: no path names a link, if the current directory is reached through directories
  (`Grounded`).
-/

namespace SketchBuild.FileTree

variable {s t tree tree' : FileTree} {location here current : Location} {mayCreate : Bool}
  {piece : Text} {rest : List Text} {p : Path}
  {follow : Location → List Text → Except OsError Location}

/-! ### The current directory -/

/-- The current directory is there, and so are all directories above it. -/
def Grounded (tree : FileTree) (current : Location) : Prop :=
  ∀ location, location <+: current → tree.isDirectoryAt location = true

theorem grounded_nil (tree : FileTree) : tree.Grounded [] := by
  intro above habove
  rw [List.prefix_nil.1 habove]
  rfl

theorem Grounded.of_carries (h : Grounded s current) (hcarries : Carries mayCreate s t) :
    Grounded t current :=
  fun location hprefix => hcarries.isDirectoryAt (h location hprefix)

/-- Links are followed, so none is ever what a path names. -/
theorem locate_ne_link (hground : Grounded tree current)
    (hlocate : tree.locate mayCreate current p = .ok location) (target : Path) :
    tree.get? location ≠ some (.link target) := by
  intro hlink
  have hdirectory : tree.isDirectoryAt location = false := by simp [isDirectoryAt, hlink]
  have hne := ne_nil_of_isDirectoryAt hdirectory
  have hcurrent : ¬ location <+: current := by
    intro hprefix
    rw [hground location hprefix] at hdirectory
    cases hdirectory
  exact walk_ne_link hlink maxLinks (not_prefix_start hne hcurrent p) _
    (locate_eq_ok_iff.1 hlocate).2

theorem freeAt_of_locate (hground : Grounded tree current)
    (hlocate : tree.locate mayCreate current p = .ok location)
    (hfile : tree.isDirectoryAt location = false) : tree.FreeAt location :=
  freeAt_of_ne_link hfile (locate_ne_link hground hlocate)

/-! ### Cutting a walk in two -/

theorem walkWith_append (self : Nat) (hself : tree.walk false self = tree.walkWith false follow)
    (hfollow : ∀ here pieces, ∃ stop : Except OsError (Nat × Location), ∀ rest,
      follow here (pieces ++ rest) = stop.bind fun stop => tree.walk false stop.1 stop.2 rest)
    (here : Location) (pieces : List Text) :
    ∃ stop : Except OsError (Nat × Location), ∀ rest,
      tree.walkWith false follow here (pieces ++ rest) =
        stop.bind fun stop => tree.walk false stop.1 stop.2 rest := by
  fun_induction walkWith tree false follow here pieces with
  | case1 here => exact ⟨.ok (self, here), fun rest => by rw [List.nil_append, ← hself]; rfl⟩
  | case2 here piece pieces hhere =>
    exact ⟨.error .notDirectory, fun rest => by simp [walkWith, hhere, Except.bind]⟩
  | case3 here piece pieces hhere hidle ih =>
    obtain ⟨stop, hstop⟩ := ih
    exact ⟨stop, fun rest => by simp [walkWith, hhere, hidle, ← hstop]⟩
  | case4 here pieces hhere hidle ih =>
    obtain ⟨stop, hstop⟩ := ih
    exact ⟨stop, fun rest => by simp [walkWith, hhere, hidle, ← hstop]⟩
  | case6 here piece pieces hhere hidle hparent _ e hlookup =>
    exact ⟨.error e, fun rest => by simp [walkWith, hhere, hidle, hparent, hlookup, Except.bind]⟩
  | case8 here piece pieces hhere hidle hparent _ hlookup =>
    exact ⟨.error .noEntry, fun rest => by
      simp [walkWith, hhere, hidle, hparent, hlookup, Except.bind]⟩
  | case9 here piece pieces hhere hidle hparent _ target hlookup =>
    obtain ⟨stop, hstop⟩ := hfollow (start here target) (FileTree.pieces target ++ pieces)
    exact ⟨stop, fun rest => by
      simp [walkWith, hhere, hidle, hparent, hlookup, ← hstop]⟩
  | case10 here piece pieces hhere hidle hparent _ entry hentry hlookup ih =>
    obtain ⟨stop, hstop⟩ := ih
    refine ⟨stop, fun rest => ?_⟩
    rw [List.cons_append, walkWith_cons_of_lookup (by simpa using hhere) hidle hparent hlookup
      fun target htarget => hentry target htarget]
    exact hstop rest
  | case5 here piece pieces _ _ _ hslash => exact absurd hslash.1 (by simp)
  | case7 here piece pieces _ _ _ _ _ hcreate => exact absurd hcreate.1 (by simp)

/-- A walk that creates nothing goes on from where its first part ends, with the links that are
left, or fails as the first part does. -/
theorem walk_append (tree : FileTree) (links : Nat) (here : Location) (pieces : List Text) :
    ∃ stop : Except OsError (Nat × Location), ∀ rest,
      tree.walk false links here (pieces ++ rest) =
        stop.bind fun stop => tree.walk false stop.1 stop.2 rest := by
  induction links generalizing here pieces with
  | zero =>
    exact walkWith_append 0 rfl (fun _ _ => ⟨.error .tooManyLinks, fun _ => rfl⟩) here pieces
  | succ links ih => exact walkWith_append (links + 1) rfl ih here pieces

/-- Whatever links are left, a walk is one that goes on somehow from a link. -/
theorem exists_follow (tree : FileTree) (mayCreate : Bool) (links : Nat) :
    ∃ follow, tree.walk mayCreate links = tree.walkWith mayCreate follow := by
  cases links with
  | zero => exact ⟨_, rfl⟩
  | succ links => exact ⟨_, rfl⟩

theorem walk_nil (links : Nat) (here : Location) : tree.walk mayCreate links here [] = .ok here := by
  obtain ⟨follow, hfollow⟩ := exists_follow tree mayCreate links
  rw [hfollow, walkWith]

/-- Where both parts of a walk end. -/
theorem exists_of_walk_append {links : Nat} {pieces : List Text}
    (hwalk : tree.walk false links here (pieces ++ rest) = .ok location) :
    ∃ stop left, tree.walk false links here pieces = .ok stop ∧
      tree.walk false left stop rest = .ok location := by
  obtain ⟨stop, hstop⟩ := walk_append tree links here pieces
  have hfirst := hstop []
  rw [List.append_nil] at hfirst
  rw [hstop] at hwalk
  cases stop with
  | error e => cases hwalk
  | ok stop =>
    refine ⟨stop.2, stop.1, ?_, hwalk⟩
    rw [hfirst]
    exact walk_nil ..

theorem walk_append_of_ok {links : Nat} {pieces : List Text}
    (hwalk : tree.walk false links here pieces = .ok location) (rest : List Text) :
    ∃ left, tree.walk false links here (pieces ++ rest) = tree.walk false left location rest := by
  obtain ⟨stop, hstop⟩ := walk_append tree links here pieces
  have hfirst := hstop []
  rw [List.append_nil, hwalk] at hfirst
  cases stop with
  | error e => cases hfirst
  | ok stop =>
    have hlocation : location = stop.2 := Except.ok.inj (hfirst.trans (walk_nil ..))
    exact ⟨stop.1, by rw [hstop, hlocation]; rfl⟩

/-! ### New entries -/

/-- The last name of a path, and what stands before it and behind it. -/
theorem exists_of_dropWhile_slashes {pieces before : List Text} {name : Text}
    (h : pieces.reverse.dropWhile (· = []) = name :: before) :
    name ≠ [] ∧ ∃ slashes, (∀ slash ∈ slashes, slash = []) ∧
      pieces = before.reverse ++ name :: slashes := by
  have hname := List.head?_dropWhile_not (fun piece : Text => decide (piece = [])) pieces.reverse
  rw [h] at hname
  refine ⟨by simpa using hname, (pieces.reverse.takeWhile (· = [])).reverse, ?_, ?_⟩
  · intro slash hslash
    simpa using List.mem_takeWhile_imp (List.mem_reverse.1 hslash)
  · have hcut := List.takeWhile_append_dropWhile (p := fun piece : Text => decide (piece = []))
      (l := pieces.reverse)
    rw [h] at hcut
    have := congrArg List.reverse hcut
    simpa using this.symm

theorem newEntry_of_dropWhile {before : List Text} {name : Text} (hcheck : check p = .ok ())
    (hlast : (pieces p).reverse.dropWhile (· = []) = name :: before) :
    tree.newEntry current p =
      (tree.walk false maxLinks (start current p) before.reverse).bind fun directory =>
        if !tree.isDirectoryAt directory then .error .notDirectory
        else if name = ['.'] ∨ name = ['.', '.'] then .error .fileExists
        else .ok (directory, name) := by
  rw [newEntry, hcheck, hlast]
  rfl

/-- A walk gets past a name only if something is there. -/
theorem walk_cons_eq_ok {links : Nat} (hwalk : tree.walk false links here (piece :: rest) = .ok location) :
    tree.isDirectoryAt here = true ∧
      (Path.isIdle piece = true ∨ piece = ['.', '.'] ∨
        ∃ entry, tree.lookup here piece = .ok (some entry)) := by
  obtain ⟨follow, hfollow⟩ := exists_follow tree false links
  rw [hfollow, walkWith] at hwalk
  split at hwalk
  · cases hwalk
  · next hhere =>
    refine ⟨by simpa using hhere, ?_⟩
    split at hwalk
    · next hidle => exact .inl hidle
    · split at hwalk
      · next hparent => exact .inr (.inl hparent)
      · rw [if_neg (by simp)] at hwalk
        cases hlookup : tree.lookup here piece with
        | error e => simp [hlookup] at hwalk
        | ok found =>
          cases found with
          | none => simp [hlookup] at hwalk
          | some entry => exact .inr (.inr ⟨entry, rfl⟩)

/-- A directory that is there cannot be made again. -/
theorem makeDirectory_of_isDirectory (h : tree.isDirectory current p = true) :
    tree.makeDirectory current p = .error .fileExists := by
  obtain ⟨location, hlocate, hdirectory⟩ := isDirectory_iff.1 h
  obtain ⟨hcheck, hwalk⟩ := locate_eq_ok_iff.1 hlocate
  rw [makeDirectory, create]
  cases hlast : (pieces p).reverse.dropWhile (· = []) with
  | nil => simp [newEntry, hcheck, hlast, bind, Except.bind]
  | cons name before =>
    obtain ⟨hne, slashes, -, hpieces⟩ := exists_of_dropWhile_slashes hlast
    rw [hpieces] at hwalk
    obtain ⟨stop, left, hbefore, hname⟩ := exists_of_walk_append hwalk
    obtain ⟨hstop, hentry⟩ := walk_cons_eq_ok hname
    rw [newEntry_of_dropWhile hcheck hlast, hbefore]
    by_cases hdot : name = ['.'] ∨ name = ['.', '.']
    · simp [bind, Except.bind, hstop, hdot]
    · have hidle : ¬ Path.isIdle name = true := by
        simp only [Path.isIdle, decide_eq_true_eq]
        rintro (hempty | hpoint)
        · exact hne hempty
        · exact hdot (.inl hpoint)
      have hparent : name ≠ ['.', '.'] := fun hparent => hdot (.inr hparent)
      obtain ⟨entry, hlookup⟩ := (hentry.resolve_left hidle).resolve_left hparent
      simp [bind, Except.bind, hstop, hdot, hlookup]

/-- A new entry goes into the directory that the path before its last name leads to. -/
theorem newEntry_eq_ok {directory : Location} {name : Text}
    (h : tree.newEntry current p = .ok (directory, name)) :
    ∃ before slashes, check p = .ok () ∧ pieces p = before ++ name :: slashes ∧
      (∀ slash ∈ slashes, slash = []) ∧
      tree.walk false maxLinks (start current p) before = .ok directory ∧
      tree.isDirectoryAt directory = true ∧ ¬ Path.isIdle name = true ∧ name ≠ ['.', '.'] := by
  cases hcheck : check p with
  | error e =>
    rw [newEntry, hcheck] at h
    cases h
  | ok =>
    cases hlast : (pieces p).reverse.dropWhile (· = []) with
    | nil =>
      rw [newEntry, hcheck, hlast] at h
      cases h
    | cons last before =>
      obtain ⟨hne, slashes, hslashes, hpieces⟩ := exists_of_dropWhile_slashes hlast
      rw [newEntry_of_dropWhile hcheck hlast] at h
      cases hbefore : tree.walk false maxLinks (start current p) before.reverse with
      | error e =>
        rw [hbefore] at h
        cases h
      | ok stop =>
        simp only [hbefore, Except.bind] at h
        split at h
        · cases h
        · next hdirectory =>
          split at h
          · cases h
          · next hdot =>
            cases h
            obtain ⟨hpoint, hparent⟩ := not_or.1 hdot
            exact ⟨before.reverse, slashes, rfl, hpieces, hslashes, hbefore,
              by simpa using hdirectory, by simp [Path.isIdle, hne, hpoint], hparent⟩

theorem create_eq_ok {entry : FileEntry} (h : tree.create current p entry = .ok tree') :
    ∃ directory name, tree.newEntry current p = .ok (directory, name) ∧
      tree.lookup directory name = .ok none ∧ tree' = tree.put (directory ++ [name]) entry := by
  rw [create] at h
  cases hnew : tree.newEntry current p with
  | error e =>
    rw [hnew] at h
    cases h
  | ok place =>
    rw [hnew] at h
    cases hlookup : tree.lookup place.1 place.2 with
    | error e => simp [bind, Except.bind, hlookup] at h
    | ok found =>
      cases found with
      | none =>
        simp only [bind, Except.bind, hlookup, Except.ok.injEq] at h
        exact ⟨place.1, place.2, rfl, hlookup, h.symm⟩
      | some entry => simp [bind, Except.bind, hlookup] at h

/-- Nothing is lost. -/
def Keeps (s t : FileTree) : Prop :=
  ∀ location entry, s.get? location = some entry → t.get? location = some entry

/-- A walk that creates nothing is not hindered by what is new. -/
theorem Keeps.carries (h : Keeps s t) : Carries false s t where
  shape location := by
    cases hget : s.get? location with
    | none => exact .inl (.inl hget)
    | some entry => exact .inr (h location entry hget)
  free location hfree := by
    rcases hfree with hnone | ⟨content, hfile⟩
    · exact .inr ⟨rfl, hnone⟩
    · exact .inl (.inr ⟨content, h location _ hfile⟩)

theorem keeps_of_makeDirectory (h : tree.makeDirectory current p = .ok tree') :
    Keeps tree tree' := by
  obtain ⟨directory, name, -, hlookup, rfl⟩ := create_eq_ok h
  intro location entry hget
  have hother : location ≠ directory ++ [name] := by
    rintro rfl
    rw [(lookup_eq_ok_iff.1 hlookup).2] at hget
    cases hget
  rw [get?_put tree (by simp), if_neg hother, hget]

theorem walk_slashes (hdirectory : tree.isDirectoryAt here = true) (links : Nat)
    {slashes : List Text} (h : ∀ slash ∈ slashes, slash = []) :
    tree.walk mayCreate links here slashes = .ok here := by
  obtain ⟨follow, hfollow⟩ := exists_follow tree mayCreate links
  rw [hfollow]
  induction slashes with
  | nil => rfl
  | cons slash slashes ih =>
    obtain rfl := h slash List.mem_cons_self
    simpa [walkWith, hdirectory, Path.isIdle] using
      ih fun slash hslash => h slash (List.mem_cons_of_mem _ hslash)

/-- A directory that has been made is there. -/
theorem isDirectory_of_makeDirectory (h : tree.makeDirectory current p = .ok tree') :
    tree'.isDirectory current p = true := by
  have hcarries := (keeps_of_makeDirectory h).carries
  obtain ⟨directory, name, hnew, hlookup, rfl⟩ := create_eq_ok h
  obtain ⟨before, slashes, hcheck, hpieces, hslashes, hbefore, hdirectory, hidle, hparent⟩ :=
    newEntry_eq_ok hnew
  obtain ⟨hshort, hnone⟩ := lookup_eq_ok_iff.1 hlookup
  have hmade : (tree.put (directory ++ [name]) .directory).get? (directory ++ [name]) =
      some .directory := by
    rw [get?_put tree (by simp), if_pos rfl]
  have hdirectory' := hcarries.isDirectoryAt hdirectory
  have hthere : (tree.put (directory ++ [name]) .directory).get? directory ≠ none := by
    intro hgone
    simp [isDirectoryAt, hgone] at hdirectory'
  obtain ⟨left, hleft⟩ := walk_append_of_ok
    (walk_of_carries hcarries (.inr hthere) maxLinks hbefore) (name :: slashes)
  refine isDirectory_iff.2 ⟨directory ++ [name], locate_eq_ok_iff.2 ⟨hcheck, ?_⟩, ?_⟩
  · obtain ⟨follow, hfollow⟩ := exists_follow (tree.put (directory ++ [name]) .directory) false left
    have hlooks : LooksUp (tree.put (directory ++ [name]) .directory) false directory name slashes :=
      ⟨hdirectory', hidle, hparent, by simp, hshort⟩
    rw [hpieces, hleft, hfollow, hlooks.walkWith_of_directory hmade, ← hfollow]
    exact walk_slashes (by simp [isDirectoryAt, hmade]) left hslashes
  · simp [isDirectoryAt, hmade]

end SketchBuild.FileTree
