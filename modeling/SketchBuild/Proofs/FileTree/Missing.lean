import SketchBuild.Proofs.FileTree.Texts

/-!
# Paths that lead nowhere

What becomes of a path that cannot be read when files are put into the tree. Where the path leads
to does not change unless something was missing on its way (`locate_outlook`). A file at the missing
place is found there if the path ends with it; otherwise it stands in the way, since a directory is
needed (`Obstructs`), and that is the only way in which the error can change (`read_putTexts_error`).
-/

namespace SketchBuild.FileTree

variable {s t tree : FileTree} {location here current : Location} {piece : Text}
  {rest : List Text} {p : Path}

/-- There may be more files in the second tree, with other contents; all else is the same. -/
structure Grows (s t : FileTree) : Prop where
  shape : SameShape s t
  files : ∀ location, s.get? location ≠ none → t.get? location ≠ none

/-- How a result that depends on the tree changes when there are more files: not at all, or from a
missing entry to something else, as soon as a file is at the place that is missing. -/
inductive Outlook (s : FileTree) (result : FileTree → Except OsError Location) : Prop
  | settled (h : ∀ t, Grows s t → result t = result s)
  | missing (place : Location) (found : Except OsError Location) (hplace : s.get? place = none)
      (hfound : found = .ok place ∨ found = .error .notDirectory)
      (h : ∀ t, Grows s t → result t = if t.get? place = none then .error .noEntry else found)

theorem Outlook.congr {result result' : FileTree → Except OsError Location}
    (h : Outlook s result) (heq : ∀ t, Grows s t → result' t = result t) : Outlook s result' := by
  have hself : Grows s s := ⟨.refl s, fun _ => id⟩
  cases h with
  | settled h => exact .settled fun t ht => by rw [heq t ht, h t ht, heq s hself]
  | missing place found hplace hfound h =>
    exact .missing place found hplace hfound fun t ht => by rw [heq t ht, h t ht]

/-- A file that is there stays a file. -/
theorem Grows.exists_file {content : FileContent} (h : Grows s t)
    (hget : s.get? location = some (.file content)) :
    ∃ content', t.get? location = some (.file content') := by
  have hfree := h.shape.freeAt (.inr ⟨content, hget⟩)
  exact hfree.resolve_left (h.files location (by simp [hget]))

theorem Grows.looksUp (h : Grows s t) (hlooks : LooksUp s false here piece rest) :
    LooksUp t false here piece rest :=
  (h.shape.carries false).looksUp hlooks

theorem lookup_error_congr {e : OsError} (t : FileTree) (h : s.lookup here piece = .error e) :
    t.lookup here piece = .error e := by
  rw [lookup] at h ⊢
  split at h
  · next hlong => rw [if_pos hlong, h]
  · cases h

theorem walkWith_outlook (follow : FileTree → Location → List Text → Except OsError Location)
    (hfollow : ∀ here pieces, Outlook s fun t => follow t here pieces)
    (here : Location) (pieces : List Text) :
    Outlook s fun t => t.walkWith false (follow t) here pieces := by
  fun_induction walkWith s false (follow s) here pieces with
  | case1 here => exact .settled fun t _ => by simp [walkWith]
  | case2 here piece rest hhere =>
    refine .settled fun t ht => ?_
    have hhere' := ht.shape.isDirectoryAt here
    simp_all [walkWith]
  | case3 here piece rest hhere hidle ih =>
    refine ih.congr fun t ht => ?_
    have hhere' := ht.shape.isDirectoryAt here
    simp_all [walkWith]
  | case4 here rest hhere hidle ih =>
    refine ih.congr fun t ht => ?_
    have hhere' := ht.shape.isDirectoryAt here
    simp_all [walkWith]
  | case6 here piece rest hhere hidle hparent _ e hlookup =>
    refine .settled fun t ht => ?_
    have hhere' := ht.shape.isDirectoryAt here
    have hlookup' := lookup_error_congr t hlookup
    simp_all [walkWith]
  | case8 here piece rest hhere hidle hparent hslash hlookup hcreate =>
    have hlooks := LooksUp.of_lookup hhere hidle hparent hslash hlookup
    have hnone := (lookup_eq_ok_iff.1 hlookup).2
    refine .missing (here ++ [piece])
      (if rest = [] then .ok (here ++ [piece]) else .error .notDirectory) hnone ?_ fun t ht => ?_
    · split
      · exact .inl rfl
      · exact .inr rfl
    · rcases ht.shape.freeAt (.inl hnone) with hnone' | ⟨content, hfile⟩
      · rw [(ht.looksUp hlooks).walkWith_of_none hnone', if_pos hnone', if_neg (by simp)]
      · rw [(ht.looksUp hlooks).walkWith_of_file hfile, hfile]
        rfl
  | case9 here piece rest hhere hidle hparent hslash target hlookup =>
    have hlooks := LooksUp.of_lookup hhere hidle hparent hslash hlookup
    have hlink := (lookup_eq_ok_iff.1 hlookup).2
    refine (hfollow (start here target) (FileTree.pieces target ++ rest)).congr fun t ht => ?_
    refine (ht.looksUp hlooks).walkWith_of_link ?_
    rw [(ht.shape.carries false).get? fun hfree => hfree.ne_link target hlink, hlink]
  | case10 here piece rest hhere hidle hparent hslash entry hentry hlookup ih =>
    have hlooks := LooksUp.of_lookup hhere hidle hparent hslash hlookup
    have hget := (lookup_eq_ok_iff.1 hlookup).2
    cases entry with
    | directory =>
      refine ih.congr fun t ht => (ht.looksUp hlooks).walkWith_of_directory ?_
      have hdirectory : s.isDirectoryAt (here ++ [piece]) = true := by simp [isDirectoryAt, hget]
      rw [ht.shape.isDirectoryAt] at hdirectory
      simpa [isDirectoryAt] using hdirectory
    | file content =>
      refine .settled fun t ht => ?_
      obtain ⟨content', hfile⟩ := ht.exists_file hget
      rw [(ht.looksUp hlooks).walkWith_of_file hfile, hlooks.walkWith_of_file hget]
    | link target => exact absurd rfl (hentry target)
  | case5 here piece pieces _ _ _ hslash => exact absurd hslash.1 (by simp)
  | case7 here piece pieces _ _ _ _ _ hcreate => exact absurd hcreate.1 (by simp)

theorem walk_outlook (s : FileTree) (links : Nat) (here : Location) (pieces : List Text) :
    Outlook s fun t => t.walk false links here pieces := by
  induction links generalizing here pieces with
  | zero =>
    refine (walkWith_outlook (fun _ _ _ => .error .tooManyLinks)
      (fun _ _ => .settled fun _ _ => rfl) here pieces).congr fun t _ => ?_
    rw [walk]
  | succ links ih =>
    refine (walkWith_outlook (fun t => t.walk false links) ih here pieces).congr fun t _ => ?_
    rw [walk]

theorem locate_outlook (s : FileTree) (current : Location) (p : Path) :
    Outlook s fun t => t.locate false current p := by
  cases hcheck : check p with
  | error e =>
    refine .settled fun t _ => ?_
    simp only [locate, hcheck, bind, Except.bind]
  | ok =>
    refine (walk_outlook s maxLinks (start current p) (pieces p)).congr fun t _ => ?_
    simp only [locate, hcheck, bind, Except.bind]

/-! ### What is found under a path -/

/-- A walk that does not start below a missing place does not end there. -/
theorem walkWith_ne_missing {follow : Location → List Text → Except OsError Location}
    (hnone : tree.get? location = none)
    (hfollow : ∀ here pieces, ¬ location <+: here → follow here pieces ≠ .ok location)
    (hhere : ¬ location <+: here) (pieces : List Text) :
    tree.walkWith false follow here pieces ≠ .ok location := by
  have hne : location ≠ [] := by
    rintro rfl
    cases hnone
  fun_induction walkWith tree false follow here pieces with
  | case1 here =>
    rintro h
    cases h
    exact hhere List.prefix_rfl
  | case3 here piece rest _ _ ih => exact ih hhere
  | case4 here rest _ _ ih => exact ih fun h => hhere (h.trans (List.dropLast_prefix here))
  | case9 here piece rest _ _ _ _ target _ => exact hfollow _ _ (not_prefix_start hne hhere target)
  | case10 here piece rest _ _ _ _ entry _ hlookup ih =>
    refine ih fun h => ?_
    rcases List.prefix_concat_iff.1 h with rfl | h
    · rw [(lookup_eq_ok_iff.1 hlookup).2] at hnone
      cases hnone
    · exact hhere h
  | case7 here piece pieces _ _ _ _ _ hcreate => exact absurd hcreate.1 (by simp)
  | case2 | case5 | case6 | case8 => simp

theorem walk_ne_missing (hnone : tree.get? location = none) (links : Nat)
    (hhere : ¬ location <+: here) (pieces : List Text) :
    tree.walk false links here pieces ≠ .ok location := by
  induction links generalizing here pieces with
  | zero => exact walkWith_ne_missing hnone (by simp) hhere pieces
  | succ links ih =>
    exact walkWith_ne_missing hnone (fun _ pieces hhere => ih hhere pieces) hhere pieces

theorem get?_ne_none_of_locate (hground : Grounded tree current)
    (h : tree.locate false current p = .ok location) : tree.get? location ≠ none := by
  intro hnone
  have hdirectory : tree.isDirectoryAt location = false := by simp [isDirectoryAt, hnone]
  have hcurrent : ¬ location <+: current := by
    intro hprefix
    rw [hground location hprefix] at hdirectory
    cases hdirectory
  exact walk_ne_missing hnone maxLinks
    (not_prefix_start (ne_nil_of_isDirectoryAt hdirectory) hcurrent p) _
    (locate_eq_ok_iff.1 h).2

/-! ### Errors -/

theorem get?_putTexts_eq_none_iff {files : List (Location × Text)}
    (hne : ∀ file ∈ files, file.1 ≠ []) :
    (tree.putTexts files).get? location = none ↔
      tree.get? location = none ∧ ∀ file ∈ files, file.1 ≠ location := by
  induction files generalizing tree with
  | nil => simp
  | cons file files ih =>
    rw [putTexts_cons, ih fun other hother => hne other (List.mem_cons_of_mem _ hother),
      get?_put tree (hne file List.mem_cons_self)]
    by_cases hlocation : location = file.1
    · simp [hlocation]
    · simp [hlocation, Ne.symm hlocation]

theorem grows_putTexts {files : List (Location × Text)} (hfree : ∀ file ∈ files, tree.FreeAt file.1) :
    Grows tree (tree.putTexts files) where
  shape := sameShape_putTexts hfree
  files _ h hnone := h ((get?_putTexts_eq_none_iff fun file hfile =>
    ne_nil_of_isDirectoryAt (hfree file hfile).isDirectoryAt).1 hnone).1

/-- Nothing is at the location, and a path breaks off there although it leads on, so that a file
would stand in its way. -/
def Obstructs (tree : FileTree) (current location : Location) (p : Path) : Prop :=
  tree.get? location = none ∧ tree.read current p = .error .noEntry ∧
    (tree.put location (.file (.text []))).read current p = .error .notDirectory

theorem read_of_locate_error {e : OsError} (h : tree.locate false current p = .error e) :
    tree.read current p = .error e := by
  rw [read, h]
  rfl

theorem locate_of_read_eq_notDirectory (h : tree.read current p = .error .notDirectory) :
    tree.locate false current p = .error .notDirectory := by
  rw [read] at h
  cases hlocate : tree.locate false current p with
  | error e =>
    rw [hlocate] at h
    exact congrArg Except.error (Except.error.inj h)
  | ok location =>
    simp only [hlocate, bind, Except.bind] at h
    split at h <;> cases h

/-- A path that leads to a file is one under which the file could be written. -/
theorem locate_true_of_file {content : FileContent} (h : tree.locate false current p = .ok location)
    (hfile : tree.get? location = some (.file content)) :
    tree.locate true current p = .ok location := by
  rw [locate_eq_ok_iff] at h ⊢
  exact ⟨h.1, (walk_iff_of_file (by simp [isDirectoryAt, hfile]) (by simp [hfile]) _ _ _).1 h.2⟩

section

variable {files : List (Location × Text)} {cause : OsError}

theorem read_putTexts_of_locate (hground : Grounded tree current)
    (hfree : ∀ file ∈ files, tree.FreeAt file.1)
    (hother : ∀ file ∈ files, tree.locate true current p ≠ .ok file.1)
    (hsame : (tree.putTexts files).locate false current p = tree.locate false current p) :
    (tree.putTexts files).read current p = tree.read current p := by
  rw [read, read, hsame]
  cases hlocate : tree.locate false current p with
  | error e => rfl
  | ok location =>
    have hsome := get?_ne_none_of_locate hground hlocate
    have hplace : (tree.putTexts files).get? location = tree.get? location := by
      refine get?_putTexts_of_not_mem
        (fun file hfile => ne_nil_of_isDirectoryAt (hfree file hfile).isDirectoryAt) ?_
      rintro file hfile rfl
      obtain ⟨content, hcontent⟩ := (hfree file hfile).resolve_left hsome
      exact hother file hfile (locate_true_of_file hlocate hcontent)
    simp only [bind, Except.bind, hplace]

theorem grows_put {place : Location} (hplace : tree.get? place = none) :
    Grows tree (tree.put place (.file (.text []))) := by
  have hfree : ∀ file ∈ [(place, ([] : Text))], tree.FreeAt file.1 := by simpa using .inl hplace
  exact grows_putTexts hfree

/-- What obstructs a path is a file at the place that is missing, if the path leads on there. -/
theorem obstructs_iff {place : Location} {found : Except OsError Location}
    (hplace : tree.get? place = none)
    (hfound : found = .ok place ∨ found = .error .notDirectory)
    (h : ∀ t, Grows tree t →
      t.locate false current p = if t.get? place = none then .error .noEntry else found) :
    tree.Obstructs current location p ↔ location = place ∧ found = .error .notDirectory := by
  have hgone : tree.locate false current p = .error .noEntry := by
    rw [h tree ⟨.refl tree, fun _ => id⟩, if_pos hplace]
  constructor
  · rintro ⟨hnone, -, hblocked⟩
    have hlocate := locate_of_read_eq_notDirectory hblocked
    have hne : location ≠ [] := by
      rintro rfl
      cases hnone
    rw [h _ (grows_put hnone), get?_put tree hne] at hlocate
    by_cases hsame : place = location
    · rw [if_pos hsame, if_neg (by simp)] at hlocate
      exact ⟨hsame.symm, hlocate⟩
    · rw [if_neg hsame, if_pos hplace] at hlocate
      cases hlocate
  · rintro ⟨rfl, rfl⟩
    have hne : location ≠ [] := by
      rintro rfl
      cases hplace
    refine ⟨hplace, read_of_locate_error hgone, read_of_locate_error ?_⟩
    rw [h _ (grows_put hplace), get?_put tree hne, if_pos rfl, if_neg (by simp)]

/-- The error under a path stays the same when texts are put in free places that it does not name,
unless one of them stands in its way. -/
theorem read_putTexts_error (hground : Grounded tree current)
    (hfree : ∀ file ∈ files, tree.FreeAt file.1)
    (hother : ∀ file ∈ files, tree.locate true current p ≠ .ok file.1)
    (h : tree.read current p = .error cause) :
    (tree.putTexts files).read current p = .error cause ∧
        (∀ file ∈ files, ¬ tree.Obstructs current file.1 p) ∨
      cause = .noEntry ∧ (tree.putTexts files).read current p = .error .notDirectory ∧
        ∃ file ∈ files, tree.Obstructs current file.1 p := by
  have hgrows := grows_putTexts hfree
  have hne : ∀ file ∈ files, file.1 ≠ [] := fun file hfile =>
    ne_nil_of_isDirectoryAt (hfree file hfile).isDirectoryAt
  cases locate_outlook tree current p with
  | settled hsettled =>
    refine .inl ⟨(read_putTexts_of_locate hground hfree hother (hsettled _ hgrows)).trans h, ?_⟩
    rintro file - ⟨hnone, hgone, hblocked⟩
    have hlocate := locate_of_read_eq_notDirectory hblocked
    rw [hsettled _ (grows_put hnone)] at hlocate
    rw [read_of_locate_error hlocate] at hgone
    cases hgone
  | missing place found hplace hfound hmissing =>
    have hlocate := hmissing _ hgrows
    have hgone : tree.locate false current p = .error .noEntry := by
      rw [hmissing tree ⟨.refl tree, fun _ => id⟩, if_pos hplace]
    obtain rfl : cause = .noEntry :=
      Except.error.inj (h.symm.trans (read_of_locate_error hgone))
    by_cases hstill : (tree.putTexts files).get? place = none
    · rw [if_pos hstill] at hlocate
      refine .inl ⟨read_of_locate_error hlocate, fun file hfile hobstructs => ?_⟩
      exact ((get?_putTexts_eq_none_iff hne).1 hstill).2 file hfile
        ((obstructs_iff hplace hfound hmissing).1 hobstructs).1
    · rw [if_neg hstill] at hlocate
      obtain ⟨file, hfile, rfl⟩ : ∃ file ∈ files, file.1 = place := by
        by_contra hnowhere
        exact hstill ((get?_putTexts_eq_none_iff hne).2
          ⟨hplace, fun file hfile hsame => hnowhere ⟨file, hfile, hsame⟩⟩)
      rcases hfound with rfl | rfl
      · -- A path that ends at the missing place names the file that has been put there.
        obtain ⟨content, hcontent⟩ := ((hgrows.shape.freeAt (hfree file hfile))).resolve_left hstill
        refine absurd ?_ (hother file hfile)
        rw [locate_congr hgrows.shape]
        exact locate_true_of_file hlocate hcontent
      · exact .inr ⟨rfl, read_of_locate_error hlocate, file, hfile,
          (obstructs_iff hplace (.inr rfl) hmissing).2 ⟨rfl, rfl⟩⟩

end

end SketchBuild.FileTree
