import Mathlib.Data.List.Nodup
import SketchBuild.Proofs.FileTree.Directories

/-!
# Several files at once

Texts that are put into a tree at different places: their order does not matter
(`putTexts_perm`), each is where it was put (`get?_putTexts`), nothing else changes
(`get?_putTexts_of_not_mem`), and to put them there again changes nothing (`putTexts_of_get?`).

`writable?` is the place where a write goes, and `SameFile` says that two paths name one file.
-/

namespace SketchBuild.FileTree

variable {s t tree tree' : FileTree} {location : Location} {current : Location} {p q : Path}

/-! ### Putting texts -/

/-- The tree with texts put at locations, one after the other. -/
def putTexts (tree : FileTree) (files : List (Location × Text)) : FileTree :=
  files.foldl (fun tree file => tree.put file.1 (.file (.text file.2))) tree

@[simp] theorem putTexts_nil (tree : FileTree) : tree.putTexts [] = tree := rfl

@[simp] theorem putTexts_cons (tree : FileTree) (file : Location × Text)
    (files : List (Location × Text)) :
    tree.putTexts (file :: files) = (tree.put file.1 (.file (.text file.2))).putTexts files := rfl

theorem put_comm {l₁ l₂ : Location} (h : l₁ ≠ l₂) (e₁ e₂ : FileEntry) :
    (tree.put l₁ e₁).put l₂ e₂ = (tree.put l₂ e₂).put l₁ e₁ := by
  ext location : 1
  simp only [put, Std.ExtTreeMap.getElem?_insert, Std.LawfulEqOrd.compare_eq_iff_eq]
  by_cases h₁ : l₁ = location
  · by_cases h₂ : l₂ = location
    · exact absurd (h₁.trans h₂.symm) h
    · simp [h₁, h₂]
  · by_cases h₂ : l₂ = location
    · simp [h₁, h₂]
    · simp [h₁, h₂]

theorem put_of_get? {entry : FileEntry} (hne : location ≠ [])
    (h : tree.get? location = some entry) : tree.put location entry = tree := by
  ext other : 1
  rw [get?, if_neg hne] at h
  simp only [put, Std.ExtTreeMap.getElem?_insert, Std.LawfulEqOrd.compare_eq_iff_eq]
  by_cases hother : location = other
  · rw [if_pos hother, ← hother, h]
  · rw [if_neg hother]

/-- The order of files at different places does not matter. -/
theorem putTexts_perm {files files' : List (Location × Text)} (h : files.Perm files')
    (hnodup : (files.map Prod.fst).Nodup) : tree.putTexts files = tree.putTexts files' := by
  refine h.foldl_eq' ?_ tree
  intro first hfirst second hsecond tree
  by_cases hsame : first = second
  · rw [hsame]
  · exact put_comm (fun heq => hsame (List.inj_on_of_nodup_map hnodup hfirst hsecond heq)) _ _

theorem get?_putTexts_of_not_mem {files : List (Location × Text)}
    (hne : ∀ file ∈ files, file.1 ≠ []) (h : ∀ file ∈ files, file.1 ≠ location) :
    (tree.putTexts files).get? location = tree.get? location := by
  induction files generalizing tree with
  | nil => rfl
  | cons file files ih =>
    rw [putTexts_cons, ih (fun other hother => hne other (List.mem_cons_of_mem _ hother))
      fun other hother => h other (List.mem_cons_of_mem _ hother),
      get?_put tree (hne file List.mem_cons_self), if_neg (h file List.mem_cons_self).symm]

theorem get?_putTexts {files : List (Location × Text)} (hne : ∀ file ∈ files, file.1 ≠ [])
    (hnodup : (files.map Prod.fst).Nodup) {file : Location × Text} (h : file ∈ files) :
    (tree.putTexts files).get? file.1 = some (.file (.text file.2)) := by
  induction files generalizing tree with
  | nil => cases h
  | cons first files ih =>
    obtain ⟨hfirst, hnodup⟩ := List.nodup_cons.1 hnodup
    have hne' : ∀ file ∈ files, file.1 ≠ [] := fun other hother =>
      hne other (List.mem_cons_of_mem _ hother)
    rcases List.mem_cons.1 h with rfl | h
    · have hlater : ∀ other ∈ files, other.1 ≠ file.1 := fun other hother heq =>
        hfirst (List.mem_map.2 ⟨other, hother, heq⟩)
      rw [putTexts_cons, get?_putTexts_of_not_mem hne' hlater,
        get?_put tree (hne file List.mem_cons_self), if_pos rfl]
    · exact ih hne' hnodup h

/-- To put files where they are changes nothing. -/
theorem putTexts_of_get? {files : List (Location × Text)}
    (h : ∀ file ∈ files, file.1 ≠ [] ∧ tree.get? file.1 = some (.file (.text file.2))) :
    tree.putTexts files = tree := by
  induction files with
  | nil => rfl
  | cons file files ih =>
    obtain ⟨hne, hget⟩ := h file List.mem_cons_self
    rw [putTexts_cons, put_of_get? hne hget]
    exact ih fun other hother => h other (List.mem_cons_of_mem _ hother)

/-- Files in free places leave the shape of a tree as it is. -/
theorem sameShape_putTexts {files : List (Location × Text)} (h : ∀ file ∈ files, tree.FreeAt file.1) :
    SameShape tree (tree.putTexts files) := by
  induction files generalizing tree with
  | nil => exact .refl tree
  | cons file files ih =>
    have hput := SameShape.put (h file List.mem_cons_self) (.text file.2)
    exact hput.trans (ih fun other hother => hput.freeAt (h other (List.mem_cons_of_mem _ hother)))

/-! ### Files by their paths -/

/-- Two paths name the same file, all links followed; the file need not exist. -/
def SameFile (tree : FileTree) (current : Location) (p q : Path) : Prop :=
  ∃ location, tree.locate true current p = .ok location ∧
    tree.locate true current q = .ok location

instance : Decidable (tree.SameFile current p q) :=
  match hp : tree.locate true current p, hq : tree.locate true current q with
  | .ok location, .ok location' =>
    decidable_of_iff (location' = location) (by simp [SameFile, hp, hq])
  | .error _, _ => .isFalse (by simp [SameFile, hp])
  | _, .error _ => .isFalse (by simp [SameFile, hq])

theorem SameFile.symm (h : tree.SameFile current p q) : tree.SameFile current q p := by
  obtain ⟨location, hp, hq⟩ := h
  exact ⟨location, hq, hp⟩

theorem sameFile_congr (h : SameShape s t) : s.SameFile current p q ↔ t.SameFile current p q :=
  exists_congr fun location =>
    and_congr (locate_congr h current p location) (locate_congr h current q location)

/-- Where a write goes, unless a directory is there. -/
def writable? (tree : FileTree) (current : Location) (p : Path) : Option Location :=
  match tree.locate true current p with
  | .ok location => if tree.isDirectoryAt location = true then none else some location
  | .error _ => none

theorem writable?_eq_some_iff :
    tree.writable? current p = some location ↔
      tree.locate true current p = .ok location ∧ tree.isDirectoryAt location = false := by
  rw [writable?]
  cases tree.locate true current p with
  | error e => simp
  | ok found =>
    by_cases hfound : tree.isDirectoryAt found = true
    · simp only [hfound, if_true, reduceCtorEq, Except.ok.injEq, false_iff, not_and]
      rintro rfl
      simp [hfound]
    · simp only [hfound, if_false, Option.some.injEq, Except.ok.injEq, Bool.false_eq_true]
      constructor
      · rintro rfl
        exact ⟨rfl, by simpa using hfound⟩
      · exact And.left

theorem writable?_congr (h : SameShape s t) (current : Location) (p : Path) :
    s.writable? current p = t.writable? current p := by
  ext location
  rw [writable?_eq_some_iff, writable?_eq_some_iff, locate_congr h, h.isDirectoryAt]

theorem write_of_writable? (h : tree.writable? current p = some location) (content : FileContent) :
    tree.write current p content = .ok (tree.put location (.file content)) := by
  obtain ⟨hlocate, hfile⟩ := writable?_eq_some_iff.1 h
  exact write_eq_ok_iff.2 ⟨location, hlocate, hfile, rfl⟩

theorem exists_writable?_of_write {content : FileContent}
    (h : tree.write current p content = .ok tree') :
    ∃ location, tree.writable? current p = some location := by
  obtain ⟨location, hlocate, hfile, -⟩ := write_eq_ok_iff.1 h
  exact ⟨location, writable?_eq_some_iff.2 ⟨hlocate, hfile⟩⟩

/-- Whether a path can be written to does not depend on the content. -/
theorem writable?_eq_none_iff (content : FileContent) :
    tree.writable? current p = none ↔ ∃ cause, tree.write current p content = .error cause := by
  cases hwrite : tree.write current p content with
  | error cause =>
    simp only [Except.error.injEq, exists_eq', iff_true]
    rw [Option.eq_none_iff_forall_ne_some]
    intro location hlocation
    rw [write_of_writable? hlocation] at hwrite
    cases hwrite
  | ok tree' =>
    obtain ⟨location, hlocation⟩ := exists_writable?_of_write hwrite
    simp [hlocation]

theorem freeAt_of_writable? (hground : Grounded tree current)
    (h : tree.writable? current p = some location) : tree.FreeAt location := by
  obtain ⟨hlocate, hfile⟩ := writable?_eq_some_iff.1 h
  exact freeAt_of_locate hground hlocate hfile

/-- Texts in free places do not change what is read under a path that names none of them. -/
theorem read_putTexts {files : List (Location × Text)} (hfree : ∀ file ∈ files, tree.FreeAt file.1)
    (hother : ∀ file ∈ files, tree.locate true current p ≠ .ok file.1) (text : Text) :
    (tree.putTexts files).read current p = .ok text ↔ tree.read current p = .ok text := by
  rw [read_eq_ok_iff, read_eq_ok_iff]
  refine exists_congr fun location => ?_
  rw [← locate_congr (sameShape_putTexts hfree)]
  refine and_congr_right fun hlocate => ?_
  rw [get?_putTexts_of_not_mem]
  · exact fun file hfile => ne_nil_of_isDirectoryAt (hfree file hfile).isDirectoryAt
  · rintro file hfile rfl
    exact hother file hfile hlocate

end SketchBuild.FileTree
