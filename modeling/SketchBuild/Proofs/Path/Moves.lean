import Mathlib.Data.List.TakeWhile
import SketchBuild.Path.Relative
import SketchBuild.Proofs.Text

/-!
# Components of joined paths

The moves of a path are its components without dots, which lead nowhere. Joining puts the moves of
two paths one after the other (`moves_join`), the parent has all moves but the last
(`moves_of_parent?`), and the settled form depends on the moves alone (`settled_eq`).
-/

namespace SketchBuild.Path

variable {base p q : Path}

/-- The components that lead somewhere. -/
def moves (p : Path) : List Component :=
  p.components.filter (· ≠ .current)

/-- The root of an absolute path. -/
def rootOf (p : Path) : List Component :=
  if p.isAbsolute = true then [.root] else []

/-- An absolute path has nothing before its first slash. -/
theorem isAbsolute_iff {first : Text} {pieces : List Text}
    (h : Text.split '/' p.text = first :: pieces) :
    p.isAbsolute = true ↔ first = [] ∧ pieces ≠ [] := by
  rw [isAbsolute]
  cases htext : p.text with
  | nil =>
    rw [htext] at h
    cases h
    simp
  | cons c text =>
    rw [htext, Text.split] at h
    by_cases hc : c = '/'
    · rw [if_pos hc] at h
      cases h
      simp [hc, Text.split_ne_nil]
    · rw [if_neg hc] at h
      split at h
      · cases h
        simp [hc]
      · cases h
        simp [hc]

theorem ofPiece?_ne_current (piece : Text) : Component.ofPiece? piece ≠ some .current := by
  rw [Component.ofPiece?]
  split
  · simp
  · split
    · simp
    · simp

theorem ofPiece?_eq_none_iff {piece : Text} :
    Component.ofPiece? piece = none ↔ isIdle piece = true := by
  rw [Component.ofPiece?, isIdle, decide_eq_true_eq]
  split
  · next hidle => simp [hidle]
  · next hidle =>
    split
    · simp [hidle]
    · simp [hidle]

/-- Of the dots of a path only one at its very front is a component. -/
def dotOf (p : Path) : List Component :=
  if (Text.split '/' p.text).head? = some ['.'] then [.current] else []

theorem components_eq (p : Path) :
    p.components =
      p.dotOf ++ (p.rootOf ++ (Text.split '/' p.text).filterMap Component.ofPiece?) := by
  rw [components, dotOf, rootOf]
  cases hsplit : Text.split '/' p.text with
  | nil => exact absurd hsplit (Text.split_ne_nil _ _)
  | cons first pieces =>
    have habsolute := isAbsolute_iff hsplit
    by_cases hdot : first = ['.']
    · simp [hdot, habsolute, Component.ofPiece?]
    · by_cases hroot : p.isAbsolute = true
      · simp [hroot, (habsolute.1 hroot).1, Component.ofPiece?]
      · simp only [hdot, hroot, List.head?_cons, Option.some.injEq, if_false, List.nil_append,
          List.filterMap_cons]
        cases Component.ofPiece? first with
        | none => rfl
        | some component => rfl

/-- Every piece makes a move, unless it is empty or a dot. -/
theorem moves_eq (p : Path) :
    p.moves = p.rootOf ++ (Text.split '/' p.text).filterMap Component.ofPiece? := by
  have hdot : p.dotOf.filter (· ≠ .current) = [] := by
    rw [dotOf]
    split
    · rfl
    · rfl
  rw [moves, components_eq, List.filter_append, hdot, List.nil_append, List.filter_eq_self]
  intro component hcomponent
  have hne : component ≠ .current := by
    rintro rfl
    rcases List.mem_append.1 hcomponent with hroot | hpiece
    · rw [rootOf] at hroot
      split at hroot
      · simp at hroot
      · cases hroot
    · obtain ⟨piece, -, hpiece⟩ := List.mem_filterMap.1 hpiece
      exact ofPiece?_ne_current piece hpiece
  simpa using hne

theorem components_eq_moves (p : Path) : p.components = p.dotOf ++ p.moves := by
  rw [components_eq, moves_eq]

/-- There is no slash in a name. -/
theorem slash_not_mem_of_mem_components {n : Text} (h : .name n ∈ p.components) : '/' ∉ n := by
  have hpiece : n ∈ Text.split '/' p.text := by
    rw [components_eq, dotOf, rootOf] at h
    obtain ⟨piece, hpiece, hname⟩ : ∃ piece ∈ Text.split '/' p.text,
        Component.ofPiece? piece = some (.name n) := by
      split at h <;> split at h <;> simpa using h
    rw [Component.ofPiece?] at hname
    split at hname
    · cases hname
    · split at hname
      · cases hname
      · cases hname
        exact hpiece
  exact Text.not_mem_of_mem_split hpiece

/-! ### Joining -/

theorem join_of_isAbsolute (base : Path) (h : q.isAbsolute = true) : base.join q = q := by
  rw [join, if_pos h]

/-- The pieces of a joined path, but for an empty one at the seam. -/
theorem filterMap_split_join (base : Path) (h : q.isAbsolute = false) :
    (Text.split '/' (base.join q).text).filterMap Component.ofPiece? =
      (Text.split '/' base.text).filterMap Component.ofPiece? ++
        (Text.split '/' q.text).filterMap Component.ofPiece? := by
  rw [join, if_neg (by simp [h])]
  split
  · next hend =>
    rcases hend with hnil | hslash
    · simp [hnil, Text.split, Component.ofPiece?]
    · obtain ⟨front, hfront⟩ := List.getLast?_eq_some_iff.1 hslash
      have hseam : Text.split '/' (front ++ ['/']) = Text.split '/' front ++ [[]] :=
        Text.split_append_cons '/' front []
      rw [hfront, List.append_assoc, List.singleton_append, Text.split_append_cons, hseam,
        List.filterMap_append, List.filterMap_append]
      simp [Component.ofPiece?]
  · rw [Text.split_append_cons, List.filterMap_append]

theorem isAbsolute_join (base : Path) (h : q.isAbsolute = false) :
    (base.join q).isAbsolute = base.isAbsolute := by
  have hq : q.text.head? ≠ some '/' := by simpa [isAbsolute] using h
  rw [join, if_neg (by simp [h])]
  split
  · cases hbase : base.text with
    | nil => simpa [isAbsolute, hbase] using hq
    | cons c text => simp [isAbsolute, hbase]
  · next hend =>
    cases hbase : base.text with
    | nil => exact absurd (.inl hbase) hend
    | cons c text => simp [isAbsolute, hbase]

theorem moves_join (base : Path) (h : q.isAbsolute = false) :
    (base.join q).moves = base.moves ++ q.moves := by
  rw [moves_eq, moves_eq base, moves_eq q, filterMap_split_join base h, rootOf, rootOf, rootOf,
    isAbsolute_join base h, h]
  simp

theorem dotOf_join (hbase : base.text ≠ []) (h : q.isAbsolute = false) :
    (base.join q).dotOf = base.dotOf := by
  have hhead : ∀ front back : Text, (Text.split '/' (front ++ '/' :: back)).head? =
      (Text.split '/' front).head? := by
    intro front back
    rw [Text.split_append_cons, List.head?_append_of_ne_nil _ (Text.split_ne_nil _ _)]
  have hjoin : (Text.split '/' (base.join q).text).head? = (Text.split '/' base.text).head? := by
    rw [join, if_neg (by simp [h])]
    split
    · next hend =>
      obtain ⟨front, hfront⟩ := List.getLast?_eq_some_iff.1 (hend.resolve_left hbase)
      rw [hfront, List.append_assoc, List.singleton_append, hhead, hhead]
    · rw [hhead]
  rw [dotOf, dotOf, hjoin]

/-- The components of a path with a name put behind it. -/
theorem components_join_name (base : Path) {name : Text} (hslash : '/' ∉ name)
    (hname : Component.ofPiece? name = some (.name name)) :
    (base.join ⟨name⟩).components = base.components ++ [.name name] := by
  have hsplit : Text.split '/' name = [name] := Text.split_eq_singleton hslash
  have habsolute : (⟨name⟩ : Path).isAbsolute = false := by
    rw [← Bool.not_eq_true, isAbsolute_iff hsplit]
    simp
  have hmoves : (⟨name⟩ : Path).moves = [.name name] := by
    rw [moves_eq, rootOf, if_neg (by simp [habsolute]), hsplit]
    simp [hname]
  have hdot : name ≠ ['.'] := by
    rintro rfl
    cases hname
  by_cases hbase : base.text = []
  · have hjoin : base.join ⟨name⟩ = ⟨name⟩ := by simp [join, habsolute, hbase]
    rw [hjoin, components_eq_moves, hmoves, components_eq base, dotOf, dotOf, rootOf]
    simp [hsplit, hdot, hbase, isAbsolute, Text.split, Component.ofPiece?]
  · rw [components_eq_moves, components_eq_moves base, dotOf_join hbase habsolute,
      moves_join base habsolute, hmoves, List.append_assoc]

/-! ### Parents -/

/-- Pieces that make no move may be left off at the end. -/
theorem filterMap_dropWhile_idle (pieces : List Text) :
    (pieces.reverse.dropWhile isIdle).reverse.filterMap Component.ofPiece? =
      pieces.filterMap Component.ofPiece? := by
  have hidle : (pieces.reverse.takeWhile isIdle).reverse.filterMap Component.ofPiece? = [] := by
    rw [List.filterMap_eq_nil_iff]
    intro piece hpiece
    exact ofPiece?_eq_none_iff.2 (List.mem_takeWhile_imp (List.mem_reverse.1 hpiece))
  have hcut : pieces = (pieces.reverse.dropWhile isIdle).reverse ++
      (pieces.reverse.takeWhile isIdle).reverse := by
    rw [← List.reverse_append, List.takeWhile_append_dropWhile, List.reverse_reverse]
  conv => rhs; rw [hcut, List.filterMap_append, hidle, List.append_nil]

theorem moves_of_split {first : Text} {pieces : List Text}
    (h : Text.split '/' p.text = first :: pieces) :
    p.moves = p.rootOf ++
      ((Component.ofPiece? first).toList ++ pieces.filterMap Component.ofPiece?) := by
  rw [moves_eq, h, List.filterMap_cons]
  cases Component.ofPiece? first with
  | none => rfl
  | some component => rfl

/-- What is left of a path for its parent: nothing, if the first piece makes the last move;
otherwise the first piece, and those behind it that are before the last move. -/
theorem split_of_parent? {first : Text} {pieces : List Text}
    (hsplit : Text.split '/' p.text = first :: pieces) (h : p.parent? = some q) :
    first ≠ [] ∧ q.text = [] ∧ pieces.reverse.dropWhile isIdle = [] ∨
      ∃ last before left, pieces.reverse.dropWhile isIdle = last :: before ∧
        Text.split '/' q.text = first :: left ∧ (first = [] → left ≠ []) ∧
        left.filterMap Component.ofPiece? = before.reverse.filterMap Component.ofPiece? := by
  have hslash : ∀ piece ∈ first :: pieces, '/' ∉ piece := fun piece hpiece =>
    Text.not_mem_of_mem_split (hsplit ▸ hpiece)
  simp only [parent?, hsplit] at h
  cases hlast : pieces.reverse.dropWhile isIdle with
  | nil =>
    simp only [hlast] at h
    split at h
    · cases h
    · next hfirst =>
      cases h
      exact .inl ⟨hfirst, rfl, rfl⟩
  | cons last before =>
    have hbefore := filterMap_dropWhile_idle before.reverse
    rw [List.reverse_reverse] at hbefore
    refine .inr ⟨last, before, ?_⟩
    simp only [hlast] at h
    cases hkept : before.dropWhile isIdle with
    | nil =>
      simp only [hkept] at h
      rw [hkept] at hbefore
      by_cases hfirst : first = []
      · rw [if_pos hfirst] at h
        cases h
        exact ⟨[[]], rfl, by rw [hfirst]; rfl, by simp, by rw [← hbefore]; rfl⟩
      · rw [if_neg hfirst] at h
        cases h
        exact ⟨[], rfl, Text.split_eq_singleton (hslash first List.mem_cons_self),
          by simp [hfirst], hbefore⟩
    | cons next kept =>
      simp only [hkept] at h
      rw [hkept] at hbefore
      cases h
      refine ⟨(next :: kept).reverse, rfl, Text.split_join (by simp) ?_, by simp, hbefore⟩
      intro piece hpiece
      refine hslash piece (List.mem_cons.2 ((List.mem_cons.1 hpiece).imp_right fun hkeep => ?_))
      have hmem : piece ∈ before :=
        (List.dropWhile_sublist isIdle).subset (hkept ▸ List.mem_reverse.1 hkeep)
      have hmem' : piece ∈ pieces.reverse :=
        (List.dropWhile_sublist isIdle).subset (hlast ▸ List.mem_cons_of_mem last hmem)
      exact List.mem_reverse.1 hmem'

/-- The parent has all moves of a path but the last. -/
theorem moves_of_parent? (h : p.parent? = some q) :
    q.moves = p.moves.dropLast ∧ q.isAbsolute = p.isAbsolute := by
  cases hsplit : Text.split '/' p.text with
  | nil => exact absurd hsplit (Text.split_ne_nil _ _)
  | cons first pieces =>
    have habsolute := isAbsolute_iff hsplit
    have hpieces := filterMap_dropWhile_idle pieces
    rw [moves_of_split hsplit, ← hpieces]
    rcases split_of_parent? hsplit h with ⟨hfirst, hq, hidle⟩ | ⟨last, before, left, hlast, hq⟩
    · have hroot : p.isAbsolute = false := by simp [← Bool.not_eq_true, habsolute, hfirst]
      obtain rfl : q = ⟨[]⟩ := congrArg Path.mk hq
      rw [hidle, rootOf, hroot]
      cases Component.ofPiece? first with
      | none => exact ⟨rfl, rfl⟩
      | some component => exact ⟨rfl, rfl⟩
    · obtain ⟨hleft, hne, hmoves⟩ := hq
      have hsame : q.isAbsolute = p.isAbsolute := by
        have hbehind : pieces ≠ [] := by
          rintro rfl
          cases hlast
        rw [Bool.eq_iff_iff, habsolute, isAbsolute_iff hleft]
        exact and_congr_right fun hfirst => by simp [hne hfirst, hbehind]
      have hmove : ∃ component, Component.ofPiece? last = some component := by
        have hhead := List.head?_dropWhile_not isIdle pieces.reverse
        rw [hlast] at hhead
        exact Option.ne_none_iff_exists'.1 fun hnone => by simp [ofPiece?_eq_none_iff.1 hnone] at hhead
      obtain ⟨component, hcomponent⟩ := hmove
      refine ⟨?_, hsame⟩
      rw [moves_of_split hleft, hmoves, hlast, List.reverse_cons, List.filterMap_append,
        List.filterMap_cons_some hcomponent, List.filterMap_nil, ← List.append_assoc,
        ← List.append_assoc, ← List.append_assoc, List.dropLast_concat, rootOf, rootOf, hsame]

/-- The settled form is that of the moves. -/
theorem settled_eq (p : Path) : p.settled = (p.moves.foldl settle []).reverse := by
  rw [settled, moves, List.foldl_filter]
  congr 2
  funext stack component
  cases component with
  | current => rfl
  | _ => rfl

end SketchBuild.Path
