import SketchBuild.Proofs.Sketch.Grammar

/-!
# How far the scanner looks ahead

Scanning goes on by characters and tokens, and what it does next depends on the text in front of
it. This module says on how much of it.

* `first?_eq_none_iff`: single quotes aside, a token is announced by its first characters.
* `opens_congr`: looking for a token never goes past a character that is neither blank nor a hash
  sign, the first character excepted.
* `IsToken.congr_rest`: of the text after a token, only the first character matters.
* `IsToken.of_closed`: a complete literal or comment can stand in for another one of its kind.
-/

namespace SketchBuild.Region

/-! ### Where a token starts -/

/-- The front of the text opens a token, by its first characters alone. A single quote is left out:
whether it opens one is decided further on in its line. -/
def Opens (b : Bool) (t : Text) : Prop :=
  (∃ u, t = '"' :: u) ∨ (∃ u, t = '/' :: '/' :: u) ∨ (∃ u, t = '/' :: '*' :: u) ∨
    b = true ∧ ∃ blanks u, (∀ c ∈ blanks, isInnerBlank c = true) ∧ t = blanks ++ '#' :: u

theorem directive?_ne_none {blanks u : Text} (hblanks : ∀ c ∈ blanks, isInnerBlank c = true) :
    directive? (blanks ++ '#' :: u) ≠ none := by
  have hhash : isInnerBlank '#' = false := by decide
  simp [directive?, List.dropWhile_append_of_pos hblanks, hhash]

/-- Unless the text starts with a single quote, its first characters decide whether a token starts
there. -/
theorem first?_eq_none_iff {b : Bool} {c : Char} {cs : Text} (hc : c ≠ '\'') :
    first? b (c :: cs) = none ↔ ¬ Opens b (c :: cs) := by
  constructor
  · intro hnone hopens
    unfold first? at hnone
    split at hnone
    · cases hnone
    · next hdirective =>
      rcases hopens with ⟨u, hu⟩ | ⟨u, hu⟩ | ⟨u, hu⟩ | ⟨rfl, blanks, u, hblanks, hu⟩
      · rw [hu] at hnone; cases hnone
      · rw [hu] at hnone; cases hnone
      · rw [hu] at hnone; cases hnone
      · rw [hu, if_pos rfl] at hdirective
        exact directive?_ne_none hblanks hdirective
  · intro hopens
    rw [Option.eq_none_iff_forall_ne_some]
    rintro ⟨⟨kind, text⟩, rest⟩ hsome
    obtain ⟨hsplit, htoken, hline⟩ := first?_eq_some_iff.1 hsome
    apply hopens
    rw [hsplit]
    cases kind with
    | code => exact htoken.elim
    | charLiteral =>
      obtain ⟨items, -, rfl⟩ := htoken
      exact absurd (List.cons.inj hsplit).1 hc
    | stringLiteral =>
      rcases htoken with ⟨items, -, rfl⟩ | ⟨-, tail, rfl, -⟩
      · exact Or.inl ⟨_, rfl⟩
      · exact Or.inl ⟨_, rfl⟩
    | lineComment =>
      obtain ⟨⟨body, -, rfl⟩, -⟩ := htoken
      exact Or.inr (Or.inl ⟨_, rfl⟩)
    | blockComment =>
      rcases htoken with ⟨body, -, rfl⟩ | ⟨-, tail, rfl, -⟩
      · exact Or.inr (Or.inr (Or.inl ⟨_, rfl⟩))
      · exact Or.inr (Or.inr (Or.inl ⟨_, rfl⟩))
    | directive =>
      obtain ⟨⟨blanks, body, hblanks, rfl⟩, -⟩ := htoken
      exact Or.inr (Or.inr (Or.inr ⟨hline rfl, blanks, body ++ rest, hblanks, by simp⟩))

theorem exists_cons_cons_congr {s x y : Text} {a d o : Char} (hs : s ≠ [])
    (h : ∃ u, s ++ o :: x = a :: d :: u) : ∃ u, s ++ o :: y = a :: d :: u := by
  obtain ⟨u, hu⟩ := h
  cases s with
  | nil => exact absurd rfl hs
  | cons e s =>
    obtain ⟨rfl, htail⟩ := List.cons.inj hu
    cases s with
    | nil =>
      obtain ⟨rfl, -⟩ := List.cons.inj htail
      exact ⟨y, rfl⟩
    | cons f s =>
      obtain ⟨rfl, -⟩ := List.cons.inj htail
      exact ⟨s ++ o :: y, rfl⟩

/-- Whether a token opens in front of a character that is neither blank nor a hash sign does not
depend on what comes after that character. -/
theorem opens_congr {b : Bool} {s x y : Text} {o : Char} (hs : s ≠ [])
    (hblank : isInnerBlank o = false) (hhash : o ≠ '#') (h : Opens b (s ++ o :: x)) :
    Opens b (s ++ o :: y) := by
  rcases h with ⟨u, hu⟩ | h | h | ⟨hb, blanks, u, hblanks, hu⟩
  · cases s with
    | nil => exact absurd rfl hs
    | cons e s =>
      obtain ⟨rfl, -⟩ := List.cons.inj hu
      exact Or.inl ⟨_, rfl⟩
  · exact Or.inr (Or.inl (exists_cons_cons_congr hs h))
  · exact Or.inr (Or.inr (Or.inl (exists_cons_cons_congr hs h)))
  · refine Or.inr (Or.inr (Or.inr ⟨hb, blanks, ?_⟩))
    rcases List.append_eq_append_iff.1 hu with ⟨more, rfl, hmore⟩ | ⟨more, rfl, hmore⟩
    · cases more with
      | nil => exact absurd (List.cons.inj hmore).1 hhash
      | cons e more =>
        obtain ⟨rfl, -⟩ := List.cons.inj hmore
        rw [hblanks o (by simp)] at hblank
        cases hblank
    · cases more with
      | nil => exact absurd (List.cons.inj hmore).1.symm hhash
      | cons e more =>
        obtain ⟨rfl, -⟩ := List.cons.inj hmore
        exact ⟨more ++ o :: y, hblanks, by simp⟩

/-! ### What follows a token -/

/-- Of the text after a token only the first character matters. -/
theorem IsToken.congr_rest {kind : Kind} {t u v : Text} {d : Char} (h : IsToken kind t (d :: u)) :
    IsToken kind t (d :: v) := by
  have hend : (∃ after, d :: u = '\n' :: after) → ∃ after, d :: v = '\n' :: after := by
    rintro ⟨after, hafter⟩
    obtain ⟨rfl, -⟩ := List.cons.inj hafter
    exact ⟨v, rfl⟩
  cases kind with
  | code => exact h
  | charLiteral => exact h
  | stringLiteral =>
    rcases h with h | ⟨hrest, -⟩
    · exact Or.inl h
    · cases hrest
  | lineComment =>
    obtain ⟨hclosed, hrest | hafter⟩ := h
    · cases hrest
    · exact ⟨hclosed, Or.inr (hend hafter)⟩
  | blockComment =>
    rcases h with h | ⟨hrest, -⟩
    · exact Or.inl h
    · cases hrest
  | directive =>
    obtain ⟨hshape, hline⟩ := h
    refine ⟨hshape, hline.newlines, ?_⟩
    rcases hline.stops with hrest | ⟨hafter, hstop⟩
    · cases hrest
    · exact Or.inr ⟨hend hafter, hstop⟩

theorem IsToken.congr_append {kind : Kind} {t s x y : Text} {o : Char}
    (h : IsToken kind t (s ++ o :: x)) : IsToken kind t (s ++ o :: y) := by
  cases s with
  | nil => exact IsToken.congr_rest h
  | cons d s => exact IsToken.congr_rest h

/-! ### The first character of a literal or comment -/

/-- The first character of a literal or comment. -/
def opening : Kind → Char
  | .charLiteral => '\''
  | .stringLiteral => '"'
  | _ => '/'

/-- A complete literal or comment can take the place of another token of its kind. -/
theorem IsToken.of_closed {kind : Kind} {t t' rest : Text} (h : IsToken kind t rest)
    (h' : Closed kind t') : IsToken kind t' rest := by
  cases kind with
  | code => exact h
  | charLiteral => exact h'
  | stringLiteral => exact Or.inl h'
  | lineComment => exact ⟨h', h.2⟩
  | blockComment => exact Or.inl h'
  | directive => exact h'.elim

theorem IsToken.exists_opening {kind : Kind} {t rest : Text} (h : IsToken kind t rest)
    (hkind : kind ≠ .directive) : ∃ u, t = opening kind :: u := by
  cases kind with
  | code => exact h.elim
  | charLiteral =>
    obtain ⟨items, -, rfl⟩ := h
    exact ⟨_, rfl⟩
  | stringLiteral =>
    rcases h with ⟨items, -, rfl⟩ | ⟨-, tail, rfl, -⟩
    · exact ⟨_, rfl⟩
    · exact ⟨_, rfl⟩
  | lineComment =>
    obtain ⟨⟨body, -, rfl⟩, -⟩ := h
    exact ⟨_, rfl⟩
  | blockComment =>
    rcases h with ⟨body, -, rfl⟩ | ⟨-, tail, rfl, -⟩
    · exact ⟨_, rfl⟩
    · exact ⟨_, rfl⟩
  | directive => exact absurd rfl hkind

theorem isInnerBlank_opening (kind : Kind) : isInnerBlank (opening kind) = false := by
  cases kind <;> decide

theorem opening_ne_hash (kind : Kind) : opening kind ≠ '#' := by
  cases kind <;> decide

end SketchBuild.Region
