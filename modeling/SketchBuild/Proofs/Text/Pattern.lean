import Mathlib.Data.List.Forall2
import Mathlib.Data.List.Lex
import SketchBuild.Text.Basic

/-!
# Patterns

A pattern is a sequence of parts, each of which stands for one character of a class or for a run of
such characters. It is read at the front of a text from left to right: a run takes as many
characters as it can, and gives them back one by one as long as the parts after it do not fit.

* `splits`: all ways to read a pattern at the front of a text, in the order in which they are tried.
* `mem_splits`: which ways there are.
* `first?_eq_some_iff`: the way that is tried first has the longest runs, earlier runs first.
* `Finds`: the search for a pattern in a text, from left to right and without overlap.
-/

namespace SketchBuild

/-- A part of a pattern: one character of a class, any number of them, or at least one. -/
inductive Pattern.Part
  | one (p : Char → Bool)
  | star (p : Char → Bool)
  | plus (p : Char → Bool)

/-- A sequence of parts. -/
abbrev Pattern := List Pattern.Part

namespace Pattern

namespace Part

/-- The texts that a part stands for. -/
def Fits : Part → Text → Prop
  | one p, t => ∃ c, p c = true ∧ t = [c]
  | star p, t => ∀ c ∈ t, p c = true
  | plus p, t => t ≠ [] ∧ ∀ c ∈ t, p c = true

/-- The runs of a class at the front of a text, each with what follows it: one character more is
tried before the run ends. -/
def runs (p : Char → Bool) : Text → List (Text × Text)
  | [] => [([], [])]
  | c :: cs => (if p c then (runs p cs).map (Prod.map (c :: ·) id) else []) ++ [([], c :: cs)]

/-- The ways to read a part at the front of a text, in the order in which they are tried. -/
def fronts : Part → Text → List (Text × Text)
  | star p, t => runs p t
  | one p, c :: cs => if p c then [([c], cs)] else []
  | plus p, c :: cs => if p c then (runs p cs).map (Prod.map (c :: ·) id) else []
  | _, [] => []

theorem mem_map_cons {α β : Type} {a : α} {l : List (List α × β)} {front : List α} {rest : β} :
    (front, rest) ∈ l.map (Prod.map (a :: ·) id) ↔
      ∃ tail, front = a :: tail ∧ (tail, rest) ∈ l := by
  simp only [List.mem_map, Prod.exists, Prod.map_apply, id_eq, Prod.mk.injEq]
  constructor
  · rintro ⟨tail, _, hmem, rfl, rfl⟩
    exact ⟨tail, rfl, hmem⟩
  · rintro ⟨tail, rfl, hmem⟩
    exact ⟨tail, rest, hmem, rfl, rfl⟩

variable {p : Char → Bool} {t front rest : Text}

theorem mem_runs : (front, rest) ∈ runs p t ↔ (∀ c ∈ front, p c = true) ∧ front ++ rest = t := by
  induction t generalizing front with
  | nil => cases front <;> simp [runs]
  | cons c cs ih =>
    rw [runs, List.mem_append, List.mem_singleton]
    cases front with
    | nil => split <;> simp [mem_map_cons]
    | cons d front =>
      -- A run that is not empty starts with the first character of the text.
      by_cases hc : p c = true
      · simp only [if_pos hc, mem_map_cons, List.cons.injEq]
        grind
      · simp only [if_neg hc]
        grind

theorem mem_fronts {part : Part} :
    (front, rest) ∈ part.fronts t ↔ part.Fits front ∧ front ++ rest = t := by
  cases part with
  | star p => exact mem_runs
  | one p =>
    cases t with
    | nil =>
      simp only [fronts, Fits, List.not_mem_nil, false_iff]
      rintro ⟨⟨c, -, rfl⟩, hnil⟩
      cases hnil
    | cons c cs =>
      simp only [fronts, Fits]
      grind
  | plus p =>
    cases front with
    | nil => cases t <;> simp [fronts, Fits, mem_map_cons]
    | cons d front =>
      cases t with
      | nil => simp [fronts]
      | cons c cs =>
        rw [fronts, Fits, List.forall_mem_cons]
        by_cases hc : p c = true
        · simp only [if_pos hc, mem_map_cons, mem_runs, List.cons.injEq]
          grind
        · simp only [if_neg hc]
          grind

/-- A part takes more characters before it takes fewer. -/
theorem pairwise_runs (p : Char → Bool) (t : Text) :
    (runs p t).Pairwise fun split other => other.1.length < split.1.length := by
  induction t with
  | nil => simp [runs]
  | cons c cs ih =>
    rw [runs, List.pairwise_append]
    by_cases hc : p c = true
    · refine ⟨by simpa [hc, List.pairwise_map] using ih, by simp, ?_⟩
      rw [if_pos hc]
      rintro ⟨front, rest⟩ hfront _ hlast
      obtain ⟨tail, rfl, -⟩ := mem_map_cons.1 hfront
      rw [List.mem_singleton.1 hlast]
      exact Nat.succ_pos _
    · simp [hc]

theorem pairwise_fronts (part : Part) (t : Text) :
    (part.fronts t).Pairwise fun split other => other.1.length < split.1.length := by
  cases part with
  | star p => exact pairwise_runs p t
  | one p =>
    cases t with
    | nil => simp [fronts]
    | cons c cs => by_cases hc : p c = true <;> simp [fronts, hc]
  | plus p =>
    cases t with
    | nil => simp [fronts]
    | cons c cs =>
      by_cases hc : p c = true
      · simp [fronts, hc, List.pairwise_map, pairwise_runs p cs]
      · simp [fronts, hc]

end Part

/-- The ways to read a pattern at the front of a text, each with the texts of the parts and what
follows them, in the order in which they are tried. -/
def splits : Pattern → Text → List (List Text × Text)
  | [], t => [([], t)]
  | part :: parts, t =>
    (part.fronts t).flatMap fun split =>
      (splits parts split.2).map (Prod.map (split.1 :: ·) id)

/-- The way to read a pattern that is tried first. -/
def first? (pattern : Pattern) (t : Text) : Option (List Text × Text) :=
  (splits pattern t).head?

/-- The pattern that stands for a single text. -/
def literal (word : Text) : Pattern :=
  word.map fun c => .one (· == c)

variable {pattern : Pattern} {t rest : Text} {texts : List Text}

/-- The texts of a pattern in two halves are those of the halves. -/
theorem forall₂_append {pattern' : Pattern} :
    List.Forall₂ Part.Fits (pattern ++ pattern') texts ↔
      ∃ first second, List.Forall₂ Part.Fits pattern first ∧
        List.Forall₂ Part.Fits pattern' second ∧ texts = first ++ second := by
  constructor
  · intro h
    have hfirst := List.forall₂_take pattern.length h
    have hsecond := List.forall₂_drop pattern.length h
    rw [List.take_left] at hfirst
    rw [List.drop_left] at hsecond
    exact ⟨_, _, hfirst, hsecond, (List.take_append_drop pattern.length texts).symm⟩
  · rintro ⟨first, second, hfirst, hsecond, rfl⟩
    exact List.rel_append hfirst hsecond

theorem forall₂_literal {word : Text} :
    List.Forall₂ Part.Fits (literal word) texts ↔ texts = word.map ([·]) := by
  rw [literal, List.forall₂_map_left_iff]
  induction word generalizing texts with
  | nil => simp
  | cons c word ih =>
    rw [List.forall₂_cons_left_iff, List.map_cons]
    constructor
    · rintro ⟨_, others, ⟨d, hd, rfl⟩, hothers, rfl⟩
      rw [ih.1 hothers, beq_iff_eq.1 hd]
    · rintro rfl
      exact ⟨[c], _, ⟨c, beq_self_eq_true c, rfl⟩, ih.2 rfl, rfl⟩

theorem mem_splits : (texts, rest) ∈ splits pattern t ↔
    List.Forall₂ Part.Fits pattern texts ∧ texts.flatten ++ rest = t := by
  induction pattern generalizing t texts with
  | nil => cases texts <;> simp [splits, eq_comm]
  | cons part parts ih =>
    simp only [splits, List.mem_flatMap, Part.mem_map_cons, ih, Prod.exists, Part.mem_fronts]
    constructor
    · rintro ⟨front, after, ⟨hfront, rfl⟩, others, rfl, hothers, rfl⟩
      exact ⟨.cons hfront hothers, by simp⟩
    · rintro ⟨hfits, rfl⟩
      cases hfits with
      | cons hfront hothers => exact ⟨_, _, ⟨hfront, by simp⟩, _, rfl, hothers, rfl⟩

/-- Ways to read a pattern are tried in the descending order of the lengths of the parts, the first
part counting most. -/
theorem pairwise_splits (pattern : Pattern) (t : Text) :
    (splits pattern t).Pairwise fun split other =>
      other.1.map List.length < split.1.map List.length := by
  induction pattern generalizing t with
  | nil => simp [splits]
  | cons part parts ih =>
    rw [splits, List.pairwise_flatMap]
    constructor
    · intro split _
      rw [List.pairwise_map]
      refine (ih split.2).imp fun hlt => ?_
      exact List.cons_lt_cons_iff.2 (Or.inr ⟨rfl, hlt⟩)
    · refine (part.pairwise_fronts t).imp fun hlt => ?_
      rintro ⟨texts, rest⟩ htexts ⟨others, rest'⟩ hothers
      obtain ⟨tail, rfl, -⟩ := Part.mem_map_cons.1 htexts
      obtain ⟨tail', rfl, -⟩ := Part.mem_map_cons.1 hothers
      exact List.cons_lt_cons_iff.2 (Or.inl hlt)

/-- **What is read first.** The way that is tried first has the longest first part that any way to
read the pattern has, among those the longest second part, and so on. -/
theorem first?_eq_some_iff : first? pattern t = some (texts, rest) ↔
    (texts, rest) ∈ splits pattern t ∧
      ∀ split ∈ splits pattern t, split.1.map List.length ≤ texts.map List.length := by
  have hpairwise := pairwise_splits pattern t
  rw [first?]
  cases hsplits : splits pattern t with
  | nil => simp
  | cons first others =>
    rw [hsplits, List.pairwise_cons] at hpairwise
    rw [List.head?_cons, Option.some.injEq]
    constructor
    · rintro rfl
      refine ⟨List.mem_cons_self, List.forall_mem_cons.2 ⟨le_rfl, fun split hsplit => ?_⟩⟩
      exact (hpairwise.1 split hsplit).le
    · rintro ⟨hmem, hlongest⟩
      rcases List.mem_cons.1 hmem with heq | hother
      · exact heq.symm
      · exact absurd (hpairwise.1 _ hother) (not_lt.2 (hlongest first List.mem_cons_self))

/-- What a search for a pattern finds: at every place the way to read the pattern that is tried
first, and the next find behind it. -/
inductive Finds (pattern : Pattern) : Text → List (List Text) → Prop
  | nil (h : first? pattern [] = none) : Finds pattern [] []
  | found {t rest : Text} {texts : List Text} {others : List (List Text)}
      (h : first? pattern t = some (texts, rest)) (hne : texts.flatten ≠ [])
      (hrest : Finds pattern rest others) : Finds pattern t (texts :: others)
  | skip {c : Char} {t : Text} {found : List (List Text)} (h : first? pattern (c :: t) = none)
      (hrest : Finds pattern t found) : Finds pattern (c :: t) found

theorem Finds.unique {found found' : List (List Text)} (h : Finds pattern t found)
    (h' : Finds pattern t found') : found = found' := by
  induction h generalizing found' with
  | nil h =>
    cases h' with
    | nil => rfl
    | found h' => rw [h] at h'; cases h'
  | found h _ _ ih =>
    cases h' with
    | nil h' => rw [h] at h'; cases h'
    | found h' _ hrest =>
      rw [h] at h'
      cases h'
      rw [ih hrest]
    | skip h' => rw [h] at h'; cases h'
  | skip h _ ih =>
    cases h' with
    | found h' => rw [h] at h'; cases h'
    | skip _ hrest => exact ih hrest

end Pattern

end SketchBuild
