import SketchBuild.Proofs.Sketch.Grammar
import SketchBuild.Proofs.Text
import SketchBuild.Sketch.Analysis

/-!
# The name in the marker

The marker that stands before the body of a generated text quotes the name of the sketch as a string
literal. Every name can be quoted, and every name can be read back.

* `escapeLiteral_eq_replaced`: escaping is one pass that does the work of two, first over the
  backslashes and then over the quotes.
* `stringItems_escapeLiteral`: an escaped text is what may stand between the quotes of a literal.
* `unescaped_escapeLiteral`: taking the escapes away gives the text back.
* `lineMarker_quotes_name`: the marker from its first quote on.
-/

namespace SketchBuild

open Text (replaced replaced_cons_self replaced_cons_of_ne)

/-- The text without the backslash of every escape: a backslash gives way to the character behind
it. -/
def unescaped : Text → Text
  | [] => []
  | '\\' :: c :: cs => c :: unescaped cs
  | c :: cs => c :: unescaped cs

/-! ### Escaping -/

theorem escapeLiteral_cons_of_escaped {c : Char} (h : c = '\\' ∨ c = '"') (t : Text) :
    escapeLiteral (c :: t) = '\\' :: c :: escapeLiteral t := by
  simp [escapeLiteral, h]

theorem escapeLiteral_cons_of_plain {c : Char} (h : ¬ (c = '\\' ∨ c = '"')) (t : Text) :
    escapeLiteral (c :: t) = c :: escapeLiteral t := by
  simp [escapeLiteral, h]

/-- Escaping the backslashes first and the quotes second comes to the same: the backslashes that
the second pass adds are not met by the first. -/
theorem escapeLiteral_eq_replaced (t : Text) :
    escapeLiteral t = replaced '"' ['\\', '"'] (replaced '\\' ['\\', '\\'] t) := by
  induction t with
  | nil => rfl
  | cons c cs ih =>
    by_cases hbackslash : c = '\\'
    · subst hbackslash
      rw [escapeLiteral_cons_of_escaped (Or.inl rfl), replaced_cons_self, List.cons_append,
        List.singleton_append, replaced_cons_of_ne (by decide), replaced_cons_of_ne (by decide), ih]
    · rw [replaced_cons_of_ne hbackslash]
      by_cases hquote : c = '"'
      · subst hquote
        rw [escapeLiteral_cons_of_escaped (Or.inr rfl), replaced_cons_self, ih]
        rfl
      · rw [escapeLiteral_cons_of_plain (by simp [hbackslash, hquote]), replaced_cons_of_ne hquote,
          ih]

theorem stringItems_escapeLiteral (t : Text) : Region.StringItems (escapeLiteral t) := by
  induction t with
  | nil => exact .nil
  | cons c cs ih =>
    by_cases h : c = '\\' ∨ c = '"'
    · rw [escapeLiteral_cons_of_escaped h]
      exact .escaped ih
    · rw [escapeLiteral_cons_of_plain h]
      rw [not_or] at h
      exact .plain h.2 h.1 ih

@[simp] theorem unescaped_escapeLiteral (t : Text) : unescaped (escapeLiteral t) = t := by
  induction t with
  | nil => rfl
  | cons c cs ih =>
    by_cases h : c = '\\' ∨ c = '"'
    · rw [escapeLiteral_cons_of_escaped h, unescaped, ih]
    · rw [escapeLiteral_cons_of_plain h, unescaped, ih]
      rw [not_or] at h
      exact fun d ds hc => absurd hc h.1

theorem escapeLiteral_injective : Function.Injective escapeLiteral :=
  Function.LeftInverse.injective unescaped_escapeLiteral

/-! ### The marker -/

variable {options : SketchOptions}

theorem dropWhile_lineMarker (h : options.lineMarker = true) (name : Text) :
    (lineMarker options name).dropWhile (· != '"') = '"' :: (escapeLiteral name ++ ['"']) := by
  have hfront : ∀ c ∈ "#line 1 ".toList, (c != '"') = true := List.all_eq_true.1 (by decide +kernel)
  have hmarker : lineMarker options name =
      "#line 1 ".toList ++ '"' :: (escapeLiteral name ++ ['"']) := by
    rw [lineMarker, if_pos h]
    simp
  rw [hmarker, List.dropWhile_append_of_pos hfront]
  rfl

/-- **The marker quotes the name of the sketch.** From its first quote on, the marker in the form of
a directive is one complete string literal: reading on behind the quote, the scanner stops exactly
where the marker ends, whatever comes after it. Between the quotes stands the name with a backslash
put in front of every backslash and then of every quote; without these escapes it is the name. So
different names have different markers. -/
theorem lineMarker_quotes_name (h : options.lineMarker = true) :
    (∀ name, ∃ inside,
        (lineMarker options name).dropWhile (· != '"') = '"' :: (inside ++ ['"']) ∧
        inside = replaced '"' ['\\', '"'] (replaced '\\' ['\\', '\\'] name) ∧
        Region.Closed .stringLiteral ('"' :: (inside ++ ['"'])) ∧
        (∀ rest, Region.stringTail (inside ++ ['"'] ++ rest) = (inside ++ ['"'], rest)) ∧
        unescaped inside = name) ∧
      Function.Injective (lineMarker options) := by
  constructor
  · intro name
    have hitems := stringItems_escapeLiteral name
    refine ⟨escapeLiteral name, dropWhile_lineMarker h name, escapeLiteral_eq_replaced name,
      ⟨_, hitems, rfl⟩, fun rest => ?_, unescaped_escapeLiteral name⟩
    rw [List.append_assoc]
    exact Region.stringTail_items hitems rest
  · intro name name' hsame
    have hliteral := congrArg (List.dropWhile (· != '"')) hsame
    rw [dropWhile_lineMarker h, dropWhile_lineMarker h] at hliteral
    exact escapeLiteral_injective (List.append_cancel_right (List.cons.inj hliteral).2)

/-- A name of quotes and backslashes that ends with a backslash. -/
theorem lineMarker_quotes_name_backslash :
    ({} : SketchOptions).lineMarker = true ∧
      (lineMarker {} "\\\"a\\\\".toList).dropWhile (· != '"') =
        "\"\\\\\\\"a\\\\\\\\\"".toList ∧
      Region.stringTail "\\\\\\\"a\\\\\\\\\"\n".toList =
        ("\\\\\\\"a\\\\\\\\\"".toList, ['\n']) ∧
      unescaped "\\\\\\\"a\\\\\\\\".toList = "\\\"a\\\\".toList ∧
      Function.Injective (lineMarker {}) := by
  obtain ⟨hquotes, hinjective⟩ := @lineMarker_quotes_name {} rfl
  obtain ⟨inside, hdrop, hinside, -, hstops, hname⟩ := hquotes "\\\"a\\\\".toList
  have heq : inside = "\\\\\\\"a\\\\\\\\".toList := by
    rw [hinside]
    decide +kernel
  subst heq
  exact ⟨rfl, hdrop, hstops ['\n'], hname, hinjective⟩

end SketchBuild
