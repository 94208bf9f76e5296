import Mathlib.Data.List.Infix
import SketchBuild.Proofs.Text
import SketchBuild.Sketch.Signature

/-!
# Signatures and the braces after them

The reader of signatures goes through a text once and never turns back. This module says what it
accepts without the reader.

* `accepts_iff`: a signature is a head and a list of parameters in parentheses.
* `split?_eq_some_iff`, `definition?_eq_some_iff`: what the readers split off.
* `longestSignature?` is the longest signature at the end of a text.
* `definitions_append_opening`, `definitions_append_closing`: the definitions of a text are found
  piece by piece, from brace to brace.
-/

namespace SketchBuild.Signature

open Text (isBrace isBlank trimEnd)

variable {t signature rest body : Text}

/-! ### The shape of a signature -/

theorem isTypeChar_of_isBlank {c : Char} (h : isBlank c = true) : isTypeChar c = false := by
  have hne : ∀ d, isBlank d = false → (c == d) = false := by
    intro d hd
    rw [beq_eq_false_iff_ne]
    rintro rfl
    rw [hd] at h
    cases h
  rw [isTypeChar, Text.isWord_of_isBlank h, hne '[' (by decide), hne ']' (by decide),
    hne '*' (by decide)]
  rfl

theorem isDeclaratorChar_of_isHead {head : Text} (h : isHead head = true) :
    ∀ c ∈ head, isDeclaratorChar c = true := by
  unfold isHead at h
  split at h
  · rw [Bool.and_eq_true, List.all_eq_true] at h
    exact h.2
  · cases h

/-- The reader splits off a head, and parameters in parentheses. -/
theorem split?_parts {head parameters : Text} (hhead : isHead head = true)
    (hparameters : ∀ c ∈ parameters, isParameterChar c = true) (rest : Text) :
    split? (head ++ '(' :: (parameters ++ ')' :: rest)) =
      some (head ++ '(' :: (parameters ++ [')']), rest) := by
  have hdeclarator := isDeclaratorChar_of_isHead hhead
  have hopen : isDeclaratorChar '(' = false := by decide
  have hclose : isParameterChar ')' = false := by decide
  simp [split?, List.takeWhile_append_of_pos hdeclarator, List.dropWhile_append_of_pos hdeclarator,
    List.takeWhile_append_of_pos hparameters, List.dropWhile_append_of_pos hparameters, hopen,
    hclose, hhead]

theorem exists_parts_of_split? (h : split? t = some (signature, rest)) :
    ∃ head parameters, isHead head = true ∧ (∀ c ∈ parameters, isParameterChar c = true) ∧
      signature = head ++ '(' :: (parameters ++ [')']) := by
  unfold split? at h
  split at h
  · split at h
    · dsimp only at h
      split at h
      · next hhead =>
        cases h
        exact ⟨_, _, hhead, fun c hc => List.mem_takeWhile_imp hc, rfl⟩
      · cases h
    · cases h
  · cases h

theorem accepts_iff_split? : accepts t = true ↔ split? t = some (t, []) := by
  unfold accepts
  split
  · next signature h =>
    have same := split?_append h
    rw [List.append_nil] at same
    simp [h, same]
  · next h =>
    constructor
    · intro h'; cases h'
    · intro h'; exact absurd h' (h t)

/-- A signature is a head followed by parameters in parentheses. -/
theorem accepts_iff : accepts t = true ↔
    ∃ head parameters, isHead head = true ∧ (∀ c ∈ parameters, isParameterChar c = true) ∧
      t = head ++ '(' :: (parameters ++ [')']) := by
  rw [accepts_iff_split?]
  constructor
  · exact exists_parts_of_split?
  · rintro ⟨head, parameters, hhead, hparameters, rfl⟩
    exact split?_parts hhead hparameters []

/-- What is split off is a signature, and every signature at the front is split off. -/
theorem split?_eq_some_iff :
    split? t = some (signature, rest) ↔ accepts signature = true ∧ t = signature ++ rest := by
  constructor
  · intro h
    exact ⟨accepts_iff.2 (exists_parts_of_split? h), (split?_append h).symm⟩
  · rintro ⟨haccepts, rfl⟩
    obtain ⟨head, parameters, hhead, hparameters, rfl⟩ := accepts_iff.1 haccepts
    simpa using split?_parts hhead hparameters rest

/-- A definition is a signature, blanks and an opening brace. -/
theorem definition?_eq_some_iff :
    definition? t = some (signature, body) ↔
      ∃ blanks, accepts signature = true ∧ (∀ c ∈ blanks, isBlank c = true) ∧
        t = signature ++ (blanks ++ '{' :: body) := by
  have hbrace : isBlank '{' = false := by decide
  constructor
  · intro h
    unfold definition? at h
    split at h
    · cases h
    · next found rest hsplit =>
      split at h
      · next after hafter =>
        cases h
        obtain ⟨haccepts, rfl⟩ := split?_eq_some_iff.1 hsplit
        refine ⟨rest.takeWhile isBlank, haccepts, fun c hc => List.mem_takeWhile_imp hc, ?_⟩
        rw [← hafter, List.takeWhile_append_dropWhile]
      · cases h
  · rintro ⟨blanks, haccepts, hblanks, rfl⟩
    have hsplit : split? (signature ++ (blanks ++ '{' :: body)) =
        some (signature, blanks ++ '{' :: body) := split?_eq_some_iff.2 ⟨haccepts, rfl⟩
    simp [definition?, hsplit, List.dropWhile_append_of_pos hblanks, hbrace]

/-! ### No brace and no trailing blank inside a signature -/

/-- A signature has parameter characters and parentheses only. -/
theorem isParameterChar_of_accepts (h : accepts t = true) :
    ∀ c ∈ t, isParameterChar c = true ∨ c = '(' ∨ c = ')' := by
  obtain ⟨head, parameters, hhead, hparameters, rfl⟩ := accepts_iff.1 h
  intro c hc
  simp only [List.mem_append, List.mem_cons, List.not_mem_nil, or_false] at hc
  rcases hc with hc | rfl | hc | rfl
  · exact Or.inl (by simp [isParameterChar, isDeclaratorChar_of_isHead hhead c hc])
  · exact Or.inr (Or.inl rfl)
  · exact Or.inl (hparameters c hc)
  · exact Or.inr (Or.inr rfl)

theorem isBrace_eq_false_of_accepts (h : accepts t = true) : ∀ c ∈ t, isBrace c = false := by
  intro c hc
  rcases isParameterChar_of_accepts h c hc with hc | rfl | rfl
  · exact Text.isBrace_eq_false (by decide) (by decide) hc
  · decide
  · decide

/-- There is no brace between the start of a definition and its opening brace. -/
theorem isBrace_eq_false_of_accepts_append {blanks : Text} (h : accepts t = true)
    (hblanks : ∀ c ∈ blanks, isBlank c = true) : ∀ c ∈ t ++ blanks, isBrace c = false := by
  intro c hc
  rcases List.mem_append.1 hc with hc | hc
  · exact isBrace_eq_false_of_accepts h c hc
  · exact Text.isBrace_eq_false (by decide) (by decide) (hblanks c hc)

theorem trimEnd_append_of_accepts (s : Text) (h : accepts t = true) :
    trimEnd (s ++ t) = s ++ t := by
  obtain ⟨head, parameters, -, -, rfl⟩ := accepts_iff.1 h
  have hclose : isBlank ')' = false := by decide
  simp [trimEnd, hclose]

/-! ### The longest signature at the end of a text -/

/-- The longest signature that ends where the text ends. -/
def longestSignature? (t : Text) : Option Text :=
  t.tails.find? accepts

theorem longestSignature?_cons_of_accepts {c : Char} (h : accepts (c :: t) = true) :
    longestSignature? (c :: t) = some (c :: t) := by
  rw [longestSignature?, List.tails_cons, List.find?_cons_of_pos h]

theorem longestSignature?_cons_of_not_accepts {c : Char} (h : ¬ accepts (c :: t) = true) :
    longestSignature? (c :: t) = longestSignature? t := by
  rw [longestSignature?, List.tails_cons, List.find?_cons_of_neg h, longestSignature?]

theorem longestSignature?_nil : longestSignature? [] = none := rfl

/-- The longest signature at the end is a suffix that is accepted and as long as any other. -/
theorem longestSignature?_eq_some_iff : longestSignature? t = some signature ↔
    signature <:+ t ∧ accepts signature = true ∧
      ∀ other, other <:+ t → accepts other = true → other.length ≤ signature.length := by
  induction t with
  | nil =>
    rw [longestSignature?_nil]
    constructor
    · intro h; cases h
    · rintro ⟨hsuffix, haccepts, -⟩
      rw [List.suffix_nil.1 hsuffix] at haccepts
      cases haccepts
  | cons c t ih =>
    by_cases hc : accepts (c :: t) = true
    · rw [longestSignature?_cons_of_accepts hc, Option.some.injEq]
      constructor
      · rintro rfl
        exact ⟨List.suffix_rfl, hc, fun other hother _ => hother.length_le⟩
      · rintro ⟨hsuffix, -, hlongest⟩
        exact (hsuffix.eq_of_length_le (hlongest _ List.suffix_rfl hc)).symm
    · have hproper : ∀ s, accepts s = true → (s <:+ c :: t ↔ s <:+ t) := by
        intro s hs
        rw [List.suffix_cons_iff, or_iff_right]
        rintro rfl
        exact hc hs
      rw [longestSignature?_cons_of_not_accepts hc, ih]
      constructor
      · rintro ⟨hsuffix, haccepts, hlongest⟩
        exact ⟨(hproper _ haccepts).2 hsuffix, haccepts,
          fun other hother h => hlongest other ((hproper _ h).1 hother) h⟩
      · rintro ⟨hsuffix, haccepts, hlongest⟩
        exact ⟨(hproper _ haccepts).1 hsuffix, haccepts,
          fun other hother h => hlongest other ((hproper _ h).2 hother) h⟩

/-- A signature that ends where the text ends is part of the longest one. -/
theorem suffix_longestSignature? (hsuffix : signature <:+ t) (haccepts : accepts signature = true) :
    ∃ longest, longestSignature? t = some longest ∧ signature <:+ longest := by
  cases h : longestSignature? t with
  | none =>
    have htail : signature ∈ t.tails := (List.mem_tails _ _).2 hsuffix
    exact absurd haccepts (List.find?_eq_none.1 h signature htail)
  | some longest =>
    obtain ⟨hlongest, -, hlength⟩ := longestSignature?_eq_some_iff.1 h
    exact ⟨longest, rfl,
      List.suffix_of_suffix_length_le hsuffix hlongest (hlength _ hsuffix haccepts)⟩

/-! ### Definitions from brace to brace -/

theorem definitions_of_definition? (h : definition? t = some (signature, body)) :
    definitions t = signature :: definitions body := by
  cases t with
  | nil => simp [definition?, split?] at h
  | cons c cs =>
    rw [definitions]
    split
    · next h' => rw [h] at h'; cases h'; rfl
    · next h' => rw [h] at h'; cases h'

theorem definitions_cons_of_definition?_eq_none {c : Char} {cs : Text}
    (h : definition? (c :: cs) = none) : definitions (c :: cs) = definitions cs := by
  rw [definitions]
  split
  · next h' => rw [h] at h'; cases h'
  · rfl

section Pieces

variable {piece : Text} {b : Char} (hpiece : ∀ c ∈ piece, isBrace c = false)
include hpiece

theorem takeWhile_piece (hb : isBrace b = true) (rest : Text) :
    (piece ++ b :: rest).takeWhile (!isBrace ·) = piece := by
  have hpiece' : ∀ c ∈ piece, (!isBrace c) = true := by simpa using hpiece
  simp [List.takeWhile_append_of_pos hpiece', hb]

/-- A definition in front of a text reaches up to the first brace of the text. -/
theorem definition?_piece (hb : isBrace b = true) (rest : Text) :
    definition? (piece ++ b :: rest) =
      if b = '{' ∧ accepts (trimEnd piece) = true then some (trimEnd piece, rest)
      else none := by
  split
  · next h =>
    obtain ⟨rfl, haccepts⟩ := h
    obtain ⟨blanks, hblanks, hend⟩ := Text.exists_blanks_of_trimEnd piece
    refine definition?_eq_some_iff.2 ⟨blanks, haccepts, hblanks, ?_⟩
    rw [← List.append_assoc, ← hend]
  · next h =>
    rw [Option.eq_none_iff_forall_ne_some]
    rintro ⟨signature, body⟩ hsome
    obtain ⟨blanks, haccepts, hblanks, heq⟩ := definition?_eq_some_iff.1 hsome
    have hfree := isBrace_eq_false_of_accepts_append haccepts hblanks
    rw [← List.append_assoc] at heq
    -- Both sides are cut at their first brace.
    have hsame : piece = signature ++ blanks := by
      rw [← takeWhile_piece hpiece hb rest, heq, takeWhile_piece hfree (by decide)]
    subst hsame
    refine h ⟨(List.cons.inj (List.append_cancel_left heq)).1, ?_⟩
    rwa [Text.trimEnd_append_blanks _ hblanks, ← List.nil_append signature,
      trimEnd_append_of_accepts [] haccepts]

/-- Up to an opening brace there is one definition at most, the longest one that ends there. -/
theorem definitions_append_opening (rest : Text) :
    definitions (piece ++ '{' :: rest) =
      (longestSignature? (trimEnd piece)).toList ++ definitions rest := by
  induction piece with
  | nil =>
    have hnone := definition?_piece hpiece (b := '{') (by decide) rest
    exact definitions_cons_of_definition?_eq_none hnone
  | cons c cs ih =>
    have hfound := definition?_piece hpiece (b := '{') (by decide) rest
    by_cases haccepts : accepts (trimEnd (c :: cs)) = true
    · rw [if_pos ⟨rfl, haccepts⟩] at hfound
      rw [definitions_of_definition? hfound]
      rcases Text.trimEnd_cons c cs with hend | ⟨hend, -⟩
      · rw [hend] at haccepts ⊢
        rw [longestSignature?_cons_of_accepts haccepts]
        rfl
      · rw [hend] at haccepts; cases haccepts
    · rw [if_neg (fun h => haccepts h.2)] at hfound
      rw [List.cons_append] at hfound ⊢
      rw [definitions_cons_of_definition?_eq_none hfound,
        ih fun d hd => hpiece d (List.mem_cons_of_mem c hd)]
      -- The character that is passed over is one that the longest signature does not start with.
      rcases Text.trimEnd_cons c cs with hend | ⟨hend, hend'⟩
      · rw [hend] at haccepts ⊢
        rw [longestSignature?_cons_of_not_accepts haccepts]
      · rw [hend, hend']

/-- No definition ends at a closing brace. -/
theorem definitions_append_closing (rest : Text) :
    definitions (piece ++ '}' :: rest) = definitions rest := by
  induction piece with
  | nil =>
    have hnone := definition?_piece hpiece (b := '}') (by decide) rest
    exact definitions_cons_of_definition?_eq_none hnone
  | cons c cs ih =>
    have hnone := definition?_piece hpiece (b := '}') (by decide) rest
    rw [if_neg (by simp), List.cons_append] at hnone
    rw [List.cons_append, definitions_cons_of_definition?_eq_none hnone,
      ih fun d hd => hpiece d (List.mem_cons_of_mem c hd)]

/-- A text without braces has no definitions. -/
theorem definitions_eq_nil : definitions piece = [] := by
  induction piece with
  | nil => rw [definitions]
  | cons c cs ih =>
    have hnone : definition? (c :: cs) = none := by
      rw [Option.eq_none_iff_forall_ne_some]
      rintro ⟨signature, body⟩ hsome
      obtain ⟨blanks, -, -, heq⟩ := definition?_eq_some_iff.1 hsome
      exact absurd (hpiece '{' (by simp [heq])) (by decide)
    rw [definitions_cons_of_definition?_eq_none hnone,
      ih fun d hd => hpiece d (List.mem_cons_of_mem c hd)]

end Pieces

end SketchBuild.Signature
