import SketchBuild.Json.Reader

/-!
# Strings and numbers in JSON

Which texts spell which strings (`SpellsString`) and which are numbers (`IsNumber`), said without
the readers. The readers take such a text for what it is, whatever follows it
(`readString?_of_spells`, `readNumber?_of_isNumber`). Only a number could go on in what follows, so
all that is asked there is that it does not start with a part of a number (`Ends`).
-/

namespace SketchBuild.Json

variable {t u before after rest : Text}

/-! ### White space -/

/-- There is nothing but white space. -/
def IsSpace (t : Text) : Prop :=
  ∀ c ∈ t, isSpace c = true

instance (t : Text) : Decidable (IsSpace t) :=
  decidable_of_iff (t.all isSpace = true) List.all_eq_true

theorem isSpace_nil : IsSpace [] := by
  simp [IsSpace]

theorem isSpace_iff {c : Char} : isSpace c = true ↔ c = ' ' ∨ c = '\t' ∨ c = '\n' ∨ c = '\r' := by
  simp [isSpace, or_assoc]

theorem skipSpace_append (h : IsSpace before) (t : Text) : skipSpace (before ++ t) = skipSpace t :=
  List.dropWhile_append_of_pos h

theorem skipSpace_cons {c : Char} (h : isSpace c = false) (t : Text) :
    skipSpace (c :: t) = c :: t := by
  rw [skipSpace, List.dropWhile_cons_of_neg (by simp [h])]

theorem skipSpace_of_isSpace (h : IsSpace t) : skipSpace t = [] := by
  rw [← List.append_nil t, skipSpace_append h]
  rfl

/-! ### Strings -/

/-- The characters that have a letter of their own for an escape, each with the letter. -/
def letters : List (Char × Char) :=
  [('"', '"'), ('\\', '\\'), ('/', '/'), ('\x08', 'b'), ('\x0c', 'f'), ('\n', 'n'), ('\r', 'r'),
    ('\t', 't')]

/-- The text of one unit of a string. -/
inductive SpellsUnit : JsonUnit → Text → Prop
  | plain {c : Char} (hcontrol : 0x20 ≤ c.toNat) (hquote : c ≠ '"') (hescape : c ≠ '\\') :
      SpellsUnit (.char c) [c]
  | letter {c e : Char} (h : (c, e) ∈ letters) : SpellsUnit (.char c) ['\\', e]
  | code {x : Char} {a b c d : Char} (h : hexCode? a b c d = some x.toNat) :
      SpellsUnit (.char x) ['\\', 'u', a, b, c, d]
  | half {code : Nat} {a b c d : Char} (hcode : 0xD800 ≤ code ∧ code < 0xE000)
      (h : hexCode? a b c d = some code) : SpellsUnit (.half code) ['\\', 'u', a, b, c, d]

/-- The text of several units. -/
inductive SpellsUnits : JsonString → Text → Prop
  | nil : SpellsUnits [] []
  | cons {unit : JsonUnit} {units : JsonString} {t u : Text} (hunit : SpellsUnit unit t)
      (hunits : SpellsUnits units u) : SpellsUnits (unit :: units) (t ++ u)

/-- The text of a string with its quotes. Two halves of a pair make one character. -/
inductive SpellsString : JsonString → Text → Prop
  | quoted {units : JsonString} {t : Text} (h : SpellsUnits units t) :
      SpellsString (joinPairs units) ('"' :: t ++ ['"'])

theorem unitOfCode_toNat (c : Char) : unitOfCode c.toNat = .char c := by
  have hvalid : c.toNat < 0xD800 ∨ 0xDFFF < c.toNat ∧ c.toNat < 0x110000 := c.valid
  rw [unitOfCode, if_neg, Char.ofNat_toNat]
  simp only [isHighHalf, isLowHalf, Bool.or_eq_true, Bool.and_eq_true, decide_eq_true_eq]
  omega

theorem unitOfCode_half {code : Nat} (h : 0xD800 ≤ code ∧ code < 0xE000) :
    unitOfCode code = .half code := by
  rw [unitOfCode, if_pos]
  simp only [isHighHalf, isLowHalf, Bool.or_eq_true, Bool.and_eq_true, decide_eq_true_eq]
  omega

theorem readUnits?_code {a b c d : Char} {code : Nat} (h : hexCode? a b c d = some code)
    (rest : Text) :
    readUnits? ('\\' :: 'u' :: a :: b :: c :: d :: rest) =
      (readUnits? rest).map fun (units, rest) => (unitOfCode code :: units, rest) := by
  rw [readUnits?, h]
  cases readUnits? rest with
  | none => rfl
  | some => rfl

theorem shortEscape?_of_mem {c e : Char} (h : (c, e) ∈ letters) :
    shortEscape? e = some c ∧ e ≠ 'u' := by
  simp only [letters, List.mem_cons, Prod.mk.injEq, List.not_mem_nil, or_false] at h
  rcases h with ⟨rfl, rfl⟩ | ⟨rfl, rfl⟩ | ⟨rfl, rfl⟩ | ⟨rfl, rfl⟩ | ⟨rfl, rfl⟩ | ⟨rfl, rfl⟩ |
    ⟨rfl, rfl⟩ | ⟨rfl, rfl⟩
  all_goals exact ⟨rfl, by decide⟩

theorem readUnits?_unit {unit : JsonUnit} (h : SpellsUnit unit t) (rest : Text) :
    readUnits? (t ++ rest) =
      (readUnits? rest).map fun (units, rest) => (unit :: units, rest) := by
  cases h with
  | @plain c hcontrol hquote hescape =>
    have hplain : ¬ (decide (c.toNat < 0x20) || c == '\\') = true := by
      simpa using ⟨hcontrol, hescape⟩
    rw [List.singleton_append, readUnits?, if_neg hplain]
    · cases readUnits? rest with
      | none => rfl
      | some => rfl
    · exact hquote
    · exact fun _ _ _ _ _ h => absurd h hescape
    · exact fun _ _ h => absurd h hescape
  | @letter c e h =>
    obtain ⟨hshort, hne⟩ := shortEscape?_of_mem h
    show readUnits? ('\\' :: e :: rest) = _
    rw [readUnits?, hshort]
    · cases readUnits? rest with
      | none => rfl
      | some => rfl
    · exact fun _ _ _ _ _ h => absurd h hne
  | @code x _ _ _ _ h => rw [← unitOfCode_toNat x]; exact readUnits?_code h rest
  | half hcode h => rw [← unitOfCode_half hcode]; exact readUnits?_code h rest

theorem readUnits?_of_spells {units : JsonString} (h : SpellsUnits units t) (rest : Text) :
    readUnits? (t ++ '"' :: rest) = some (units, rest) := by
  induction h with
  | nil => rfl
  | cons hunit _ ih => rw [List.append_assoc, readUnits?_unit hunit, ih]; rfl

theorem readString?_of_spells {s : JsonString} (h : SpellsString s t) :
    ∃ u, t = '"' :: u ∧ ∀ rest, readString? (u ++ rest) = some (s, rest) := by
  cases h with
  | @quoted units t hunits =>
    refine ⟨t ++ ['"'], rfl, fun rest => ?_⟩
    rw [List.append_assoc, readString?, List.singleton_append, readUnits?_of_spells hunits]
    rfl

/-! ### Numbers -/

/-- One or more digits. -/
def IsDigits (t : Text) : Prop :=
  t ≠ [] ∧ ∀ c ∈ t, c.isDigit = true

/-- A whole number: without zeros at the front, except that zero is written with one. -/
inductive IsWhole : Text → Prop
  | zero : IsWhole ['0']
  | digits {t : Text} (h : IsDigits t) (hzero : t.head? ≠ some '0') : IsWhole t

/-- A fraction, or nothing. -/
inductive IsFraction : Text → Prop
  | none : IsFraction []
  | digits {t : Text} (h : IsDigits t) : IsFraction ('.' :: t)

/-- An exponent, or nothing. -/
inductive IsExponent : Text → Prop
  | none : IsExponent []
  | digits {e : Char} {sign t : Text} (he : e = 'e' ∨ e = 'E')
      (hsign : sign = [] ∨ sign = ['+'] ∨ sign = ['-']) (h : IsDigits t) :
      IsExponent (e :: (sign ++ t))

/-- A number without its sign. -/
inductive IsUnsigned : Text → Prop
  | parts {whole fraction exponent : Text} (hwhole : IsWhole whole) (hfraction : IsFraction fraction)
      (hexponent : IsExponent exponent) : IsUnsigned (whole ++ fraction ++ exponent)

/-- A number. -/
inductive IsNumber : Text → Prop
  | positive {t : Text} (h : IsUnsigned t) : IsNumber t
  | negative {t : Text} (h : IsUnsigned t) : IsNumber ('-' :: t)

/-- The rest is not a part of a number that stands before it. -/
def Ends (rest : Text) : Prop :=
  ∀ c ∈ rest.head?, c.isDigit = false ∧ c ≠ '.' ∧ c ≠ 'e' ∧ c ≠ 'E'

theorem readDigits?_of_isDigits (h : IsDigits t) (hrest : ∀ c ∈ rest.head?, c.isDigit = false) :
    readDigits? (t ++ rest) = some (t, rest) := by
  have hstop : rest.takeWhile Char.isDigit = [] ∧ rest.dropWhile Char.isDigit = rest := by
    cases rest with
    | nil => exact ⟨rfl, rfl⟩
    | cons c rest =>
      have hc : ¬ c.isDigit = true := by simp [hrest c rfl]
      exact ⟨List.takeWhile_cons_of_neg hc, List.dropWhile_cons_of_neg hc⟩
  rw [readDigits?, List.takeWhile_append_of_pos h.2, List.dropWhile_append_of_pos h.2, hstop.1,
    hstop.2, List.append_nil]
  obtain ⟨c, t, rfl⟩ := List.exists_cons_of_ne_nil h.1
  rfl

theorem readWhole?_of_isWhole (h : IsWhole t) (hrest : ∀ c ∈ rest.head?, c.isDigit = false) :
    readWhole? (t ++ rest) = some (t, rest) := by
  cases h with
  | zero => rfl
  | digits h hzero =>
    rw [readWhole?, readDigits?_of_isDigits h hrest]
    intro cs hcs
    obtain ⟨c, t, rfl⟩ := List.exists_cons_of_ne_nil h.1
    rw [List.cons_append] at hcs
    exact hzero (congrArg some (List.cons.inj hcs).1)

theorem readFraction?_of_isFraction (h : IsFraction t)
    (hrest : ∀ c ∈ rest.head?, c.isDigit = false ∧ c ≠ '.') :
    readFraction? (t ++ rest) = some (t, rest) := by
  cases h with
  | none =>
    rw [List.nil_append, readFraction?]
    rintro cs rfl
    exact (hrest '.' rfl).2 rfl
  | digits h =>
    rw [List.cons_append, readFraction?,
      readDigits?_of_isDigits h fun c hc => (hrest c hc).1]
    rfl

theorem exponentSign_append {sign : Text} (hsign : sign = [] ∨ sign = ['+'] ∨ sign = ['-'])
    (h : IsDigits t) (rest : Text) : exponentSign (sign ++ (t ++ rest)) = (sign, t ++ rest) := by
  rcases hsign with rfl | rfl | rfl
  · obtain ⟨c, t, rfl⟩ := List.exists_cons_of_ne_nil h.1
    have hc := h.2 c List.mem_cons_self
    rw [List.nil_append, exponentSign]
    · rintro cs hcs
      cases hcs
      cases hc
    · rintro cs hcs
      cases hcs
      cases hc
  · rfl
  · rfl

theorem readExponent?_of_isExponent (h : IsExponent t) (hrest : Ends rest) :
    readExponent? (t ++ rest) = some (t, rest) := by
  cases h with
  | none =>
    cases rest with
    | nil => rfl
    | cons c rest =>
      obtain ⟨-, -, hsmall, hlarge⟩ := hrest c rfl
      rw [List.nil_append, readExponent?, if_neg (by simp [hsmall, hlarge])]
  | @digits e sign t he hsign h =>
    rw [List.cons_append, readExponent?, if_pos he, List.append_assoc, exponentSign_append hsign h]
    dsimp only
    rw [readDigits?_of_isDigits h fun c hc => (hrest c hc).1]
    rfl

/-- An exponent, or what follows instead, goes on with neither a digit nor a fraction. -/
theorem IsExponent.head (h : IsExponent t) (hrest : Ends rest) :
    ∀ c ∈ (t ++ rest).head?, c.isDigit = false ∧ c ≠ '.' := by
  cases h with
  | none => exact fun c hc => ⟨(hrest c hc).1, (hrest c hc).2.1⟩
  | digits he =>
    rintro c hc
    cases hc
    rcases he with rfl | rfl
    · decide
    · decide

theorem IsFraction.head (h : IsFraction t) (hrest : ∀ c ∈ rest.head?, c.isDigit = false) :
    ∀ c ∈ (t ++ rest).head?, c.isDigit = false := by
  cases h with
  | none => exact hrest
  | digits =>
    rintro c hc
    cases hc
    rfl

theorem readUnsigned?_of_isUnsigned (h : IsUnsigned t) (hrest : Ends rest) :
    readUnsigned? (t ++ rest) = some (t, rest) := by
  cases h with
  | parts hwhole hfraction hexponent =>
    have hhead := hexponent.head hrest
    rw [List.append_assoc, List.append_assoc, readUnsigned?,
      readWhole?_of_isWhole hwhole (hfraction.head fun c hc => (hhead c hc).1)]
    simp only [bind, Option.bind, readFraction?_of_isFraction hfraction hhead,
      readExponent?_of_isExponent hexponent hrest]
    rfl

/-- The first character of a number. -/
theorem IsUnsigned.exists_digit (h : IsUnsigned t) : ∃ c u, t = c :: u ∧ c.isDigit = true := by
  cases h with
  | parts hwhole =>
    cases hwhole with
    | zero => exact ⟨'0', _, rfl, rfl⟩
    | digits h =>
      obtain ⟨c, t, rfl⟩ := List.exists_cons_of_ne_nil h.1
      exact ⟨c, _, rfl, h.2 c List.mem_cons_self⟩

/-- A number starts with a digit or with its sign. -/
theorem IsNumber.exists_cons (h : IsNumber t) :
    ∃ c u, t = c :: u ∧ (c = '-' ∨ c.isDigit = true) := by
  cases h with
  | positive h =>
    obtain ⟨c, u, rfl, hc⟩ := h.exists_digit
    exact ⟨c, u, rfl, .inr hc⟩
  | @negative t h => exact ⟨'-', t, rfl, .inl rfl⟩

theorem readNumber?_of_isNumber (h : IsNumber t) (hrest : Ends rest) :
    readNumber? (t ++ rest) = some (t, rest) := by
  cases h with
  | positive h =>
    rw [readNumber?, readUnsigned?_of_isUnsigned h hrest]
    intro cs hcs
    obtain ⟨c, u, rfl, hc⟩ := h.exists_digit
    cases hcs
    cases hc
  | negative h =>
    rw [List.cons_append, readNumber?, readUnsigned?_of_isUnsigned h hrest]
    rfl

end SketchBuild.Json
