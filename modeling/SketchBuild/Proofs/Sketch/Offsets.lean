import Mathlib.Data.PFun
import SketchBuild.Proofs.Sketch.Tokenisation

/-!
# Scanning by offsets

The readers of regions take a text apart from the front. The same can be done in place: on an array
of characters, by loops that move an offset on and read the character that stands there. Such a loop
may read behind the end of the array, and it may never stop. A `Run` that goes wrong in one of these
ways has no result, so to have one is to have stayed inside the array and to have come to an end.

* `tokenAt?`: the token at an offset, if one starts there, with the offset at which it stops.
* `spans`, `redact`: the spans of all regions, and the text without its tokens.
* `rest` turns an offset back into a text, and each loop is shown to stop where the reader of texts
  does.
* `scans_in_bounds`: none of this ever fails, and every token stops behind its start and inside the
  array.
-/

namespace SketchBuild.Region.Offset

/-! ### Runs -/

/-- A computation that may have no result: because of a read or a cut outside of an array, or
because it goes on for ever. -/
abbrev Run (α : Type) := Part α

/-- Repeats a step as long as it gives the state to go on from, until it gives a result. -/
def repeated {σ α : Type} (step : σ → Run (α ⊕ σ)) : σ → Run α :=
  PFun.fix step

section Repeated

variable {σ α : Type} {step : σ → Run (α ⊕ σ)} {s s' : σ} {a : α}

theorem repeated_of_inl (h : step s = Part.some (.inl a)) : repeated step s = Part.some a := by
  rw [Part.eq_some_iff] at h ⊢
  exact PFun.fix_stop h

theorem repeated_of_inr (h : step s = Part.some (.inr s')) :
    repeated step s = repeated step s' := by
  rw [Part.eq_some_iff] at h
  exact PFun.fix_fwd_eq h

end Repeated

/-- The character at an offset, which has to be one of the array. -/
def read (chars : Array Char) (j : Nat) : Run Char :=
  Part.ofOption chars[j]?

/-- The characters between two offsets, which have to be in order and in the array. -/
def slice (chars : Array Char) (start stop : Nat) : Run Text :=
  if start ≤ stop ∧ stop ≤ chars.size then return (chars.extract start stop).toList else Part.none

/-! ### Loops on an array

Where a loop looks at a character that may be missing, it asks for `chars[j]?` and goes on either
way. Where it takes the character to be there, it uses `read`. -/

/-- One step to the first offset at which a test fails. -/
def passStep (p : Char → Bool) (chars : Array Char) (j : Nat) : Run (Nat ⊕ Nat) :=
  if j < chars.size then do
    let c ← read chars j
    return if p c then .inr (j + 1) else .inl j
  else return .inl j

/-- The first offset at which a test fails, or else the end. -/
def passWhile (p : Char → Bool) (chars : Array Char) : Nat → Run Nat :=
  repeated (passStep p chars)

/-- One step to the next newline. It does not look out for the end. -/
def newlineStep (chars : Array Char) (j : Nat) : Run (Nat ⊕ Nat) := do
  let c ← read chars j
  return if c = '\n' then .inl j else .inr (j + 1)

/-- The offset of the next newline. -/
def newlineFrom (chars : Array Char) : Nat → Run Nat :=
  repeated (newlineStep chars)

/-- A newline stands at the offset, or a carriage return and a newline. -/
def breaksAt (chars : Array Char) (j : Nat) : Bool :=
  match chars[j]? with
  | some '\n' => true
  | some '\r' => chars[j + 1]? == some '\n'
  | _ => false

/-- One step to the end of a logical line. From a backslash that continues the line it goes straight
behind the newline. -/
def lineStep (chars : Array Char) (j : Nat) : Run (Nat ⊕ Nat) :=
  if j < chars.size then do
    let c ← read chars j
    if c = '\n' then return .inl j
    else if c = '\\' ∧ breaksAt chars (j + 1) = true then return .inr ((← newlineFrom chars j) + 1)
    else return .inr (j + 1)
  else return .inl j

/-- The end of a logical line. -/
def lineStop (chars : Array Char) : Nat → Run Nat :=
  repeated (lineStep chars)

/-- The end of white space, a hash sign and the rest of the logical line, if they stand at the
offset. -/
def hashStop? (chars : Array Char) (i : Nat) : Run (Option Nat) := do
  let j ← passWhile isInnerBlank chars i
  if chars[j]? = some '#' then return some (← lineStop chars j) else return none

/-- A line starts at the offset. -/
def startsLineAt (chars : Array Char) (i : Nat) : Run Bool :=
  if i = 0 then return true else return (← read chars (i - 1)) = '\n'

/-- The end of the directive at an offset, if one starts there. -/
def directiveStop? (chars : Array Char) (i : Nat) : Run (Option Nat) := do
  if ← startsLineAt chars i then hashStop? chars i else return none

/-- One step to the end of a character literal. A backslash moves the offset on by two. -/
def charStep (chars : Array Char) (j : Nat) : Run (Option Nat ⊕ Nat) :=
  match chars[j]? with
  | none => return .inl none
  | some c =>
    if c = '\n' then return .inl none
    else if c = '\\' then
      if chars[j + 1]? = none ∨ chars[j + 1]? = some '\n' then return .inl none
      else return .inr (j + 2)
    else if c = '\'' then return .inl (some (j + 1))
    else return .inr (j + 1)

/-- The end of a character literal from behind its opening quote on, if it is closed. -/
def charStop? (chars : Array Char) : Nat → Run (Option Nat) :=
  repeated (charStep chars)

/-- One step to the end of a string literal. A backslash moves the offset on by two, from the last
character even past the end. -/
def stringStep (chars : Array Char) (j : Nat) : Run (Nat ⊕ Nat) :=
  if j < chars.size then do
    let c ← read chars j
    return if c = '"' then .inl (j + 1) else if c = '\\' then .inr (j + 2) else .inr (j + 1)
  else return .inl chars.size

/-- The end of a string literal from behind its opening quote on. -/
def stringStop (chars : Array Char) : Nat → Run Nat :=
  repeated (stringStep chars)

/-- A star and a slash stand at the offset. -/
def closesAt (chars : Array Char) (j : Nat) : Run Bool := do
  let c ← read chars j
  if c = '*' then return (← read chars (j + 1)) = '/' else return false

/-- One step to the end of a block comment. -/
def blockStep (chars : Array Char) (j : Nat) : Run (Nat ⊕ Nat) :=
  if j + 1 < chars.size then do
    let closes ← closesAt chars j
    return if closes then .inl (j + 2) else .inr (j + 1)
  else return .inl chars.size

/-- The end of a block comment from behind its opening on. -/
def blockStop (chars : Array Char) : Nat → Run Nat :=
  repeated (blockStep chars)

/-- The literal or comment at an offset, by its kind and its end. -/
def literalOrCommentAt? (chars : Array Char) (i : Nat) : Run (Option (Kind × Nat)) := do
  match ← read chars i, chars[i + 1]? with
  | '\'', _ => return (← charStop? chars (i + 1)).map (Kind.charLiteral, ·)
  | '"', _ => return some (.stringLiteral, ← stringStop chars (i + 1))
  | '/', some '/' => return some (.lineComment, ← passWhile (· != '\n') chars (i + 2))
  | '/', some '*' => return some (.blockComment, ← blockStop chars (i + 2))
  | _, _ => return none

/-- The token at an offset, by its kind and its end. -/
def tokenAt? (chars : Array Char) (i : Nat) : Run (Option (Kind × Nat)) := do
  match ← directiveStop? chars i with
  | some stop => return some (.directive, stop)
  | none => literalOrCommentAt? chars i

/-- How far a scan has come: the spans found, the start of the code that is not among them yet, and
the next offset. -/
structure Progress where
  found : List Span
  codeStart : Nat
  next : Nat

/-- The code between two offsets, if there is any. -/
def codeSpan (start stop : Nat) : List Span :=
  if start < stop then [⟨.code, start, stop⟩] else []

/-- One step of a scan: past a token or past a character of code. -/
def scanStep (chars : Array Char) (s : Progress) : Run (List Span ⊕ Progress) :=
  if s.next < chars.size then do
    match ← tokenAt? chars s.next with
    | none => return .inr { s with next := s.next + 1 }
    | some (kind, stop) =>
      return .inr ⟨s.found ++ codeSpan s.codeStart s.next ++ [⟨kind, s.next, stop⟩], stop, stop⟩
  else return .inl (s.found ++ codeSpan s.codeStart chars.size)

/-- The spans of all regions. -/
def spans (chars : Array Char) : Run (List Span) :=
  repeated (scanStep chars) ⟨[], 0, 0⟩

/-- The text of a span of code, or one space. -/
def redacted (chars : Array Char) (span : Span) : Run Text :=
  if span.kind = .code then slice chars span.start span.stop else return [' ']

/-- The characters of code, with one space in place of every token. -/
def redact (chars : Array Char) : Run Text := do
  let pieces ← (← spans chars).mapM (redacted chars)
  return pieces.flatten

/-! ### From offsets to texts -/

variable {chars : Array Char} {i j : Nat} {c : Char} {t : Text}

/-- The text from an offset on. -/
def rest (chars : Array Char) (j : Nat) : Text :=
  chars.toList.drop j

theorem rest_eq_nil_iff : rest chars j = [] ↔ chars.size ≤ j := by
  rw [rest, List.drop_eq_nil_iff, Array.length_toList]

theorem getElem?_eq_head?_rest : chars[j]? = (rest chars j).head? := by
  rw [rest, List.head?_drop, Array.getElem?_toList]

theorem rest_add (n : Nat) : rest chars (j + n) = (rest chars j).drop n := by
  rw [rest, rest, List.drop_drop]

theorem rest_add_length {front back : Text} (h : rest chars j = front ++ back) :
    rest chars (j + front.length) = back := by
  rw [rest_add, h, List.drop_left]

theorem add_length_rest (hj : j ≤ chars.size) : j + (rest chars j).length = chars.size := by
  rw [rest, List.length_drop, Array.length_toList]
  omega

section Front

variable (h : rest chars j = c :: t)
include h

theorem lt_size_of_rest : j < chars.size := by
  rw [← not_le, ← rest_eq_nil_iff, h]
  simp

theorem getElem?_of_rest : chars[j]? = some c := by
  rw [getElem?_eq_head?_rest, h]
  rfl

theorem read_of_rest : read chars j = Part.some c := by
  rw [read, getElem?_of_rest h]
  rfl

theorem read_bind_of_rest {α : Type} (next : Char → Run α) : read chars j >>= next = next c := by
  rw [read_of_rest h, Part.bind_eq_bind, Part.bind_some]

theorem rest_succ : rest chars (j + 1) = t := by
  rw [rest_add, h]
  rfl

/-- A read behind a look out for the end. -/
theorem guarded_read {α : Type} (next : Char → Run α) (other : Run α) :
    (if j < chars.size then read chars j >>= next else other) = next c := by
  rw [if_pos (lt_size_of_rest h), read_bind_of_rest h]

end Front

theorem guarded_end {α : Type} (h : rest chars j = []) (next other : Run α) :
    (if j < chars.size then next else other) = other :=
  if_neg (not_lt.2 (rest_eq_nil_iff.1 h))

theorem exists_rest_eq_cons (h : j < chars.size) : ∃ c t, rest chars j = c :: t := by
  apply List.exists_cons_of_ne_nil
  rw [ne_eq, rest_eq_nil_iff]
  omega

/-- The offset behind the first part of a split, when the split text starts at `j`. -/
def stopOf (j : Nat) (split : Text × Text) : Nat :=
  j + split.1.length

theorem stopOf_prepend (j : Nat) (opening : Text) (split : Text × Text) :
    stopOf j (prepend opening split) = stopOf (j + opening.length) split := by
  rw [stopOf, stopOf, prepend_fst, List.length_append, Nat.add_assoc]

theorem stopOf_comp_prepend (j : Nat) (opening : Text) :
    stopOf j ∘ prepend opening = stopOf (j + opening.length) :=
  funext (stopOf_prepend j opening)

/-- The first part of a split of the text from `j` on stops inside the array. -/
theorem stopOf_le (hj : j ≤ chars.size) {split : Text × Text}
    (h : split.1 ++ split.2 = rest chars j) : stopOf j split ≤ chars.size := by
  have hlength := congrArg List.length h
  have hsize := add_length_rest hj
  rw [List.length_append] at hlength
  rw [stopOf]
  omega

/-! ### Where the loops stop

Each induction follows the reader of texts, and the loop makes the same move. -/

theorem passWhile_eq (p : Char → Bool) (h : rest chars j = t) :
    passWhile p chars j = Part.some (j + (t.takeWhile p).length) := by
  induction t generalizing j with
  | nil => exact repeated_of_inl (guarded_end h _ _)
  | cons c cs ih =>
    have hstep : passStep p chars j = Part.some (if p c then .inr (j + 1) else .inl j) :=
      guarded_read h _ _
    by_cases hc : p c = true
    · rw [if_pos hc] at hstep
      rw [passWhile, repeated_of_inr hstep, List.takeWhile_cons_of_pos hc, List.length_cons,
        ← Nat.add_assoc, Nat.add_right_comm]
      exact ih (rest_succ h)
    · rw [if_neg hc] at hstep
      rw [passWhile, repeated_of_inl hstep, List.takeWhile_cons_of_neg hc]
      rfl

/-- The loop without a guard stops at the first newline, if there is one. -/
theorem newlineFrom_eq (inner : Text) (hinner : '\n' ∉ inner)
    (h : rest chars j = inner ++ '\n' :: t) :
    newlineFrom chars j = Part.some (j + inner.length) := by
  induction inner generalizing j with
  | nil => exact repeated_of_inl (read_bind_of_rest h _)
  | cons c cs ih =>
    rw [List.mem_cons, not_or] at hinner
    have hstep : newlineStep chars j = Part.some (.inr (j + 1)) := by
      rw [newlineStep, read_bind_of_rest h, if_neg (Ne.symm hinner.1)]
      rfl
    rw [newlineFrom, repeated_of_inr hstep, List.length_cons, ← Nat.add_assoc, Nat.add_right_comm]
    exact ih hinner.2 (rest_succ h)

theorem breaksAt_iff : breaksAt chars j = true ↔
    (∃ t, rest chars j = '\n' :: t) ∨ ∃ t, rest chars j = '\r' :: '\n' :: t := by
  rw [breaksAt, getElem?_eq_head?_rest, getElem?_eq_head?_rest, rest_add]
  cases rest chars j with
  | nil => simp
  | cons c cs =>
    split
    · next hc => simp_all
    · next hc => cases cs <;> simp_all
    · next hnewline hreturn => simp_all

/-- From a backslash that continues a line, a step goes behind the newline. -/
theorem lineStep_of_breaksAt {k : Nat} (h : rest chars j = '\\' :: t)
    (hbreak : breaksAt chars (j + 1) = true) (hnewline : newlineFrom chars j = Part.some k) :
    lineStep chars j = Part.some (.inr (k + 1)) := by
  rw [lineStep, guarded_read h, if_neg (by decide), if_pos ⟨rfl, hbreak⟩, hnewline,
    Part.bind_eq_bind, Part.bind_some]
  rfl

theorem lineStop_eq (h : rest chars j = t) :
    lineStop chars j = Part.some (stopOf j (logicalLine t)) := by
  fun_induction logicalLine t generalizing j with
  | case1 => exact repeated_of_inl (guarded_end h _ _)
  | case2 cs ih =>
    have hstep := lineStep_of_breaksAt h (breaksAt_iff.2 (Or.inl ⟨cs, rest_succ h⟩))
      (newlineFrom_eq ['\\'] (by decide) h)
    rw [lineStop, repeated_of_inr hstep, stopOf_prepend]
    exact ih (rest_succ (rest_succ h))
  | case3 cs ih =>
    have hstep := lineStep_of_breaksAt h (breaksAt_iff.2 (Or.inr ⟨cs, rest_succ h⟩))
      (newlineFrom_eq ['\\', '\r'] (by decide) h)
    rw [lineStop, repeated_of_inr hstep, stopOf_prepend]
    exact ih (rest_succ (rest_succ (rest_succ h)))
  | case4 cs => exact repeated_of_inl (guarded_read h _ _)
  | case5 c cs hpair htriple hnewline ih =>
    have hbreak : ¬ (c = '\\' ∧ breaksAt chars (j + 1) = true) := by
      rintro ⟨hc, hbreak⟩
      rw [breaksAt_iff, rest_succ h] at hbreak
      rcases hbreak with ⟨u, hu⟩ | ⟨u, hu⟩
      · exact hpair u hc hu
      · exact htriple u hc hu
    have hstep : lineStep chars j = Part.some (.inr (j + 1)) := by
      rw [lineStep, guarded_read h, if_neg hnewline, if_neg hbreak]
      rfl
    rw [lineStop, repeated_of_inr hstep, stopOf_prepend]
    exact ih (rest_succ h)

theorem charStop?_eq (h : rest chars j = t) :
    charStop? chars j = Part.some ((charTail? t).map (stopOf j)) := by
  fun_induction charTail? t generalizing j with
  | case1 =>
    apply repeated_of_inl
    rw [charStep, getElem?_eq_head?_rest, h]
    rfl
  | case2 cs =>
    apply repeated_of_inl
    rw [charStep, getElem?_of_rest h]
    rfl
  | case3 cs =>
    apply repeated_of_inl
    rw [charStep, getElem?_of_rest h]
    rfl
  | case4 =>
    apply repeated_of_inl
    rw [charStep, getElem?_of_rest h, getElem?_eq_head?_rest, rest_succ h]
    rfl
  | case5 cs =>
    apply repeated_of_inl
    rw [charStep, getElem?_of_rest h, getElem?_of_rest (rest_succ h)]
    rfl
  | case6 c cs hnewline ih =>
    have hgoes : ¬ (some c = none ∨ some c = some '\n') := by simpa using hnewline
    have hstep : charStep chars j = Part.some (.inr (j + 2)) := by
      rw [charStep, getElem?_of_rest h, getElem?_of_rest (rest_succ h), if_neg hgoes]
      rfl
    rw [charStop?, repeated_of_inr hstep, Option.map_map, stopOf_comp_prepend]
    exact ih (rest_succ (rest_succ h))
  | case7 c cs hnewline hquote hlone hbreak hpair ih =>
    have hbackslash := ne_backslash hlone hpair
    have hstep : charStep chars j = Part.some (.inr (j + 1)) := by
      rw [charStep, getElem?_of_rest h]
      simp only [if_neg hnewline, if_neg hquote, if_neg hbackslash]
      rfl
    rw [charStop?, repeated_of_inr hstep, Option.map_map, stopOf_comp_prepend]
    exact ih (rest_succ h)

theorem stringStop_of_size_le (h : chars.size ≤ j) : stringStop chars j = Part.some chars.size :=
  repeated_of_inl (if_neg (not_lt.2 h))

theorem stringStep_of_rest (h : rest chars j = c :: t) :
    stringStep chars j =
      Part.some (if c = '"' then .inl (j + 1) else if c = '\\' then .inr (j + 2)
        else .inr (j + 1)) :=
  guarded_read h _ _

/-- Wherever the loop is started, it stops at the end at the latest. -/
theorem stringStop_eq (h : rest chars j = t) :
    stringStop chars j = Part.some (min (stopOf j (stringTail t)) chars.size) := by
  fun_induction stringTail t generalizing j with
  | case1 =>
    have hend := rest_eq_nil_iff.1 h
    rw [stringStop_of_size_le hend, min_eq_right]
    exact hend
  | case2 cs =>
    rw [stringStop, repeated_of_inl (stringStep_of_rest h), min_eq_left]
    · rfl
    · exact lt_size_of_rest h
  | case3 c cs ih =>
    rw [stringStop, repeated_of_inr (stringStep_of_rest h), stopOf_prepend]
    exact ih (rest_succ (rest_succ h))
  | case4 c cs hquote hpair ih =>
    have hstep := stringStep_of_rest h
    rw [if_neg hquote] at hstep
    rw [stopOf_prepend]
    by_cases hc : c = '\\'
    · -- A lone backslash is the last character, and the loop goes on one offset behind the end.
      obtain rfl : cs = [] := by
        cases cs with
        | nil => rfl
        | cons d ds => exact (hpair d ds hc rfl).elim
      have hend := rest_eq_nil_iff.1 (rest_succ h)
      rw [if_pos hc] at hstep
      rw [stringStop, repeated_of_inr hstep, ← stringStop, stringStop_of_size_le (by omega),
        min_eq_right]
      exact hend
    · rw [if_neg hc] at hstep
      rw [stringStop, repeated_of_inr hstep]
      exact ih (rest_succ h)

theorem blockStop_of_size_le (h : chars.size ≤ j + 1) :
    blockStop chars j = Part.some chars.size :=
  repeated_of_inl (if_neg (not_lt.2 h))

theorem blockStep_of_rest {d : Char} (h : rest chars j = c :: d :: t) :
    blockStep chars j = Part.some (if c = '*' ∧ d = '/' then .inl (j + 2) else .inr (j + 1)) := by
  have hcloses : closesAt chars j = Part.some (decide (c = '*' ∧ d = '/')) := by
    rw [closesAt, read_bind_of_rest h, read_bind_of_rest (rest_succ h)]
    by_cases hc : c = '*' <;> simp [hc]
  rw [blockStep, if_pos (lt_size_of_rest (rest_succ h)), hcloses, Part.bind_eq_bind, Part.bind_some]
  simp

theorem blockStop_eq (h : rest chars j = t) :
    blockStop chars j = Part.some (min (stopOf j (blockTail t)) chars.size) := by
  fun_induction blockTail t generalizing j with
  | case1 =>
    have hend := rest_eq_nil_iff.1 h
    rw [blockStop_of_size_le (by omega), min_eq_right]
    exact hend
  | case2 cs =>
    rw [blockStop, repeated_of_inl (blockStep_of_rest h), min_eq_left]
    · rfl
    · exact lt_size_of_rest (rest_succ h)
  | case3 c cs hstar ih =>
    rw [stopOf_prepend]
    cases cs with
    | nil =>
      have hend := rest_eq_nil_iff.1 (rest_succ h)
      rw [blockStop_of_size_le hend, min_eq_right]
      exact hend
    | cons d ds =>
      have hopen : ¬ (c = '*' ∧ d = '/') := by
        rintro ⟨hc, rfl⟩
        exact hstar ds hc rfl
      have hstep := blockStep_of_rest h
      rw [if_neg hopen] at hstep
      rw [blockStop, repeated_of_inr hstep]
      exact ih (rest_succ h)

/-! ### Tokens -/

theorem hashStop?_eq (i : Nat) :
    hashStop? chars i = Part.some ((directive? (rest chars i)).map (stopOf i)) := by
  -- Behind the white space is what is left without it.
  have hrest := rest_add_length (List.takeWhile_append_dropWhile (p := isInnerBlank)
    (l := rest chars i)).symm
  rw [hashStop?, passWhile_eq isInnerBlank rfl, directive?, Part.bind_eq_bind, Part.bind_some]
  split
  · next hhash =>
    rw [getElem?_eq_head?_rest, hrest, List.head?_eq_some_iff] at hhash
    obtain ⟨cs, hcs⟩ := hhash
    rw [hcs] at hrest ⊢
    rw [lineStop_eq hrest, Part.bind_eq_bind, Part.bind_some]
    exact congrArg (Part.some ∘ some) (stopOf_prepend i _ _).symm
  · next hno =>
    split
    · next cs hcs =>
      rw [hcs] at hrest
      exact absurd (getElem?_of_rest hrest) hno
    · rfl

/-- The kind of a region and the offset behind it, when it starts at `i`. -/
def placed (i : Nat) (found : Region × Text) : Kind × Nat :=
  (found.1.kind, i + found.1.text.length)

theorem placed_ofSplit (i : Nat) (kind : Kind) (opening : Text) (split : Text × Text) :
    placed i (ofSplit kind (prepend opening split)) = (kind, stopOf (i + opening.length) split) :=
  congrArg (kind, ·) (stopOf_prepend i opening split)

theorem literalOrCommentAt?_eq (hi : i < chars.size) :
    literalOrCommentAt? chars i =
      Part.some ((literalOrComment? (rest chars i)).map (placed i)) := by
  obtain ⟨c, cs, h⟩ := exists_rest_eq_cons hi
  have hcs := rest_succ h
  rw [literalOrCommentAt?, read_bind_of_rest h, getElem?_eq_head?_rest, hcs, h]
  split
  · rw [charStop?_eq hcs, Part.bind_eq_bind, Part.bind_some, literalOrComment?, Option.map_map,
      Option.map_map]
    simp [Function.comp_def, placed_ofSplit]
  · have hstop := stopOf_le (lt_size_of_rest h) ((stringTail_append cs).trans hcs.symm)
    rw [stringStop_eq hcs, min_eq_left hstop, Part.bind_eq_bind, Part.bind_some, literalOrComment?,
      Option.map_some, placed_ofSplit]
    rfl
  · next heq =>
    obtain ⟨ds, rfl⟩ := List.head?_eq_some_iff.1 heq
    rw [passWhile_eq _ (rest_succ hcs), Part.bind_eq_bind, Part.bind_some, literalOrComment?,
      Option.map_some, placed_ofSplit]
    rfl
  · next heq =>
    obtain ⟨ds, rfl⟩ := List.head?_eq_some_iff.1 heq
    have hds := rest_succ hcs
    have hstop := stopOf_le (lt_size_of_rest hcs) ((blockTail_append ds).trans hds.symm)
    rw [blockStop_eq hds, min_eq_left hstop, Part.bind_eq_bind, Part.bind_some, literalOrComment?,
      Option.map_some, placed_ofSplit]
    rfl
  · next hquote hdouble hline hblock =>
    rw [literalOrComment?.eq_5]
    · rfl
    · rintro ds ⟨⟩
      exact hquote rfl
    · rintro ds ⟨⟩
      exact hdouble rfl
    · rintro ds ⟨⟩
      exact hline rfl rfl
    · rintro ds ⟨⟩
      exact hblock rfl rfl

theorem startsLineAt_eq (hi : i < chars.size) :
    startsLineAt chars i = Part.some (decide (AtLineStart chars.toList i)) := by
  rw [startsLineAt]
  by_cases hzero : i = 0
  · have hline : AtLineStart chars.toList i := Or.inl hzero
    rw [if_pos hzero, decide_eq_true hline]
    rfl
  · obtain ⟨c, t, h⟩ := exists_rest_eq_cons (show i - 1 < chars.size by omega)
    have hline : AtLineStart chars.toList i ↔ c = '\n' := by
      rw [AtLineStart, or_iff_right hzero, Array.getElem?_toList, getElem?_of_rest h,
        Option.some.injEq]
    rw [if_neg hzero, read_bind_of_rest h, decide_eq_decide.2 hline]
    rfl

/-- The token at an offset is the one at the front of the text from there on. -/
theorem tokenAt?_eq (hi : i < chars.size) :
    tokenAt? chars i =
      Part.some ((first? (decide (AtLineStart chars.toList i)) (rest chars i)).map (placed i)) := by
  have hdirective : directiveStop? chars i =
      Part.some ((if decide (AtLineStart chars.toList i) = true then directive? (rest chars i)
        else none).map (stopOf i)) := by
    rw [directiveStop?, startsLineAt_eq hi, Part.bind_eq_bind, Part.bind_some, hashStop?_eq]
    split <;> rfl
  rw [tokenAt?, hdirective, literalOrCommentAt?_eq hi, Part.bind_eq_bind, Part.bind_some, first?]
  split
  · next stop hstop =>
    obtain ⟨split, hsplit, rfl⟩ := Option.map_eq_some_iff.1 hstop
    rw [hsplit]
    rfl
  · next hnone => rw [Option.map_eq_none_iff.1 hnone]

section Found

variable (hi : i < chars.size)
include hi

theorem tokenAt_of_tokenAt? {kind : Kind} {stop : Nat}
    (h : tokenAt? chars i = Part.some (some (kind, stop))) :
    TokenAt chars.toList ⟨kind, i, stop⟩ := by
  rw [tokenAt?_eq hi, Part.some_inj, Option.map_eq_some_iff] at h
  obtain ⟨⟨⟨kind, text⟩, after⟩, hfirst, heq⟩ := h
  cases heq
  obtain ⟨hrest, htoken, hline⟩ := first?_eq_some_iff.1 hfirst
  have hne : text ≠ [] := first?_text_ne_nil hfirst
  have hsource : chars.toList = chars.toList.take i ++ text ++ after := by
    rw [List.append_assoc, ← hrest, rest, List.take_append_drop]
  have hlength : (chars.toList.take i).length = i := by
    rw [List.length_take, Array.length_toList, min_eq_left hi.le]
  have htokenAt := @tokenAt_append kind (chars.toList.take i) text after hne htoken
  rw [← hsource, List.length_append, hlength] at htokenAt
  exact htokenAt fun hkind => of_decide_eq_true (hline hkind)

/-- A token stops behind its start and inside the array. -/
theorem tokenAt?_bounds {kind : Kind} {stop : Nat}
    (h : tokenAt? chars i = Part.some (some (kind, stop))) : i < stop ∧ stop ≤ chars.size := by
  have htoken := tokenAt_of_tokenAt? hi h
  have hstop := htoken.stop_le
  rw [Array.length_toList] at hstop
  exact ⟨htoken.start_lt, hstop⟩

theorem not_tokenAt_of_tokenAt? (h : tokenAt? chars i = Part.some none) (kind : Kind)
    (stop : Nat) : ¬ TokenAt chars.toList ⟨kind, i, stop⟩ := by
  intro htoken
  have hfirst := htoken.first? (b := decide (AtLineStart chars.toList i)) decide_eq_true
  rw [tokenAt?_eq hi, rest, hfirst, Part.some_inj] at h
  cases h

end Found

/-! ### All regions -/

theorem isTokenisation_codeSpan {source : Text} {codeStart : Nat} {spans : List Span}
    (h : IsTokenisation source i spans) (hle : codeStart ≤ i)
    (hnext : ∀ next ∈ spans.head?, next.kind ≠ .code)
    (hnone : ∀ k, codeStart ≤ k → k < i → ∀ kind stop, ¬ TokenAt source ⟨kind, k, stop⟩) :
    IsTokenisation source codeStart (codeSpan codeStart i ++ spans) := by
  unfold codeSpan
  split
  · next hlt => exact h.cons_code hlt hnext hnone
  · next hge =>
    obtain rfl : codeStart = i := by omega
    exact h

section Scan

variable {s : Progress} (hnext : s.next < chars.size)
include hnext

theorem scanStep_of_code (h : tokenAt? chars s.next = Part.some none) :
    scanStep chars s = Part.some (.inr { s with next := s.next + 1 }) := by
  rw [scanStep, if_pos hnext, h, Part.bind_eq_bind, Part.bind_some]
  rfl

theorem scanStep_of_token {kind : Kind} {stop : Nat}
    (h : tokenAt? chars s.next = Part.some (some (kind, stop))) :
    scanStep chars s =
      Part.some (.inr ⟨s.found ++ codeSpan s.codeStart s.next ++ [⟨kind, s.next, stop⟩],
        stop, stop⟩) := by
  rw [scanStep, if_pos hnext, h, Part.bind_eq_bind, Part.bind_some]
  rfl

end Scan

/-- A scan that has passed over no token comes to its end, and what it finds from there on is a
tokenisation. -/
theorem exists_scanned {s : Progress} (hle : s.codeStart ≤ s.next) (hnext : s.next ≤ chars.size)
    (hnone : ∀ k, s.codeStart ≤ k → k < s.next → ∀ kind stop,
      ¬ TokenAt chars.toList ⟨kind, k, stop⟩) :
    ∃ later, repeated (scanStep chars) s = Part.some (s.found ++ later) ∧
      IsTokenisation chars.toList s.codeStart later := by
  -- What is left of the array gets shorter, since a token stops behind its start.
  induction hleft : chars.size - s.next using Nat.strong_induction_on generalizing s with
  | _ left ih =>
    by_cases hlt : s.next < chars.size
    · obtain ⟨found, hfound⟩ : ∃ found, tokenAt? chars s.next = Part.some found :=
        ⟨_, tokenAt?_eq hlt⟩
      cases found with
      | none =>
        rw [repeated_of_inr (scanStep_of_code hlt hfound)]
        refine @ih (chars.size - (s.next + 1)) (by omega) { s with next := s.next + 1 }
          (Nat.le_succ_of_le hle) hlt ?_ rfl
        intro k hk hki
        rcases Nat.lt_succ_iff_lt_or_eq.1 hki with hki | rfl
        · exact hnone k hk hki
        · exact not_tokenAt_of_tokenAt? hlt hfound
      | some found =>
        obtain ⟨kind, stop⟩ := found
        have htoken := tokenAt_of_tokenAt? hlt hfound
        obtain ⟨hstart, hstop⟩ := tokenAt?_bounds hlt hfound
        obtain ⟨later, hlater, htokens⟩ :=
          @ih (chars.size - stop) (by omega)
            ⟨s.found ++ codeSpan s.codeStart s.next ++ [⟨kind, s.next, stop⟩], stop, stop⟩ le_rfl
            hstop (fun k hk hki => absurd hki (not_lt.2 hk)) rfl
        refine ⟨codeSpan s.codeStart s.next ++ ⟨kind, s.next, stop⟩ :: later, ?_, ?_⟩
        · rw [repeated_of_inr (scanStep_of_token hlt hfound), hlater]
          simp
        · refine isTokenisation_codeSpan (htokens.cons_token htoken) hle ?_ hnone
          rintro next ⟨⟩
          exact htoken.token.ne_code
    · obtain hend : s.next = chars.size := by omega
      have hnil : IsTokenisation chars.toList s.next [] :=
        ⟨by simpa [hend] using Covers.nil chars.size, .nil, by simp, by simp⟩
      have hcode := isTokenisation_codeSpan hnil hle (by simp) hnone
      rw [List.append_nil, hend] at hcode
      exact ⟨_, repeated_of_inl (if_neg hlt), hcode⟩

theorem spans_eq (chars : Array Char) : spans chars = Part.some (Region.spans chars.toList) := by
  obtain ⟨found, hfound, htokens⟩ := @exists_scanned chars ⟨[], 0, 0⟩ le_rfl
    (Nat.zero_le chars.size) fun k hk hlt => absurd hlt (not_lt.2 hk)
  rw [List.nil_append] at hfound
  rw [spans, hfound, htokens.unique (isTokenisation_spans chars.toList)]

/-! ### Redaction -/

theorem slice_eq {pre text later : Text} (h : chars.toList = pre ++ (text ++ later)) :
    slice chars pre.length (pre.length + text.length) = Part.some text := by
  have hsize := congrArg List.length h
  rw [Array.length_toList, List.length_append, List.length_append] at hsize
  rw [slice, if_pos (by omega)]
  simp [h]

theorem mapM_redacted {pre : Text} {regions : List Region}
    (h : chars.toList = pre ++ regions.flatMap text) :
    (Region.spansFrom pre.length regions).mapM (redacted chars) =
      Part.some (regions.map Region.redacted) := by
  induction regions generalizing pre with
  | nil => rfl
  | cons region regions ih =>
    rw [List.flatMap_cons] at h
    have hlater : chars.toList = pre ++ region.text ++ regions.flatMap text := by
      rw [h, List.append_assoc]
    have hnext := ih hlater
    have hhere : redacted chars ⟨region.kind, pre.length, pre.length + region.text.length⟩ =
        Part.some (Region.redacted region) := by
      rw [redacted, Region.redacted, slice_eq h]
      split <;> rfl
    rw [List.length_append] at hnext
    rw [Region.spansFrom, List.mapM_cons, hhere, hnext]
    simp

theorem redact_eq (chars : Array Char) : redact chars = Part.some (Region.redact chars.toList) := by
  have hpieces : (Region.spans chars.toList).mapM (redacted chars) =
      Part.some ((scan chars.toList).map Region.redacted) :=
    @mapM_redacted chars [] (scan chars.toList) (texts_scan chars.toList).symm
  rw [redact, spans_eq, Part.bind_eq_bind, Part.bind_some, hpieces, Part.bind_eq_bind,
    Part.bind_some, Region.redact, List.flatMap_def]
  rfl

/-! ### Staying inside -/

/-- From a backslash that continues a line, the loop without a guard reaches the newline. -/
theorem exists_newlineFrom (hbackslash : chars[j]? = some '\\')
    (hbreak : breaksAt chars (j + 1) = true) :
    ∃ k, newlineFrom chars j = Part.some k ∧ j < k ∧ chars[k]? = some '\n' := by
  have hrest : rest chars j = '\\' :: rest chars (j + 1) := by
    rw [getElem?_eq_head?_rest, List.head?_eq_some_iff] at hbackslash
    obtain ⟨t, ht⟩ := hbackslash
    rw [ht, rest_succ ht]
  rcases breaksAt_iff.1 hbreak with ⟨t, ht⟩ | ⟨t, ht⟩
  · rw [ht] at hrest
    exact ⟨j + 1, newlineFrom_eq ['\\'] (by decide) hrest, by omega, getElem?_of_rest ht⟩
  · rw [ht] at hrest
    exact ⟨j + 2, newlineFrom_eq ['\\', '\r'] (by decide) hrest, by omega,
      getElem?_of_rest (rest_succ ht)⟩

/-- **Scanning stays inside the array and comes to an end.** At every offset of an array the token
that starts there is found without a failure, and it is the one that the readers of texts find at
the front of the text from there on; it stops behind its start and not behind the end. In
particular, the loop for continued lines, which does not look out for the end, stops at a newline,
and the loops that move on by two may start anywhere, behind the end too. So the scan of the whole
array and its redaction, with all the cuts that it makes, never fail, and give the spans and the
redaction of the text. -/
theorem scans_in_bounds (chars : Array Char) :
    (∀ i < chars.size,
        tokenAt? chars i =
          Part.some ((first? (decide (AtLineStart chars.toList i)) (chars.toList.drop i)).map
            (placed i)) ∧
        ∀ kind stop, tokenAt? chars i = Part.some (some (kind, stop)) →
          i < stop ∧ stop ≤ chars.size) ∧
      (∀ j, chars[j]? = some '\\' → breaksAt chars (j + 1) = true →
        ∃ k, newlineFrom chars j = Part.some k ∧ j < k ∧ chars[k]? = some '\n') ∧
      (∀ j, (∃ found, charStop? chars j = Part.some found) ∧
        ∃ stop ≤ chars.size, stringStop chars j = Part.some stop) ∧
      spans chars = Part.some (Region.spans chars.toList) ∧
      redact chars = Part.some (Region.redact chars.toList) := by
  refine ⟨?_, ?_, ?_, spans_eq chars, redact_eq chars⟩
  · intro i hi
    exact ⟨tokenAt?_eq hi, fun kind stop => tokenAt?_bounds hi⟩
  · intro j
    exact exists_newlineFrom
  · intro j
    exact ⟨⟨_, charStop?_eq rfl⟩, _, min_le_right _ _, stringStop_eq rfl⟩

/-- A continued directive, and a string literal that a backslash at the end leaves open. -/
theorem scans_in_bounds_open :
    4 < "#\\\n\n\"a\\".toList.toArray.size ∧
      tokenAt? "#\\\n\n\"a\\".toList.toArray 4 = Part.some (some (.stringLiteral, 7)) ∧
      (∃ k, newlineFrom "#\\\n\n\"a\\".toList.toArray 1 = Part.some k ∧ 1 < k ∧
        "#\\\n\n\"a\\".toList.toArray[k]? = some '\n') ∧
      spans "#\\\n\n\"a\\".toList.toArray =
        Part.some [⟨.directive, 0, 3⟩, ⟨.code, 3, 4⟩, ⟨.stringLiteral, 4, 7⟩] ∧
      redact "#\\\n\n\"a\\".toList.toArray = Part.some [' ', '\n', ' '] := by
  have hlt : 4 < "#\\\n\n\"a\\".toList.toArray.size := by decide +kernel
  obtain ⟨htokens, hnewline, -, hspans, hredact⟩ := scans_in_bounds "#\\\n\n\"a\\".toList.toArray
  refine ⟨hlt, (htokens 4 hlt).1.trans ?_, hnewline 1 ?_ ?_, hspans.trans ?_, hredact.trans ?_⟩
  · exact congrArg Part.some (by decide +kernel)
  · decide +kernel
  · decide +kernel
  · exact congrArg Part.some (by decide +kernel)
  · exact congrArg Part.some (by decide +kernel)

end SketchBuild.Region.Offset
