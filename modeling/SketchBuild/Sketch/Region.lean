import SketchBuild.Text.Basic

/-!
# Regions of a sketch

A sketch is cut into consecutive regions: ordinary code, and the literals, comments and
preprocessor directives whose content must not be taken for code.

* `Region.first?` recognises the region other than code at the front of a text.
* `Region.scan` cuts the whole text; neighbouring characters of code form one region.
* `Region.redact` keeps the code and puts one space for every other region.
* `Region.spans` gives the regions as pairs of offsets.

Nothing is lost: the texts of the regions, one after the other, are the sketch (`texts_scan`).
-/

namespace SketchBuild

/-- What a region of a sketch is. -/
inductive Region.Kind
  | code
  | charLiteral
  | stringLiteral
  | lineComment
  | blockComment
  | directive
  deriving DecidableEq, Repr

/-- A stretch of a sketch with its kind. -/
structure Region where
  kind : Region.Kind
  text : Text
  deriving DecidableEq, Repr

namespace Region

/-! ### The region at the front of a text

Each reader below splits a text into the rest of a region, whose opening characters are already
read, and what follows it. -/

/-- Puts characters in front of the first part of a split. -/
def prepend (opening : Text) (split : Text × Text) : Text × Text :=
  (opening ++ split.1, split.2)

/-- A line up to the newline that ends it. A newline right after a backslash, or after a backslash
and a carriage return, continues the line. -/
def logicalLine : Text → Text × Text
  | [] => ([], [])
  | '\\' :: '\n' :: cs => prepend ['\\', '\n'] (logicalLine cs)
  | '\\' :: '\r' :: '\n' :: cs => prepend ['\\', '\r', '\n'] (logicalLine cs)
  | '\n' :: cs => ([], '\n' :: cs)
  | c :: cs => prepend [c] (logicalLine cs)

/-- White space inside a line. -/
def isInnerBlank (c : Char) : Bool :=
  c != '\n' && Text.isBlank c

/-- A directive: white space inside the line, a hash sign, and the rest of the logical line. -/
def directive? (t : Text) : Option (Text × Text) :=
  match t.dropWhile isInnerBlank with
  | '#' :: cs => some (prepend (t.takeWhile isInnerBlank) (logicalLine ('#' :: cs)))
  | _ => none

/-- The rest of a character literal, which has to close before the line ends. A backslash takes
the character after it along. -/
def charTail? : Text → Option (Text × Text)
  | [] => none
  | '\n' :: _ => none
  | '\'' :: cs => some (['\''], cs)
  | ['\\'] => none
  | '\\' :: '\n' :: _ => none
  | '\\' :: c :: cs => (charTail? cs).map (prepend ['\\', c])
  | c :: cs => (charTail? cs).map (prepend [c])

/-- The rest of a string literal. A backslash takes the character after it along; without a
closing quote the literal runs to the end of the text. -/
def stringTail : Text → Text × Text
  | [] => ([], [])
  | '"' :: cs => (['"'], cs)
  | '\\' :: c :: cs => prepend ['\\', c] (stringTail cs)
  | c :: cs => prepend [c] (stringTail cs)

/-- The rest of a line comment, up to the newline. -/
def lineTail (t : Text) : Text × Text :=
  (t.takeWhile (· != '\n'), t.dropWhile (· != '\n'))

/-- The rest of a block comment, through the first star and slash, or else to the end. -/
def blockTail : Text → Text × Text
  | [] => ([], [])
  | '*' :: '/' :: cs => (['*', '/'], cs)
  | c :: cs => prepend [c] (blockTail cs)

/-- A region of the given kind and the text after it. -/
def ofSplit (kind : Kind) (split : Text × Text) : Region × Text :=
  (⟨kind, split.1⟩, split.2)

/-- The literal or comment at the front of the text. A quote that closes no character literal on
its line starts none. -/
def literalOrComment? : Text → Option (Region × Text)
  | '\'' :: cs => (charTail? cs).map fun split => ofSplit .charLiteral (prepend ['\''] split)
  | '"' :: cs => some (ofSplit .stringLiteral (prepend ['"'] (stringTail cs)))
  | '/' :: '/' :: cs => some (ofSplit .lineComment (prepend ['/', '/'] (lineTail cs)))
  | '/' :: '*' :: cs => some (ofSplit .blockComment (prepend ['/', '*'] (blockTail cs)))
  | _ => none

/-- The region other than code at the front of the text, if there is one. Only the start of a line
can begin a directive, and a directive comes before anything else. -/
def first? (atLineStart : Bool) (t : Text) : Option (Region × Text) :=
  match if atLineStart then directive? t else none with
  | some split => some (ofSplit .directive split)
  | none => literalOrComment? t

/-! ### What the readers split off

Every reader returns two parts that make up its text, so a region found at the front of a text is
followed by something shorter. -/

@[simp] theorem prepend_fst (opening : Text) (split : Text × Text) :
    (prepend opening split).1 = opening ++ split.1 := rfl

@[simp] theorem prepend_snd (opening : Text) (split : Text × Text) :
    (prepend opening split).2 = split.2 := rfl

theorem logicalLine_append (t : Text) : (logicalLine t).1 ++ (logicalLine t).2 = t := by
  fun_induction logicalLine t <;> simp_all

theorem directive?_append {t : Text} {split : Text × Text} (h : directive? t = some split) :
    split.1 ++ split.2 = t := by
  unfold directive? at h
  split at h
  · next cs hcs =>
    cases h
    simp [List.append_assoc, logicalLine_append, ← hcs]
  · cases h

theorem charTail?_append {t : Text} {split : Text × Text} (h : charTail? t = some split) :
    split.1 ++ split.2 = t := by
  fun_induction charTail? t generalizing split with
  | case3 => cases h; rfl
  | case6 c cs _ ih | case7 c cs _ _ _ _ _ ih =>
    obtain ⟨tail, found, rfl⟩ := Option.map_eq_some_iff.1 h
    simp [ih found]
  | _ => cases h

theorem stringTail_append (t : Text) : (stringTail t).1 ++ (stringTail t).2 = t := by
  fun_induction stringTail t <;> simp_all

theorem lineTail_append (t : Text) : (lineTail t).1 ++ (lineTail t).2 = t := by
  simp [lineTail]

theorem blockTail_append (t : Text) : (blockTail t).1 ++ (blockTail t).2 = t := by
  fun_induction blockTail t <;> simp_all

theorem literalOrComment?_append {t : Text} {found : Region × Text}
    (h : literalOrComment? t = some found) : found.1.text ++ found.2 = t := by
  unfold literalOrComment? at h
  split at h
  · obtain ⟨split, hs, rfl⟩ := Option.map_eq_some_iff.1 h
    simp [ofSplit, charTail?_append hs]
  · cases h; simp [ofSplit, stringTail_append]
  · cases h; simp [ofSplit, lineTail_append]
  · cases h; simp [ofSplit, blockTail_append]
  · cases h

theorem literalOrComment?_text_ne_nil {t : Text} {found : Region × Text}
    (h : literalOrComment? t = some found) : found.1.text ≠ [] := by
  unfold literalOrComment? at h
  split at h
  · obtain ⟨split, hs, rfl⟩ := Option.map_eq_some_iff.1 h
    simp [ofSplit]
  all_goals cases h
  all_goals simp [ofSplit]

theorem logicalLine_hash (cs : Text) : (logicalLine ('#' :: cs)).1 ≠ [] := by
  simp [logicalLine]

/-- A region and what follows it make up the text. -/
theorem first?_append {b : Bool} {t : Text} {found : Region × Text} (h : first? b t = some found) :
    found.1.text ++ found.2 = t := by
  unfold first? at h
  split at h
  · next split hs =>
    cases h
    cases b with
    | false => cases hs
    | true => exact directive?_append hs
  · exact literalOrComment?_append h

/-- A region other than code has at least one character. -/
theorem first?_text_ne_nil {b : Bool} {t : Text} {found : Region × Text}
    (h : first? b t = some found) : found.1.text ≠ [] := by
  unfold first? at h
  split at h
  · next split hs =>
    cases h
    cases b with
    | false => cases hs
    | true =>
      simp only [directive?, if_true] at hs
      split at hs
      · cases hs
        simp [ofSplit, logicalLine_hash]
      · cases hs
  · exact literalOrComment?_text_ne_nil h

theorem length_lt_of_first? {b : Bool} {t : Text} {found : Region × Text}
    (h : first? b t = some found) : found.2.length < t.length := by
  have length := congrArg List.length (first?_append h)
  have positive := List.length_pos_iff.2 (first?_text_ne_nil h)
  rw [List.length_append] at length
  omega

/-! ### All regions -/

/-- Puts one character of code in front of the regions, joining it to a leading region of code. -/
def consCode (c : Char) : List Region → List Region
  | ⟨.code, t⟩ :: regions => ⟨.code, c :: t⟩ :: regions
  | regions => ⟨.code, [c]⟩ :: regions

/-- The regions of a text that stands at the start of a line or inside one. -/
def scanFrom (atLineStart : Bool) (t : Text) : List Region :=
  match t with
  | [] => []
  | c :: cs =>
    match _h : first? atLineStart (c :: cs) with
    | some (region, rest) => region :: scanFrom false rest
    | none => consCode c (scanFrom (c == '\n') cs)
termination_by t.length
decreasing_by
  · exact length_lt_of_first? _h
  · simp

/-- The regions of a sketch, in order. -/
def scan (source : Text) : List Region :=
  scanFrom true source

/-- What is left of a region when only code counts: code itself, or one space. -/
def redacted (region : Region) : Text :=
  if region.kind = .code then region.text else [' ']

/-- The sketch with one space in place of every literal, comment and directive. -/
def redact (source : Text) : Text :=
  (scan source).flatMap redacted

/-- A region by its offsets in the sketch, from `start` up to, not including, `stop`. -/
structure Span where
  kind : Kind
  start : Nat
  stop : Nat
  deriving DecidableEq, Repr

/-- The spans of consecutive regions, the first of which starts at the given offset. -/
def spansFrom : Nat → List Region → List Span
  | _, [] => []
  | start, region :: regions =>
    let stop := start + region.text.length
    ⟨region.kind, start, stop⟩ :: spansFrom stop regions

/-- The spans of the regions of a sketch. -/
def spans (source : Text) : List Span :=
  spansFrom 0 (scan source)

theorem scanFrom_nil (b : Bool) : scanFrom b [] = [] := by
  rw [scanFrom]

theorem scanFrom_of_first? {b : Bool} {t : Text} {region : Region} {rest : Text}
    (h : first? b t = some (region, rest)) : scanFrom b t = region :: scanFrom false rest := by
  cases t with
  | nil => cases b <;> simp [first?, directive?, literalOrComment?] at h
  | cons c cs =>
    rw [scanFrom]
    split
    · next h' => rw [h] at h'; cases h'; rfl
    · next h' => rw [h] at h'; cases h'

theorem scanFrom_cons_of_first?_eq_none {b : Bool} {c : Char} {cs : Text}
    (h : first? b (c :: cs) = none) :
    scanFrom b (c :: cs) = consCode c (scanFrom (c == '\n') cs) := by
  rw [scanFrom]
  split
  · next h' => rw [h] at h'; cases h'
  · rfl

@[simp] theorem texts_consCode (c : Char) (regions : List Region) :
    (consCode c regions).flatMap text = c :: regions.flatMap text := by
  unfold consCode
  split <;> simp

/-- The texts of the regions make up the sketch. -/
theorem texts_scanFrom (b : Bool) (t : Text) : (scanFrom b t).flatMap text = t := by
  fun_induction scanFrom b t with
  | case1 => rfl
  | case2 b c cs region rest h ih => simpa [ih] using first?_append h
  | case3 b c cs h ih => simp [ih]

theorem texts_scan (source : Text) : (scan source).flatMap text = source :=
  texts_scanFrom true source

end Region

end SketchBuild
