import SketchBuild.Proofs.Sketch.Outermost
import SketchBuild.Proofs.Text.Pattern

/-!
# Signatures as patterns

A signature is described by a pattern whose runs overlap: white space belongs to three of its parts.
So there may be many ways to read it, and a search that tries them one by one has to turn back.
The reader of signatures never does. This module says that it finds the same, and describes what is
found without any reader: brace by brace.

* `accepts_iff_splits`, `definition?_eq_first?`: one signature or definition, by its pattern.
* `HasShape`, `signature_iff_hasShape`: one signature, by its characters.
* `exists_finds`: the definitions of a text are what a search for their pattern finds.
* `definitions_eq_declared`: they are what the opening braces of the text declare.
* `Prototype.extract_eq_declared`: all of this for the prototypes of a text.
-/

namespace SketchBuild.Signature

open Text (isBrace isBlank trimEnd)

/-- A type word, white space, a declarator and parameters in parentheses. -/
def signaturePattern : Pattern :=
  [.plus isTypeChar, .plus isBlank, .plus isDeclaratorChar, .one (· == '('), .star isParameterChar,
    .one (· == ')')]

/-- A signature, white space and an opening brace. -/
def definitionPattern : Pattern :=
  signaturePattern ++ [.star isBlank, .one (· == '{')]

/-- The signature in a definition, by the texts of its parts. -/
def captured (texts : List Text) : Text :=
  (texts.take signaturePattern.length).flatten

variable {t head signature : Text}

/-! ### One signature -/

theorem isDeclaratorChar_of_isTypeChar {c : Char} (h : isTypeChar c = true) :
    isDeclaratorChar c = true := by
  simp [isDeclaratorChar, h]

theorem isDeclaratorChar_of_isBlank {c : Char} (h : isBlank c = true) :
    isDeclaratorChar c = true := by
  simp [isDeclaratorChar, h]

/-- A head is a type word, white space and something more, wherever the white space is said to
end. -/
theorem isHead_iff : isHead head = true ↔
    ∃ word gap more, (Pattern.Part.plus isTypeChar).Fits word ∧
      (Pattern.Part.plus isBlank).Fits gap ∧ (Pattern.Part.plus isDeclaratorChar).Fits more ∧
      head = word ++ (gap ++ more) := by
  constructor
  · intro h
    have hall := isDeclaratorChar_of_isHead h
    have hwhole := List.takeWhile_append_dropWhile (p := isTypeChar) (l := head)
    have htype : ∀ c ∈ head.takeWhile isTypeChar, isTypeChar c = true := fun c hc =>
      List.mem_takeWhile_imp hc
    unfold isHead at h
    split at h
    · next c word gap d more hword hrest =>
      rw [hword] at hwhole htype
      rw [hrest] at hwhole
      rw [Bool.and_eq_true] at h
      refine ⟨c :: word, [gap], d :: more, ⟨by simp, htype⟩, ⟨by simp, by simpa using h.1⟩,
        ⟨by simp, fun e he => hall e ?_⟩, hwhole.symm⟩
      rw [← hwhole]
      exact List.mem_append_right _ (List.mem_cons_of_mem _ he)
    · cases h
  · rintro ⟨word, gap, more, ⟨hword, htype⟩, ⟨hgap, hblank⟩, ⟨hmore, hdeclarator⟩, rfl⟩
    obtain ⟨b, gap, rfl⟩ := List.exists_cons_of_ne_nil hgap
    obtain ⟨d, after, hafter⟩ : ∃ d after, gap ++ more = d :: after :=
      List.exists_cons_of_ne_nil (by simp [hmore])
    have hb := hblank b List.mem_cons_self
    have hend : ¬ isTypeChar b = true := by simp [isTypeChar_of_isBlank hb]
    have hall : (word ++ (b :: gap ++ more)).all isDeclaratorChar = true := by
      rw [List.all_append, List.all_append, Bool.and_eq_true, Bool.and_eq_true, List.all_eq_true,
        List.all_eq_true, List.all_eq_true]
      exact ⟨fun e he => isDeclaratorChar_of_isTypeChar (htype e he),
        fun e he => isDeclaratorChar_of_isBlank (hblank e he), hdeclarator⟩
    -- The type word ends at the first white space.
    have htake : (word ++ (b :: gap ++ more)).takeWhile isTypeChar = word := by
      rw [List.takeWhile_append_of_pos htype, List.cons_append, List.takeWhile_cons_of_neg hend,
        List.append_nil]
    have hdrop : (word ++ (b :: gap ++ more)).dropWhile isTypeChar = b :: d :: after := by
      rw [List.dropWhile_append_of_pos htype, List.cons_append, List.dropWhile_cons_of_neg hend,
        hafter]
    obtain ⟨c, word, rfl⟩ := List.exists_cons_of_ne_nil hword
    rw [isHead, htake, hdrop]
    exact Bool.and_eq_true_iff.2 ⟨hb, hall⟩

theorem accepts_iff_fits : accepts t = true ↔
    ∃ texts, List.Forall₂ Pattern.Part.Fits signaturePattern texts ∧ texts.flatten = t := by
  simp only [accepts_iff, isHead_iff, signaturePattern]
  constructor
  · rintro ⟨_, parameters, ⟨word, gap, more, hword, hgap, hmore, rfl⟩, hparameters, rfl⟩
    refine ⟨[word, gap, more, ['('], parameters, [')']], ?_, by simp⟩
    exact .cons hword (.cons hgap (.cons hmore (.cons ⟨'(', by decide, rfl⟩
      (.cons hparameters (.cons ⟨')', by decide, rfl⟩ .nil)))))
  · rintro ⟨_, hfits, rfl⟩
    rcases hfits with _ | ⟨hword, _ | ⟨hgap, _ | ⟨hmore, _ | ⟨⟨c, hc, rfl⟩, _ | ⟨hparameters,
      _ | ⟨⟨d, hd, rfl⟩, ⟨⟩⟩⟩⟩⟩⟩⟩
    rw [beq_iff_eq] at hc hd
    subst hc hd
    exact ⟨_, _, ⟨_, _, _, hword, hgap, hmore, rfl⟩, hparameters, by simp⟩

/-- A text is a signature if its pattern can be read up to the end of the text. -/
theorem accepts_iff_splits :
    accepts t = true ↔ ∃ texts, (texts, []) ∈ Pattern.splits signaturePattern t := by
  simp only [accepts_iff_fits, Pattern.mem_splits, List.append_nil]

/-! ### One signature by its characters -/

/-- What stands before the first opening parenthesis. -/
def headOf (t : Text) : Text :=
  t.takeWhile (· != '(')

/-- What stands between the first opening parenthesis and the closing one after it. -/
def parametersOf (t : Text) : Text :=
  (t.dropWhile (· != '(')).tail.takeWhile (· != ')')

/-- The shape of a signature, without a choice where one part ends and the next one begins. The text
has one opening parenthesis, and one closing parenthesis, which ends it. The part before them starts
with a type word that goes on as long as it can; white space follows directly, then something
more. -/
structure HasShape (t : Text) : Prop where
  last : t.getLast? = some ')'
  opening : t.count '(' = 1
  closing : t.count ')' = 1
  parameters : ∀ c ∈ parametersOf t, isParameterChar c = true
  declarator : ∀ c ∈ headOf t, isDeclaratorChar c = true
  word : (headOf t).takeWhile isTypeChar ≠ []
  gap : ∃ gap more, (headOf t).dropWhile isTypeChar = gap :: more ∧ isBlank gap = true ∧ more ≠ []

theorem isHead_iff_run : isHead head = true ↔
    (∀ c ∈ head, isDeclaratorChar c = true) ∧ head.takeWhile isTypeChar ≠ [] ∧
      ∃ gap more, head.dropWhile isTypeChar = gap :: more ∧ isBlank gap = true ∧ more ≠ [] := by
  constructor
  · intro h
    refine ⟨isDeclaratorChar_of_isHead h, ?_⟩
    unfold isHead at h
    split at h
    · next c word gap d more hword hrest =>
      rw [Bool.and_eq_true] at h
      exact ⟨by simp [hword], gap, d :: more, hrest, h.1, by simp⟩
    · cases h
  · rintro ⟨hall, hword, gap, more, hrest, hgap, hmore⟩
    obtain ⟨c, word, hword⟩ := List.exists_cons_of_ne_nil hword
    obtain ⟨d, more, rfl⟩ := List.exists_cons_of_ne_nil hmore
    rw [isHead, hword, hrest]
    exact Bool.and_eq_true_iff.2 ⟨hgap, List.all_eq_true.2 hall⟩

theorem takeWhile_ne_append {mark : Char} {before : Text} (h : mark ∉ before) (rest : Text) :
    (before ++ mark :: rest).takeWhile (· != mark) = before ∧
      (before ++ mark :: rest).dropWhile (· != mark) = mark :: rest := by
  have hpass : ∀ c ∈ before, (c != mark) = true := by
    intro c hc
    rw [bne_iff_ne]
    rintro rfl
    exact h hc
  rw [List.takeWhile_append_of_pos hpass, List.dropWhile_append_of_pos hpass]
  simp

theorem headOf_append (hhead : '(' ∉ head) (rest : Text) : headOf (head ++ '(' :: rest) = head :=
  (takeWhile_ne_append hhead rest).1

theorem parametersOf_append {parameters : Text} (hhead : '(' ∉ head)
    (hparameters : ')' ∉ parameters) (rest : Text) :
    parametersOf (head ++ '(' :: (parameters ++ ')' :: rest)) = parameters := by
  rw [parametersOf, (takeWhile_ne_append hhead _).2, List.tail_cons,
    (takeWhile_ne_append hparameters rest).1]

/-- One opening parenthesis, and one closing parenthesis at the end, cut a text into a part before
them and a part between them. -/
theorem exists_parts_iff :
    (t.getLast? = some ')' ∧ t.count '(' = 1 ∧ t.count ')' = 1) ↔
      ∃ head parameters, ('(' ∉ head ∧ ')' ∉ head) ∧ ('(' ∉ parameters ∧ ')' ∉ parameters) ∧
        t = head ++ '(' :: (parameters ++ [')']) := by
  constructor
  · rintro ⟨hlast, hopening, hclosing⟩
    obtain ⟨front, rfl⟩ := List.getLast?_eq_some_iff.1 hlast
    have hmem : '(' ∈ front ++ [')'] := List.count_pos_iff.1 (by omega)
    obtain ⟨head, parameters, rfl⟩ := List.append_of_mem (show '(' ∈ front by simpa using hmem)
    simp only [List.count_append, List.count_cons, List.count_nil, beq_iff_eq, Char.reduceEq,
      if_false, if_true] at hopening hclosing
    refine ⟨head, parameters, ⟨?_, ?_⟩, ⟨?_, ?_⟩, by simp⟩
    all_goals
      rw [← List.count_eq_zero]
      omega
  · rintro ⟨head, parameters, ⟨hopen, hclose⟩, ⟨hopen', hclose'⟩, rfl⟩
    refine ⟨?_, ?_, ?_⟩
    · rw [← List.cons_append, ← List.append_assoc, List.getLast?_concat]
    · simp [List.count_eq_zero.2 hopen, List.count_eq_zero.2 hopen']
    · simp [List.count_eq_zero.2 hclose, List.count_eq_zero.2 hclose']

theorem accepts_iff_hasShape : accepts t = true ↔ HasShape t := by
  constructor
  · intro h
    obtain ⟨head, parameters, hhead, hparameters, rfl⟩ := accepts_iff.1 h
    have hdeclarator := isDeclaratorChar_of_isHead hhead
    have houter : '(' ∉ head ∧ ')' ∉ head :=
      ⟨fun hmem => absurd (hdeclarator _ hmem) (by decide),
        fun hmem => absurd (hdeclarator _ hmem) (by decide)⟩
    have hinner : '(' ∉ parameters ∧ ')' ∉ parameters :=
      ⟨fun hmem => absurd (hparameters _ hmem) (by decide),
        fun hmem => absurd (hparameters _ hmem) (by decide)⟩
    obtain ⟨hlast, hopening, hclosing⟩ :=
      exists_parts_iff.2 ⟨head, parameters, houter, hinner, rfl⟩
    obtain ⟨-, hword, hgap⟩ := isHead_iff_run.1 hhead
    refine ⟨hlast, hopening, hclosing, ?_, ?_, ?_, ?_⟩
    · rwa [parametersOf_append houter.1 hinner.2]
    all_goals rwa [headOf_append houter.1]
  · intro h
    obtain ⟨head, parameters, houter, hinner, rfl⟩ :=
      exists_parts_iff.1 ⟨h.last, h.opening, h.closing⟩
    have hparameters := h.parameters
    have hhead := And.intro h.declarator (And.intro h.word h.gap)
    rw [parametersOf_append houter.1 hinner.2] at hparameters
    rw [headOf_append houter.1] at hhead
    exact accepts_iff.2 ⟨head, parameters, isHead_iff_run.2 hhead, hparameters, rfl⟩

/-- **A signature is told by its characters.** The reader accepts a text exactly if it has the shape
of a signature, and so does the pattern, although its runs overlap and it may be read in many ways:
blanks are no type characters, so the type word has to end at the first of them, and the rest of the
head is in the class of the run that comes last. -/
theorem signature_iff_hasShape (t : Text) :
    (accepts t = true ↔ HasShape t) ∧
      ((∃ texts, (texts, []) ∈ Pattern.splits signaturePattern t) ↔ HasShape t) :=
  ⟨accepts_iff_hasShape, accepts_iff_splits.symm.trans accepts_iff_hasShape⟩

/-! ### One definition -/

theorem mem_splits_definitionPattern {texts : List Text} {body : Text} :
    (texts, body) ∈ Pattern.splits definitionPattern t ↔
      ∃ parts blanks, texts = parts ++ [blanks, ['{']] ∧
        List.Forall₂ Pattern.Part.Fits signaturePattern parts ∧ (∀ c ∈ blanks, isBlank c = true) ∧
        t = parts.flatten ++ (blanks ++ '{' :: body) := by
  rw [Pattern.mem_splits, definitionPattern, Pattern.forall₂_append]
  constructor
  · rintro ⟨⟨parts, _, hparts, hbrace, rfl⟩, rfl⟩
    rcases hbrace with _ | ⟨hblanks, _ | ⟨⟨c, hc, rfl⟩, ⟨⟩⟩⟩
    rw [beq_iff_eq] at hc
    subst hc
    exact ⟨parts, _, rfl, hparts, hblanks, by simp⟩
  · rintro ⟨parts, blanks, rfl, hparts, hblanks, rfl⟩
    refine ⟨⟨parts, _, hparts, ?_, rfl⟩, by simp⟩
    exact .cons hblanks (.cons ⟨'{', by decide, rfl⟩ .nil)

/-- All ways to read the pattern of a definition have the same signature and end at the same brace,
so that the first of them gives the definition. -/
theorem definition?_eq_first? (t : Text) :
    definition? t =
      (Pattern.first? definitionPattern t).map fun split => (captured split.1, split.2) := by
  have hread : ∀ split ∈ Pattern.splits definitionPattern t,
      definition? t = some (captured split.1, split.2) := by
    rintro ⟨_, body⟩ hsplit
    obtain ⟨parts, blanks, rfl, hparts, hblanks, rfl⟩ := mem_splits_definitionPattern.1 hsplit
    rw [captured, List.take_left' hparts.length_eq.symm]
    exact definition?_eq_some_iff.2 ⟨blanks, accepts_iff_fits.2 ⟨parts, hparts, rfl⟩, hblanks, rfl⟩
  cases hfirst : Pattern.first? definitionPattern t with
  | some split => exact hread split (Pattern.first?_eq_some_iff.1 hfirst).1
  | none =>
    rw [Option.map_none, Option.eq_none_iff_forall_ne_some]
    rintro ⟨signature, body⟩ hsome
    obtain ⟨blanks, haccepts, hblanks, rfl⟩ := definition?_eq_some_iff.1 hsome
    obtain ⟨parts, hparts, rfl⟩ := accepts_iff_fits.1 haccepts
    have hsplit : (_, body) ∈ Pattern.splits definitionPattern _ :=
      mem_splits_definitionPattern.2 ⟨parts, blanks, rfl, hparts, hblanks, rfl⟩
    rw [List.head?_eq_none_iff.1 hfirst] at hsplit
    cases hsplit

/-! ### All definitions -/

/-- The definitions of a text are what a search for their pattern finds. -/
theorem exists_finds (t : Text) :
    ∃ found, Pattern.Finds definitionPattern t found ∧ definitions t = found.map captured := by
  fun_induction definitions t with
  | case1 => exact ⟨[], .nil rfl, rfl⟩
  | case2 c cs signature body hdefinition ih =>
    obtain ⟨found, hfound, hdefinitions⟩ := ih
    rw [definition?_eq_first?, Option.map_eq_some_iff] at hdefinition
    obtain ⟨⟨texts, _⟩, hfirst, heq⟩ := hdefinition
    cases heq
    obtain ⟨parts, blanks, rfl, -⟩ :=
      mem_splits_definitionPattern.1 (Pattern.first?_eq_some_iff.1 hfirst).1
    exact ⟨_, .found hfirst (by simp) hfound, by rw [hdefinitions, List.map_cons]⟩
  | case3 c cs hnone ih =>
    obtain ⟨found, hfound, hdefinitions⟩ := ih
    rw [definition?_eq_first?, Option.map_eq_none_iff] at hnone
    exact ⟨found, .skip hnone hfound, hdefinitions⟩

/-! ### Definitions by opening braces -/

/-- The offsets of the opening braces of a text, in ascending order. -/
def openers (t : Text) : List Nat :=
  (List.range t.length).filter fun k => t[k]? = some '{'

theorem mem_openers {k : Nat} : k ∈ openers t ↔ t[k]? = some '{' := by
  rw [openers, List.mem_filter, decide_eq_true_eq, List.mem_range, and_iff_right_iff_imp]
  exact fun h => (List.getElem?_eq_some_iff.1 h).1

/-- What has been read since the last brace is the front of the next heading. -/
theorem definitions_rtakeWhile_append (pre t : Text) :
    definitions (pre.rtakeWhile (!isBrace ·) ++ t) =
      ((List.range' pre.length t.length).filter fun k => (pre ++ t)[k]? = some '{').filterMap
        (declared? (pre ++ t)) := by
  induction t generalizing pre with
  | nil =>
    rw [List.append_nil]
    exact definitions_eq_nil fun c hc => by simpa using List.mem_rtakeWhile_imp hc
  | cons c cs ih =>
    have hsince : ∀ d ∈ pre.rtakeWhile (!isBrace ·), isBrace d = false := fun d hd => by
      simpa using List.mem_rtakeWhile_imp hd
    have next := ih (pre ++ [c])
    rw [List.rtakeWhile_concat, List.length_append, List.length_singleton, List.append_assoc,
      List.singleton_append] at next
    have hhere : (pre ++ c :: cs)[pre.length]? = some c := by simp
    have htake : (pre ++ c :: cs).take pre.length = pre := by simp
    rw [List.length_cons, List.range'_succ, List.filter_cons, hhere]
    by_cases hc : isBrace c = true
    · rw [if_neg (by simp [hc]), List.nil_append] at next
      rw [isBrace, Bool.or_eq_true, beq_iff_eq, beq_iff_eq] at hc
      rcases hc with rfl | rfl
      · rw [definitions_append_opening hsince, next, if_pos (by simp), List.filterMap_cons]
        rw [declared?, heading, htake]
        cases longestSignature? (trimEnd (pre.rtakeWhile (!isBrace ·))) <;> rfl
      · rw [definitions_append_closing hsince, next, if_neg (by simp)]
    · have hopens : c ≠ '{' := by
        rintro rfl
        exact hc rfl
      rw [if_pos (by simp [hc]), List.append_assoc, List.singleton_append] at next
      rw [next, if_neg (by simp [hopens])]

/-- The definitions of a text are what its opening braces declare. -/
theorem definitions_eq_declared (t : Text) :
    definitions t = (openers t).filterMap (declared? t) := by
  have h := definitions_rtakeWhile_append [] t
  rwa [List.rtakeWhile_nil, List.nil_append, List.length_nil, ← List.range_eq_range'] at h

/-- A definition starts behind every brace that stands before its own. -/
theorem DefinesAt.lt_start {start k j : Nat} (h : DefinesAt t start k signature) {b : Char}
    (hj : t[j]? = some b) (hb : isBrace b = true) (hlt : j < k) : j < start := by
  by_contra hle
  rw [not_lt] at hle
  have hmem : b ∈ (t.take k).drop start := by
    apply List.mem_of_getElem? (i := j - start)
    rw [List.getElem?_drop, Nat.add_sub_cancel' hle, List.getElem?_take_of_lt hlt, hj]
  rw [h.isBrace_eq_false b hmem] at hb
  cases hb

end SketchBuild.Signature

namespace SketchBuild.Prototype

open Signature
open Text (isBrace trimEnd)

/-- **Prototypes by opening braces.** The prototypes of any text are, in order, what its opening
braces declare: the longest signature at the end of the text since the brace before, white space
aside. Each is a signature without braces, and starts behind all earlier opening braces, so that no
two overlap. They are also what a search for the pattern of a definition finds, which tries all ways
to read it at one place before it goes on to the next. -/
theorem extract_eq_declared (t : Text) :
    extract t = (openers t).filterMap (fun k => (declared? t k).map mk) ∧
      (openers t).Pairwise (· < ·) ∧
      (∀ k signature, declared? t k = some signature ↔
        signature <:+ trimEnd (heading t k) ∧ accepts signature = true ∧
          ∀ other, other <:+ trimEnd (heading t k) → accepts other = true →
            other.length ≤ signature.length) ∧
      (∀ prototype ∈ extract t, accepts prototype.signature = true ∧
        ∀ c ∈ prototype.signature, isBrace c = false) ∧
      (∀ k ∈ openers t, ∀ signature, declared? t k = some signature →
        ∃ start, DefinesAt t start k signature ∧ ∀ j ∈ openers t, j < k → j < start) ∧
      (∀ s, accepts s = true ↔ ∃ texts, (texts, []) ∈ Pattern.splits signaturePattern s) ∧
      ∃ found, (∀ other, Pattern.Finds definitionPattern t other ↔ other = found) ∧
        extract t = found.map fun texts => ⟨captured texts⟩ := by
  have hextract : extract t = (openers t).filterMap (fun k => (declared? t k).map mk) := by
    rw [extract, definitions_eq_declared, List.map_filterMap]
  refine ⟨hextract, List.pairwise_lt_range.filter _, fun k signature =>
    longestSignature?_eq_some_iff, ?_, ?_, fun s => accepts_iff_splits, ?_⟩
  · intro prototype hmem
    rw [hextract] at hmem
    obtain ⟨k, -, hk⟩ := List.mem_filterMap.1 hmem
    obtain ⟨signature, hdeclared, rfl⟩ := Option.map_eq_some_iff.1 hk
    have haccepts := (longestSignature?_eq_some_iff.1 hdeclared).2.1
    exact ⟨haccepts, isBrace_eq_false_of_accepts haccepts⟩
  · intro k hk signature hdeclared
    obtain ⟨start, hdefines⟩ := exists_definesAt (mem_openers.1 hk) hdeclared
    exact ⟨start, hdefines, fun j hj hlt => hdefines.lt_start (mem_openers.1 hj) rfl hlt⟩
  · obtain ⟨found, hfound, hdefinitions⟩ := exists_finds t
    refine ⟨found, fun other => ⟨fun hother => hother.unique hfound, fun heq => heq ▸ hfound⟩, ?_⟩
    rw [extract, hdefinitions, List.map_map]
    rfl

example : extract "if (x) \x7b int f() \x7b \x7d \x7d".toList = [⟨"int f()".toList⟩] := by
  decide +kernel

end SketchBuild.Prototype
