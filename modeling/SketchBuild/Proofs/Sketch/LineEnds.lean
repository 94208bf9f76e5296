import SketchBuild.Proofs.Sketch.CollapsedForm
import SketchBuild.Proofs.Sketch.Redaction
import SketchBuild.Proofs.Sketch.Tokenisation

/-!
# Both kinds of line ends

A line may end with a newline alone or with a carriage return and a newline. Scanning does not take
notice of the difference: a carriage return in front of a newline joins the literal, comment,
directive or code that it stands in.

* `first?_withoutReturns`: one step of the scanner finds the same token without the carriage
  returns.
* `scanFrom_withoutReturns`: so the regions are the same but for the carriage returns in them, also
  in a text that mixes both kinds of line ends.
* `collapse_withoutReturns`: what is kept of a text does not depend on carriage returns.
* `structure_withReturns`: a sketch with either kind of line ends has one structure.
-/

namespace SketchBuild

namespace Text

/-- The text with a carriage return in front of every newline. -/
def withReturns (t : Text) : Text :=
  replaced '\n' ['\r', '\n'] t

/-- The text without its carriage returns. -/
def withoutReturns (t : Text) : Text :=
  t.filter (· != '\r')

/-- Carriage returns stand in front of newlines only. -/
def ReturnsPaired (t : Text) : Prop :=
  ∀ rest, '\r' :: rest <:+ t → ∃ after, rest = '\n' :: after

variable {c : Char} {s t : Text}

@[simp] theorem withoutReturns_return (t : Text) :
    withoutReturns ('\r' :: t) = withoutReturns t :=
  rfl

theorem withoutReturns_cons (hc : c ≠ '\r') (t : Text) :
    withoutReturns (c :: t) = c :: withoutReturns t := by
  simp [withoutReturns, hc]

@[simp] theorem withoutReturns_append (s t : Text) :
    withoutReturns (s ++ t) = withoutReturns s ++ withoutReturns t :=
  List.filter_append s t

theorem return_not_mem_withoutReturns (t : Text) : '\r' ∉ withoutReturns t := by
  simp [withoutReturns]

theorem ReturnsPaired.of_suffix (h : ReturnsPaired t) (hs : s <:+ t) : ReturnsPaired s :=
  fun rest hrest => h rest (hrest.trans hs)

theorem ReturnsPaired.tail (h : ReturnsPaired (c :: t)) : ReturnsPaired t :=
  h.of_suffix (List.suffix_cons c t)

/-- Only a newline can have lost a carriage return in front of it. -/
theorem ReturnsPaired.exists_cons (h : ReturnsPaired t) {u : Text}
    (heq : withoutReturns t = c :: u) :
    (∃ v, t = c :: v) ∨ c = '\n' ∧ ∃ v, t = '\r' :: '\n' :: v := by
  cases t with
  | nil => cases heq
  | cons d ds =>
    by_cases hd : d = '\r'
    · subst hd
      obtain ⟨v, rfl⟩ := h ds List.suffix_rfl
      rw [withoutReturns_return, withoutReturns_cons (by decide)] at heq
      exact Or.inr ⟨(List.cons.inj heq).1.symm, v, rfl⟩
    · rw [withoutReturns_cons hd] at heq
      exact Or.inl ⟨ds, by rw [(List.cons.inj heq).1]⟩

theorem ReturnsPaired.exists_cons_of_ne (h : ReturnsPaired t) {u : Text} (hc : c ≠ '\n')
    (heq : withoutReturns t = c :: u) : ∃ v, t = c :: v :=
  (h.exists_cons heq).resolve_right fun hnewline => hc hnewline.1

/-- A front part whose characters include the carriage return is found without them as well. -/
theorem takeWhile_withoutReturns {p : Char → Bool} (hp : p '\r' = true) (t : Text) :
    (withoutReturns t).takeWhile p = withoutReturns (t.takeWhile p) ∧
      (withoutReturns t).dropWhile p = withoutReturns (t.dropWhile p) := by
  induction t with
  | nil => exact ⟨rfl, rfl⟩
  | cons d ds ih =>
    by_cases hd : d = '\r'
    · subst hd
      rw [List.takeWhile_cons_of_pos hp, List.dropWhile_cons_of_pos hp]
      exact ih
    · rw [withoutReturns_cons hd]
      by_cases hpd : p d = true
      · rw [List.takeWhile_cons_of_pos hpd, List.takeWhile_cons_of_pos hpd,
          List.dropWhile_cons_of_pos hpd, List.dropWhile_cons_of_pos hpd, withoutReturns_cons hd]
        exact ⟨congrArg (d :: ·) ih.1, ih.2⟩
      · rw [List.takeWhile_cons_of_neg hpd, List.takeWhile_cons_of_neg hpd,
          List.dropWhile_cons_of_neg hpd, List.dropWhile_cons_of_neg hpd, withoutReturns_cons hd]
        exact ⟨rfl, rfl⟩

/-! ### Adding carriage returns -/

theorem withoutReturns_withReturns (h : '\r' ∉ t) : withoutReturns (withReturns t) = t := by
  induction t with
  | nil => rfl
  | cons c cs ih =>
    rw [List.mem_cons, not_or] at h
    by_cases hc : c = '\n'
    · subst hc
      rw [withReturns, replaced_cons_self, withoutReturns_append]
      exact congrArg ('\n' :: ·) (ih h.2)
    · rw [withReturns, replaced_cons_of_ne hc, withoutReturns_cons (Ne.symm h.1)]
      exact congrArg (c :: ·) (ih h.2)

theorem returnsPaired_withReturns (h : '\r' ∉ t) : ReturnsPaired (withReturns t) := by
  induction t with
  | nil =>
    intro rest hrest
    cases List.suffix_nil.1 hrest
  | cons c cs ih =>
    rw [List.mem_cons, not_or] at h
    intro rest hrest
    by_cases hc : c = '\n'
    · subst hc
      rw [withReturns, replaced_cons_self, List.cons_append, List.singleton_append,
        List.suffix_cons_iff, List.suffix_cons_iff] at hrest
      rcases hrest with hfirst | hsecond | hlater
      · exact ⟨_, (List.cons.inj hfirst).2⟩
      · cases hsecond
      · exact ih h.2 rest hlater
    · rw [withReturns, replaced_cons_of_ne hc, List.suffix_cons_iff] at hrest
      rcases hrest with hfirst | hlater
      · exact absurd (List.cons.inj hfirst).1 h.1
      · exact ih h.2 rest hlater

end Text

/-! ### The readers -/

namespace Region

open Text (withoutReturns ReturnsPaired withoutReturns_cons withoutReturns_append)

variable {b : Bool} {t : Text}

/-- The two parts of a split without their carriage returns. -/
def splitWithoutReturns (split : Text × Text) : Text × Text :=
  (withoutReturns split.1, withoutReturns split.2)

@[simp] theorem splitWithoutReturns_prepend (opening : Text) (split : Text × Text) :
    splitWithoutReturns (prepend opening split) =
      prepend (withoutReturns opening) (splitWithoutReturns split) := by
  simp [splitWithoutReturns, prepend]

/-- A carriage return that a reader takes along leaves no trace. -/
theorem splitWithoutReturns_prepend_return (split : Text × Text) :
    splitWithoutReturns (prepend ['\r'] split) = splitWithoutReturns split :=
  splitWithoutReturns_prepend ['\r'] split

theorem splitWithoutReturns_prepend_cons {c : Char} (hc : c ≠ '\r') (split : Text × Text) :
    splitWithoutReturns (prepend [c] split) = prepend [c] (splitWithoutReturns split) := by
  rw [splitWithoutReturns_prepend, withoutReturns_cons hc]
  rfl

theorem logicalLine_withoutReturns (h : ReturnsPaired t) :
    logicalLine (withoutReturns t) = splitWithoutReturns (logicalLine t) := by
  fun_induction logicalLine t with
  | case1 => rfl
  | case2 cs ih => exact congrArg (prepend ['\\', '\n']) (ih h.tail.tail)
  | case3 cs ih => exact congrArg (prepend ['\\', '\n']) (ih h.tail.tail.tail)
  | case4 cs => rfl
  | case5 c cs hpair htriple hnewline ih =>
    by_cases hc : c = '\r'
    · subst hc
      rw [splitWithoutReturns_prepend_return]
      exact ih h.tail
    · -- A newline comes next exactly if it did, with or without its carriage return.
      have hpair' : ∀ ds, c = '\\' → withoutReturns cs = '\n' :: ds → False := by
        intro ds hbackslash hds
        rcases h.tail.exists_cons hds with ⟨v, hcs⟩ | ⟨-, v, hcs⟩
        · exact hpair v hbackslash hcs
        · exact htriple v hbackslash hcs
      have htriple' : ∀ ds, c = '\\' → withoutReturns cs = '\r' :: '\n' :: ds → False := by
        intro ds _ hds
        exact Text.return_not_mem_withoutReturns cs (by rw [hds]; exact List.mem_cons_self)
      rw [withoutReturns_cons hc, logicalLine.eq_5 _ _ hpair' htriple' hnewline, ih h.tail,
        splitWithoutReturns_prepend_cons hc]

theorem stringTail_withoutReturns (h : ReturnsPaired t) :
    stringTail (withoutReturns t) = splitWithoutReturns (stringTail t) := by
  fun_induction stringTail t with
  | case1 => rfl
  | case2 cs => rfl
  | case3 c cs ih =>
    have hnext := ih h.tail.tail
    by_cases hc : c = '\r'
    · -- The backslash takes the carriage return along, or else the newline behind it.
      subst hc
      obtain ⟨after, rfl⟩ := h.tail cs List.suffix_rfl
      exact congrArg (prepend ['\\']) hnext
    · rw [withoutReturns_cons (by decide), withoutReturns_cons hc, stringTail.eq_3, hnext,
        splitWithoutReturns_prepend, withoutReturns_cons (by decide), withoutReturns_cons hc]
      rfl
  | case4 c cs hquote hpair ih =>
    by_cases hc : c = '\r'
    · subst hc
      rw [splitWithoutReturns_prepend_return]
      exact ih h.tail
    · have hpair' : ∀ d ds, c = '\\' → withoutReturns cs = d :: ds → False := by
        intro d ds hbackslash hds
        cases cs with
        | nil => cases hds
        | cons e es => exact hpair e es hbackslash rfl
      rw [withoutReturns_cons hc, stringTail.eq_4 _ _ hquote hpair', ih h.tail,
        splitWithoutReturns_prepend_cons hc]

theorem charTail?_withoutReturns (h : ReturnsPaired t) :
    charTail? (withoutReturns t) = (charTail? t).map splitWithoutReturns := by
  fun_induction charTail? t with
  | case1 => rfl
  | case2 cs => rfl
  | case3 cs => rfl
  | case4 => rfl
  | case5 cs => rfl
  | case6 c cs hnewline ih =>
    by_cases hc : c = '\r'
    · -- The line ends behind the carriage return, and with it the attempt in either text.
      subst hc
      obtain ⟨after, rfl⟩ := h.tail cs List.suffix_rfl
      rfl
    · rw [withoutReturns_cons (by decide), withoutReturns_cons hc, charTail?.eq_6 _ _ hnewline,
        ih h.tail.tail, Option.map_map, Option.map_map]
      congr 1
      funext split
      rw [Function.comp_apply, Function.comp_apply, splitWithoutReturns_prepend,
        withoutReturns_cons (by decide), withoutReturns_cons hc]
      rfl
  | case7 c cs hnewline hquote hlone _ hpair ih =>
    have hnext := ih h.tail
    by_cases hc : c = '\r'
    · subst hc
      rw [Option.map_map]
      exact hnext
    · have hbackslash := ne_backslash hlone hpair
      rw [withoutReturns_cons hc, charTail?_cons hquote hbackslash hnewline, hnext, Option.map_map,
        Option.map_map]
      congr 1
      funext split
      exact (splitWithoutReturns_prepend_cons hc split).symm

theorem blockTail_withoutReturns (h : ReturnsPaired t) :
    blockTail (withoutReturns t) = splitWithoutReturns (blockTail t) := by
  fun_induction blockTail t with
  | case1 => rfl
  | case2 cs => rfl
  | case3 c cs hclose ih =>
    by_cases hc : c = '\r'
    · subst hc
      rw [splitWithoutReturns_prepend_return]
      exact ih h.tail
    · have hclose' : ∀ ds, c = '*' → withoutReturns cs = '/' :: ds → False := by
        intro ds hstar hds
        obtain ⟨v, hcs⟩ := h.tail.exists_cons_of_ne (by decide) hds
        exact hclose v hstar hcs
      rw [withoutReturns_cons hc, blockTail.eq_3 _ _ hclose', ih h.tail,
        splitWithoutReturns_prepend_cons hc]

theorem lineTail_withoutReturns (t : Text) :
    lineTail (withoutReturns t) = splitWithoutReturns (lineTail t) := by
  obtain ⟨htake, hdrop⟩ := Text.takeWhile_withoutReturns (p := (· != '\n')) (by decide) t
  rw [lineTail, htake, hdrop]
  rfl

theorem directive?_withoutReturns (h : ReturnsPaired t) :
    directive? (withoutReturns t) = (directive? t).map splitWithoutReturns := by
  obtain ⟨htake, hdrop⟩ := Text.takeWhile_withoutReturns (p := isInnerBlank) (by decide) t
  have hpaired : ReturnsPaired (t.dropWhile isInnerBlank) :=
    h.of_suffix (List.dropWhile_suffix isInnerBlank)
  unfold directive?
  rw [htake, hdrop]
  cases hrest : t.dropWhile isInnerBlank with
  | nil => rfl
  | cons c cs =>
    -- The carriage return is blank, so that it is not what the blanks stop at.
    have hhead := List.head?_dropWhile_not isInnerBlank t
    rw [hrest] at hhead hpaired
    have hc : c ≠ '\r' := by
      rintro rfl
      have hvisible : isInnerBlank '\r' = false := by simpa using hhead
      exact absurd hvisible (by decide)
    rw [withoutReturns_cons hc]
    by_cases hhash : c = '#'
    · subst hhash
      have hline := logicalLine_withoutReturns hpaired
      rw [withoutReturns_cons hc] at hline
      simp only [Option.map_some, hline, splitWithoutReturns_prepend]
    · simp [hhash]

/-! ### Scanning -/

/-- The region without its carriage returns. -/
def withoutReturns (region : Region) : Region :=
  ⟨region.kind, Text.withoutReturns region.text⟩

/-- A token and the text behind it without their carriage returns. -/
def foundWithoutReturns (found : Region × Text) : Region × Text :=
  (found.1.withoutReturns, Text.withoutReturns found.2)

theorem literalOrComment?_withoutReturns (h : ReturnsPaired t) :
    literalOrComment? (Text.withoutReturns t) =
      (literalOrComment? t).map foundWithoutReturns := by
  conv_rhs => unfold literalOrComment?
  split
  · rw [withoutReturns_cons (by decide), literalOrComment?.eq_1, charTail?_withoutReturns h.tail,
      Option.map_map, Option.map_map]
    rfl
  · rw [withoutReturns_cons (by decide), literalOrComment?.eq_2, stringTail_withoutReturns h.tail]
    rfl
  · rw [withoutReturns_cons (by decide), withoutReturns_cons (by decide), literalOrComment?.eq_3,
      lineTail_withoutReturns]
    rfl
  · rw [withoutReturns_cons (by decide), withoutReturns_cons (by decide), literalOrComment?.eq_4,
      blockTail_withoutReturns h.tail.tail]
    rfl
  · next hquote hstring hline hblock =>
    rw [Option.map_none, literalOrComment?.eq_5]
    · intro ds hds
      obtain ⟨v, rfl⟩ := h.exists_cons_of_ne (by decide) hds
      exact hquote v rfl
    · intro ds hds
      obtain ⟨v, rfl⟩ := h.exists_cons_of_ne (by decide) hds
      exact hstring v rfl
    · intro ds hds
      obtain ⟨v, rfl⟩ := h.exists_cons_of_ne (by decide) hds
      rw [withoutReturns_cons (by decide)] at hds
      obtain ⟨w, rfl⟩ := h.tail.exists_cons_of_ne (by decide) (List.cons.inj hds).2
      exact hline w rfl
    · intro ds hds
      obtain ⟨v, rfl⟩ := h.exists_cons_of_ne (by decide) hds
      rw [withoutReturns_cons (by decide)] at hds
      obtain ⟨w, rfl⟩ := h.tail.exists_cons_of_ne (by decide) (List.cons.inj hds).2
      exact hblock w rfl

/-- **One step.** The scanner finds the same token, or none, without the carriage returns. -/
theorem first?_withoutReturns (b : Bool) (h : ReturnsPaired t) :
    first? b (Text.withoutReturns t) = (first? b t).map foundWithoutReturns := by
  have hdirective : (if b then directive? (Text.withoutReturns t) else none) =
      (if b then directive? t else none).map splitWithoutReturns := by
    cases b with
    | false => rfl
    | true => exact directive?_withoutReturns h
  unfold first?
  rw [hdirective, literalOrComment?_withoutReturns h]
  cases (if b then directive? t else none) <;> rfl

theorem map_withoutReturns_consCode {c : Char} (hc : c ≠ '\r') (regions : List Region) :
    (consCode c regions).map withoutReturns = consCode c (regions.map withoutReturns) := by
  rcases consCode_cases c regions with ⟨t, more, rfl, hcons⟩ | ⟨hother, hcons⟩
  · rw [hcons, List.map_cons, withoutReturns, withoutReturns_cons hc]
    rfl
  · rcases consCode_cases c (regions.map withoutReturns) with ⟨t, more, heq, -⟩ | ⟨-, hcons'⟩
    · obtain ⟨⟨kind, u⟩, more', rfl, hregion, -⟩ := List.map_eq_cons_iff.1 heq
      obtain ⟨rfl, -⟩ := Region.mk.inj hregion
      exact absurd rfl (hother u more')
    · rw [hcons, hcons', List.map_cons, withoutReturns, withoutReturns_cons hc]
      rfl

theorem map_withoutReturns_return (c : Char) (regions : List Region) :
    (consCode '\r' (consCode c regions)).map withoutReturns =
      (consCode c regions).map withoutReturns := by
  rcases consCode_cases c regions with ⟨t, more, -, hcons⟩ | ⟨-, hcons⟩
  · rw [hcons]
    rfl
  · rw [hcons]
    rfl

/-- **The whole scan.** Without carriage returns a text has the same regions, less the carriage
returns in them. The induction is on the scan of the text that has them. -/
theorem scanFrom_withoutReturns (b : Bool) (h : ReturnsPaired t) :
    scanFrom b (Text.withoutReturns t) = (scanFrom b t).map withoutReturns := by
  fun_induction scanFrom b t with
  | case1 => exact scanFrom_nil _
  | case2 b c cs region rest hfirst ih =>
    have hstep := first?_withoutReturns b h
    rw [hfirst, Option.map_some] at hstep
    have hrest : ReturnsPaired rest := h.of_suffix ⟨region.text, first?_append hfirst⟩
    rw [scanFrom_of_first? hstep, List.map_cons, ih hrest]
  | case3 b c cs hfirst ih =>
    have hstep := first?_withoutReturns b h
    rw [hfirst, Option.map_none] at hstep
    by_cases hc : c = '\r'
    · -- The carriage return joins the code of the newline behind it, where a line ends anyway.
      subst hc
      obtain ⟨after, rfl⟩ := h cs List.suffix_rfl
      have hnext := ih h.tail
      rw [withoutReturns_cons (by decide), scanFrom_newline] at hnext
      rw [Text.withoutReturns_return, withoutReturns_cons (by decide), scanFrom_newline, hnext,
        scanFrom_newline, map_withoutReturns_return]
    · rw [withoutReturns_cons hc] at hstep ⊢
      rw [scanFrom_cons_of_first?_eq_none hstep, map_withoutReturns_consCode hc, ih h.tail]

theorem redacted_map_withoutReturns (regions : List Region) :
    (regions.map withoutReturns).flatMap redacted =
      Text.withoutReturns (regions.flatMap redacted) := by
  induction regions with
  | nil => rfl
  | cons region regions ih =>
    have hregion : redacted region.withoutReturns = Text.withoutReturns (redacted region) := by
      unfold redacted withoutReturns
      split
      · rfl
      · rfl
    rw [List.map_cons, List.flatMap_cons, List.flatMap_cons, withoutReturns_append, ih, hregion]

theorem redact_withoutReturns (h : ReturnsPaired t) :
    redact (Text.withoutReturns t) = Text.withoutReturns (redact t) := by
  rw [redact, scan, scanFrom_withoutReturns true h, redacted_map_withoutReturns]
  rfl

end Region

/-! ### Collapsing -/

namespace Block

theorem withoutReturns_kept {c : Char} (hc : c ≠ '\r') (leak : Bool) (depth : Int) :
    Text.withoutReturns (kept leak depth c) = kept leak depth c := by
  apply List.filter_eq_self.2
  intro d hd
  rw [eq_of_mem_kept hd]
  simpa using hc

/-- What is kept of a text at any depth does not depend on carriage returns, which never change the
depth. -/
theorem collapseFrom_withoutReturns (leak : Bool) (depth : Int) (t : Text) :
    collapseFrom leak depth (Text.withoutReturns t) =
      Text.withoutReturns (collapseFrom leak depth t) := by
  induction t generalizing depth with
  | nil => rfl
  | cons c cs ih =>
    rw [collapseFrom_cons, Text.withoutReturns_append]
    by_cases hc : c = '\r'
    · subst hc
      have hbrace : Text.isBrace '\r' = false := by decide
      have hkept : Text.withoutReturns (kept leak depth '\r') = [] := by
        rw [Signature.kept_of_not_isBrace hbrace]
        split
        · rfl
        · rfl
      rw [Text.withoutReturns_return, hkept, Signature.depthAfter_of_not_isBrace hbrace, ih]
      rfl
    · rw [Text.withoutReturns_cons hc, collapseFrom_cons, withoutReturns_kept hc, ih]

theorem collapse_withoutReturns (leak : Bool) (t : Text) :
    collapse leak (Text.withoutReturns t) = Text.withoutReturns (collapse leak t) :=
  collapseFrom_withoutReturns leak 0 t

end Block

/-! ### One structure -/

namespace Region

/-- **Line ends do not matter.** A text without carriage returns keeps its structure when every
newline gets one: the kinds of its regions are the same, and so are, once the carriage returns are
taken away again, the redacted text and what is left of it after collapsing in either mode. -/
theorem structure_withReturns {s : Text} (h : '\r' ∉ s) :
    (spans (Text.withReturns s)).map Span.kind = (spans s).map Span.kind ∧
      Text.withoutReturns (redact (Text.withReturns s)) = redact s ∧
      ∀ leak : Bool, Text.withoutReturns (Block.collapse leak (redact (Text.withReturns s))) =
        Block.collapse leak (redact s) := by
  have hpaired := Text.returnsPaired_withReturns h
  have hsame := Text.withoutReturns_withReturns h
  have hredact : Text.withoutReturns (redact (Text.withReturns s)) = redact s := by
    rw [← redact_withoutReturns hpaired, hsame]
  refine ⟨?_, hredact, fun leak => ?_⟩
  · have hscan := scanFrom_withoutReturns true hpaired
    rw [hsame] at hscan
    rw [spans, spans, map_kind_spansFrom, map_kind_spansFrom, scan, scan, hscan, List.map_map]
    rfl
  · rw [← Block.collapse_withoutReturns, hredact]

/-- A continued directive, a quote that a backslash keeps from closing in its line, and a string
with an escaped line end. -/
theorem structure_withReturns_continued :
    '\r' ∉ "#d \\\n\x7b\n\x7b'\\\n'\"\\\n\x7d\"\n".toList ∧
      (spans "#d \\\r\n\x7b\r\n\x7b'\\\r\n'\"\\\r\n\x7d\"\r\n".toList).map Span.kind =
        [.directive, .code, .stringLiteral, .code] ∧
      Text.withoutReturns (redact "#d \\\r\n\x7b\r\n\x7b'\\\r\n'\"\\\r\n\x7d\"\r\n".toList) =
        " \n\x7b'\\\n' \n".toList ∧
      ∀ leak : Bool, Text.withoutReturns (Block.collapse leak
          (redact "#d \\\r\n\x7b\r\n\x7b'\\\r\n'\"\\\r\n\x7d\"\r\n".toList)) =
        " \n\x7b".toList := by
  have hplain : '\r' ∉ "#d \\\n\x7b\n\x7b'\\\n'\"\\\n\x7d\"\n".toList := by decide +kernel
  have hreturns : Text.withReturns "#d \\\n\x7b\n\x7b'\\\n'\"\\\n\x7d\"\n".toList =
      "#d \\\r\n\x7b\r\n\x7b'\\\r\n'\"\\\r\n\x7d\"\r\n".toList := by
    decide +kernel
  obtain ⟨hkinds, hredact, hcollapse⟩ := structure_withReturns hplain
  rw [hreturns] at hkinds hredact hcollapse
  refine ⟨hplain, hkinds.trans ?_, hredact.trans ?_, fun leak => (hcollapse leak).trans ?_⟩
  · decide +kernel
  · decide +kernel
  · cases leak <;> decide +kernel

end Region

end SketchBuild
