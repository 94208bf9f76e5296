import SketchBuild.Proofs.Sketch.Redaction
import SketchBuild.Proofs.Sketch.Tokenisation

/-!
# Scanning one text after the other

Where a text ends with a newline that is code, scanning starts afresh behind it: nothing that stands
in the text waits for what follows, and what follows can only be seen to start a line. So the
regions of two such texts are found one by one, and only the code on both sides of the seam grows
together.

* `first?_newline_eq_none`, `first?_append_of_rest`: what one step of the scanner finds stays the
  same with more text at the end.
* `EndsLine.of_token`, `EndsLine.of_code`: what is left after one step still ends the line.
* `scanFrom_append`: the regions of a text with another one behind it.
* `redact_append`: redaction does not look across the seam.
* `spans_append`: the same by offsets.
-/

namespace SketchBuild.Region

variable {b : Bool} {s t t' : Text}

/-! ### Looking across the end of a line -/

theorem charTail?_newline_eq_none (h : charTail? (s ++ '\n' :: t) = none) (t' : Text) :
    charTail? (s ++ '\n' :: t') = none := by
  rw [Option.eq_none_iff_forall_ne_some]
  intro split hsome
  obtain ⟨items, hitems, hsplit⟩ := exists_items_of_charTail? hsome
  have hwhole := charTail?_append hsome
  rw [hsplit, List.append_assoc, List.singleton_append] at hwhole
  -- The closing quote stands before the newline, so that it closes the literal in either text.
  rcases List.append_eq_append_iff.1 hwhole with ⟨more, rfl, hmore⟩ | ⟨more, rfl, hmore⟩
  · cases more with
    | nil => cases hmore
    | cons c more =>
      obtain ⟨rfl, -⟩ := List.cons.inj hmore
      rw [List.append_assoc, List.cons_append, charTail?_items hitems] at h
      cases h
  · cases more with
    | nil => cases hmore
    | cons c more =>
      obtain ⟨rfl, -⟩ := List.cons.inj hmore
      exact hitems.newline_not_mem (by simp)

/-- What follows the end of a line does not make a token of what stands in the line. -/
theorem first?_newline_eq_none (h : first? b (s ++ '\n' :: t) = none) (t' : Text) :
    first? b (s ++ '\n' :: t') = none := by
  cases s with
  | nil => exact first?_newline b t'
  | cons c cs =>
    rw [List.cons_append] at h ⊢
    by_cases hc : c = '\''
    · subst hc
      have hdirective : ∀ u, directive? ('\'' :: u) = none :=
        directive?_cons_eq_none (by decide) (by decide)
      simp only [first?, hdirective, ite_self, literalOrComment?, Option.map_eq_none_iff] at h ⊢
      exact charTail?_newline_eq_none h t'
    · rw [first?_eq_none_iff hc, ← List.cons_append] at h ⊢
      exact fun hopens => h (opens_congr (List.cons_ne_nil c cs) (by decide) (by decide) hopens)

/-- A token is read in the same way whatever is added at the end, unless it runs to the end. -/
theorem first?_append_of_rest {region : Region} {rest : Text}
    (h : first? b s = some (region, rest)) (hrest : rest ≠ []) (t : Text) :
    first? b (s ++ t) = some (region, rest ++ t) := by
  obtain ⟨hsplit, htoken, hline⟩ := first?_eq_some_iff.1 h
  cases rest with
  | nil => exact absurd rfl hrest
  | cons d rest =>
    refine first?_eq_some_iff.2 ⟨?_, htoken.congr_rest, hline⟩
    rw [hsplit, List.append_assoc]

/-! ### Regions on both sides of a seam -/

theorem scanFrom_ne_nil (b : Bool) (h : t ≠ []) : scanFrom b t ≠ [] := by
  intro hnil
  have htexts := texts_scanFrom b t
  rw [hnil] at htexts
  exact h htexts.symm

theorem getLast?_kind_consCode (c : Char) {regions : List Region} (h : regions ≠ []) :
    (consCode c regions).getLast?.map kind = regions.getLast?.map kind := by
  rcases consCode_cases c regions with ⟨t, more, rfl, hcons⟩ | ⟨-, hcons⟩
  · rw [hcons]
    cases more with
    | nil => rfl
    | cons region more => rfl
  · obtain ⟨region, more, rfl⟩ := List.exists_cons_of_ne_nil h
    rw [hcons]
    rfl

/-- The text ends with a newline, and the newline is code. -/
structure EndsLine (b : Bool) (t : Text) : Prop where
  newline : t.getLast? = some '\n'
  code : (scanFrom b t).getLast?.map kind = some .code

theorem EndsLine.ne_nil (h : EndsLine b t) : t ≠ [] := by
  rintro rfl
  cases h.newline

/-- What stands behind a token ends the line as well. -/
theorem EndsLine.of_token {region : Region} {rest : Text} (h : EndsLine b s)
    (hfirst : first? b s = some (region, rest)) : EndsLine false rest := by
  have hcode := h.code
  rw [scanFrom_of_first? hfirst] at hcode
  have hrest : rest ≠ [] := by
    rintro rfl
    rw [scanFrom_nil] at hcode
    exact (first?_eq_some_iff.1 hfirst).2.1.ne_code (Option.some.inj hcode)
  constructor
  · have hend := h.newline
    rwa [← first?_append hfirst, List.getLast?_append_of_ne_nil _ hrest] at hend
  · obtain ⟨next, more, hmore⟩ := List.exists_cons_of_ne_nil (scanFrom_ne_nil false hrest)
    rw [hmore, List.getLast?_cons_cons] at hcode
    rwa [hmore]

/-- So does what stands behind a character of code, if that is not the newline at the end. -/
theorem EndsLine.of_code {c : Char} {cs : Text} (h : EndsLine b (c :: cs))
    (hfirst : first? b (c :: cs) = none) (hcs : cs ≠ []) : EndsLine (c == '\n') cs := by
  constructor
  · have hend := h.newline
    rwa [← List.singleton_append, List.getLast?_append_of_ne_nil _ hcs] at hend
  · have hcode := h.code
    rwa [scanFrom_cons_of_first?_eq_none hfirst,
      getLast?_kind_consCode c (scanFrom_ne_nil _ hcs)] at hcode

/-- Puts code in front of the regions, joining it to a leading region of code. -/
def prependCode (code : Text) : List Region → List Region
  | ⟨.code, t⟩ :: regions => ⟨.code, code ++ t⟩ :: regions
  | regions => ⟨.code, code⟩ :: regions

theorem consCode_eq_prependCode (c : Char) (regions : List Region) :
    consCode c regions = prependCode [c] regions := by
  rcases consCode_cases c regions with ⟨t, more, rfl, hcons⟩ | ⟨hother, hcons⟩
  · rw [hcons]
    rfl
  · rw [hcons, prependCode]
    exact hother

theorem consCode_prependCode (c : Char) (code : Text) (regions : List Region) :
    consCode c (prependCode code regions) = prependCode (c :: code) regions := by
  unfold prependCode
  split
  · rfl
  · rfl

theorem consCode_append_of_ne_nil (c : Char) {front : List Region} (h : front ≠ [])
    (back : List Region) : consCode c (front ++ back) = consCode c front ++ back := by
  obtain ⟨⟨kind, t⟩, more, rfl⟩ := List.exists_cons_of_ne_nil h
  cases kind <;> rfl

@[simp] theorem redacted_prependCode (code : Text) (regions : List Region) :
    (prependCode code regions).flatMap redacted = code ++ regions.flatMap redacted := by
  unfold prependCode
  split
  · simp [redacted]
  · simp [redacted]

/-- **Scanning goes on behind the end of a line as it begins.** The code that ends the line is put
in front of the regions of the text that follows. The induction is on the scan of the first text;
each of its steps is the same with more text at the end. -/
theorem scanFrom_append (h : EndsLine b s) (t : Text) :
    ∃ front code, scanFrom b s = front ++ [⟨.code, code⟩] ∧
      scanFrom b (s ++ t) = front ++ prependCode code (scan t) := by
  fun_induction scanFrom b s with
  | case1 => exact absurd rfl h.ne_nil
  | case2 b c cs region rest hfirst ih =>
    have hnext := h.of_token hfirst
    obtain ⟨front, code, hfront, happend⟩ := ih hnext
    refine ⟨region :: front, code, by rw [hfront]; rfl, ?_⟩
    rw [scanFrom_of_first? (first?_append_of_rest hfirst hnext.ne_nil t), happend]
    rfl
  | case3 b c cs hfirst ih =>
    by_cases hcs : cs = []
    · -- The newline at the end was the last character: a line starts behind it.
      subst hcs
      obtain rfl : c = '\n' := Option.some.inj h.newline
      refine ⟨[], ['\n'], by rw [scanFrom_nil]; rfl, ?_⟩
      exact (scanFrom_newline b t).trans (consCode_eq_prependCode '\n' (scan t))
    · have hnone : first? b (c :: (cs ++ t)) = none := by
        obtain ⟨init, hinit⟩ := List.getLast?_eq_some_iff.1 h.newline
        rw [← List.cons_append]
        rw [hinit] at hfirst ⊢
        rw [List.append_assoc]
        exact first?_newline_eq_none hfirst t
      obtain ⟨front, code, hfront, happend⟩ := ih (h.of_code hfirst hcs)
      rw [List.cons_append, scanFrom_cons_of_first?_eq_none hnone, happend, hfront]
      by_cases hnil : front = []
      · subst hnil
        exact ⟨[], c :: code, rfl, consCode_prependCode c code (scan t)⟩
      · exact ⟨consCode c front, code, consCode_append_of_ne_nil c hnil _,
          consCode_append_of_ne_nil c hnil _⟩

theorem redact_append (h : EndsLine true s) (t : Text) :
    redact (s ++ t) = redact s ++ redact t := by
  obtain ⟨front, code, hfront, happend⟩ := scanFrom_append h t
  rw [redact, redact, scan, scan, hfront, happend, List.flatMap_append, List.flatMap_append,
    redacted_prependCode, List.append_assoc, redact]
  simp [redacted]

/-! ### Offsets -/

/-- The span at offsets that are larger by that much. -/
def Span.shift (offset : Nat) (span : Span) : Span :=
  ⟨span.kind, offset + span.start, offset + span.stop⟩

/-- Spans one after the other. Where code meets code the two spans are one. -/
def Span.joined (front back : List Span) : List Span :=
  match front.getLast?, back with
  | some ⟨.code, start, _⟩, ⟨.code, _, stop⟩ :: rest =>
    front.dropLast ++ ⟨.code, start, stop⟩ :: rest
  | _, _ => front ++ back

theorem spansFrom_add (k n : Nat) (regions : List Region) :
    spansFrom (k + n) regions = (spansFrom n regions).map (Span.shift k) := by
  induction regions generalizing n with
  | nil => rfl
  | cons region regions ih =>
    rw [spansFrom, spansFrom, List.map_cons, Nat.add_assoc, ih]
    rfl

/-- Code in front of regions has the span of its own, or one that takes in the code behind it. -/
theorem spansFrom_prependCode (front : List Span) (k : Nat) (code : Text)
    (regions : List Region) :
    front ++ spansFrom k (prependCode code regions) =
      Span.joined (front ++ [⟨.code, k, k + code.length⟩])
        (spansFrom (k + code.length) regions) := by
  unfold Span.joined
  rw [List.getLast?_concat, List.dropLast_concat]
  cases regions with
  | nil => simp [prependCode, spansFrom]
  | cons region regions =>
    obtain ⟨kind, t⟩ := region
    cases kind with
    | code => simp [prependCode, spansFrom, Nat.add_assoc]
    | _ => simp [prependCode, spansFrom]

/-- **Scanning is compositional at the ends of lines.** Behind a text that ends with a newline and
whose last region is code, the spans of another text follow at their offsets, and where these start
with code as well the two spans of code that meet are one. So the redacted texts follow one another,
too. -/
theorem spans_append {a : Text} (hend : a.getLast? = some '\n')
    (hcode : (spans a).getLast?.map Span.kind = some .code) (b : Text) :
    spans (a ++ b) = Span.joined (spans a) ((spans b).map (Span.shift a.length)) ∧
      redact (a ++ b) = redact a ++ redact b := by
  have hkind : (scan a).getLast?.map kind = some .code := by
    rwa [← List.getLast?_map, ← map_kind_spansFrom 0, List.getLast?_map]
  have hline : EndsLine true a := ⟨hend, hkind⟩
  refine ⟨?_, redact_append hline b⟩
  obtain ⟨front, code, hfront, happend⟩ := scanFrom_append hline b
  have hlength : a.length = (front.flatMap text).length + code.length := by
    have htexts := congrArg List.length (texts_scanFrom true a)
    rw [hfront, List.flatMap_append, List.length_append] at htexts
    simpa using htexts.symm
  have hspans : spans a = spansFrom 0 front ++
      [⟨.code, (front.flatMap text).length, (front.flatMap text).length + code.length⟩] := by
    rw [spans, scan, hfront, spansFrom_append, Nat.zero_add]
    rfl
  rw [hspans, spans, spans, scan, happend, spansFrom_append, Nat.zero_add, spansFrom_prependCode,
    ← spansFrom_add, hlength, Nat.add_zero]

/-- A stray quote and a slash at the ends of both lines: neither is carried over the seam, and the
code on both sides of it is one region. -/
theorem spans_append_stray :
    "a '\n".toList.getLast? = some '\n' ∧
      (spans "a '\n".toList).getLast?.map Span.kind = some .code ∧
      spans ("a '\n".toList ++ "b'/\n/* c".toList) = [⟨.code, 0, 8⟩, ⟨.blockComment, 8, 12⟩] ∧
      redact ("a '\n".toList ++ "b'/\n/* c".toList) = "a '\nb'/\n ".toList := by
  have hend : "a '\n".toList.getLast? = some '\n' := by decide +kernel
  have hcode : (spans "a '\n".toList).getLast?.map Span.kind = some .code := by decide +kernel
  obtain ⟨hspans, hredact⟩ := spans_append hend hcode "b'/\n/* c".toList
  refine ⟨hend, hcode, hspans.trans ?_, hredact.trans ?_⟩
  · decide +kernel
  · decide +kernel

end SketchBuild.Region
