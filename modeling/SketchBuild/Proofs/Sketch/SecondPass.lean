import SketchBuild.Proofs.Sketch.IncludeRegions
import SketchBuild.Proofs.Sketch.Redaction

/-!
# Redacting again

The redacted text of a sketch can be redacted once more. It holds no string literals and no
comments, and no character literals either if the code of the sketch is free of single quotes. So
the second pass can find directives only: hash signs of the code that have moved to the start of
their line, as the literals and comments before them have become spaces.

* `redact_eq_self_iff`: a text stays as it is exactly if all of it is code.
* `isBare_redact`: what the redacted text does not hold.
* `redact_hides_nothing`: whatever the sketch, no string literal or comment is left in the redacted
  text, and its braces are those of the code.
* `hasHashLine_redact_iff`: where the lines of the redacted text that start with a hash sign come
  from.
* `redact_redact_iff`: when a second pass changes nothing; a third pass never does.
-/

namespace SketchBuild.Region

variable {b : Bool} {source t : Text}

/-! ### Texts that stay as they are -/

theorem IsToken.exists_visible {kind : Kind} {t rest : Text} (h : IsToken kind t rest) :
    ∃ c ∈ t, Text.isBlank c = false := by
  by_cases hkind : kind = .directive
  · subst hkind
    obtain ⟨⟨blanks, body, -, rfl⟩, -⟩ := h
    exact ⟨'#', by simp, by decide⟩
  · obtain ⟨u, rfl⟩ := h.exists_opening hkind
    refine ⟨opening kind, List.mem_cons_self, ?_⟩
    cases kind <;> decide

/-- Redaction takes visible characters away and never adds one. -/
theorem countP_redacted_le (regions : List Region) :
    (regions.flatMap redacted).countP (!Text.isBlank ·) ≤
      (regions.flatMap text).countP (!Text.isBlank ·) := by
  induction regions with
  | nil => exact Nat.le_refl _
  | cons region regions ih =>
    have hregion : (redacted region).countP (!Text.isBlank ·) ≤
        region.text.countP (!Text.isBlank ·) := by
      unfold redacted
      split
      · exact Nat.le_refl _
      · exact Nat.zero_le _
    rw [List.flatMap_cons, List.flatMap_cons, List.countP_append, List.countP_append]
    omega

/-- A text stays as it is exactly if all of it is code: of every token a visible character is
lost. -/
theorem redact_eq_self_iff (t : Text) :
    redact t = t ↔ ∀ region ∈ scan t, region.kind = .code := by
  constructor
  · intro hself region hmem
    by_contra hkind
    obtain ⟨before, after, hscan⟩ := List.append_of_mem hmem
    obtain ⟨c, hc, hvisible⟩ := (isToken_of_scanFrom hscan hkind).exists_visible
    have hpos : 0 < region.text.countP (!Text.isBlank ·) :=
      List.countP_pos_iff.2 ⟨c, hc, by simp [hvisible]⟩
    have hspace : (redacted region).countP (!Text.isBlank ·) = 0 := by
      rw [redacted, if_neg hkind]
      rfl
    have hcount := congrArg (List.countP (!Text.isBlank ·)) (hself.trans (texts_scan t).symm)
    simp only [redact, hscan, List.flatMap_append, List.flatMap_cons, List.countP_append]
      at hcount
    have hbefore := countP_redacted_le before
    have hafter := countP_redacted_le after
    omega
  · intro hcode
    have hsame : (scan t).flatMap redacted = (scan t).flatMap text :=
      List.flatMap_congr fun region hmem => if_pos (hcode region hmem)
    rw [redact, hsame, texts_scan]

/-! ### What the redacted text does not hold -/

/-- No literal and no comment can start in the text. -/
structure IsBare (t : Text) : Prop where
  quote : '"' ∉ t
  apostrophe : '\'' ∉ t
  slashes : ¬ ['/', '/'] <:+: t
  slashStar : ¬ ['/', '*'] <:+: t

theorem quote_not_mem_redacted (b : Bool) (t : Text) :
    '"' ∉ (scanFrom b t).flatMap redacted := by
  fun_induction scanFrom b t with
  | case1 => simp
  | case2 b c cs region rest hfirst ih =>
    rw [List.flatMap_cons, redacted_of_first? hfirst]
    simpa using ih
  | case3 b c cs hfirst ih =>
    rw [redacted_consCode, List.mem_cons, not_or]
    refine ⟨?_, ih⟩
    rintro rfl
    exact (first?_eq_none_iff (by decide)).1 hfirst (Or.inl ⟨cs, rfl⟩)

/-- Unless it is a space, the first character of the redacted text is that of the text. -/
theorem exists_cons_of_redacted {d : Char} {u : Text} (hd : d ≠ ' ')
    (h : (scanFrom b t).flatMap redacted = d :: u) : ∃ v, t = d :: v := by
  cases t with
  | nil =>
    rw [scanFrom_nil] at h
    cases h
  | cons c cs =>
    cases hfirst : first? b (c :: cs) with
    | none =>
      rw [scanFrom_cons_of_first?_eq_none hfirst, redacted_consCode] at h
      obtain ⟨rfl, -⟩ := List.cons.inj h
      exact ⟨cs, rfl⟩
    | some found =>
      rw [scanFrom_of_first? hfirst, List.flatMap_cons, redacted_of_first? hfirst] at h
      exact absurd (List.cons.inj h).1.symm hd

/-- A slash and a character with which it opens a comment never come together: what stands between
them leaves a space. -/
theorem not_infix_redacted {d : Char} (hd : d = '/' ∨ d = '*') (b : Bool) (t : Text) :
    ¬ ['/', d] <:+: (scanFrom b t).flatMap redacted := by
  have hspace : d ≠ ' ' := by rcases hd with rfl | rfl <;> decide
  fun_induction scanFrom b t with
  | case1 => simp
  | case2 b c cs region rest hfirst ih =>
    rw [List.flatMap_cons, redacted_of_first? hfirst, List.singleton_append, List.infix_cons_iff,
      not_or]
    exact ⟨by simp, ih⟩
  | case3 b c cs hfirst ih =>
    rw [redacted_consCode, List.infix_cons_iff, not_or]
    refine ⟨?_, ih⟩
    rintro ⟨u, hu⟩
    obtain ⟨rfl, hnext⟩ := List.cons.inj hu
    obtain ⟨v, rfl⟩ := exists_cons_of_redacted hspace hnext.symm
    apply (first?_eq_none_iff (by decide)).1 hfirst
    rcases hd with rfl | rfl
    · exact Or.inr (Or.inl ⟨v, rfl⟩)
    · exact Or.inr (Or.inr (Or.inl ⟨v, rfl⟩))

theorem isBare_redact (h : QuoteFree (scan source)) : IsBare (redact source) where
  quote := quote_not_mem_redacted true source
  slashes := not_infix_redacted (Or.inl rfl) true source
  slashStar := not_infix_redacted (Or.inr rfl) true source
  apostrophe := by
    intro hmem
    obtain ⟨region, hregion, hmem⟩ := List.mem_flatMap.1 hmem
    unfold redacted at hmem
    split at hmem
    · next hkind => exact h region hregion hkind hmem
    · exact absurd (List.mem_singleton.1 hmem) (by decide)

/-- The characters that open a literal or comment. -/
def openers : Kind → Text
  | .charLiteral => ['\'']
  | .stringLiteral => ['"']
  | .lineComment => ['/', '/']
  | .blockComment => ['/', '*']
  | .code => []
  | .directive => []

theorem IsToken.leads_with_openers {kind : Kind} {t rest : Text} (h : IsToken kind t rest) :
    openers kind <+: t := by
  cases kind with
  | code => exact List.nil_prefix
  | directive => exact List.nil_prefix
  | charLiteral =>
    obtain ⟨u, rfl⟩ := h.exists_opening (by decide)
    exact ⟨u, rfl⟩
  | stringLiteral =>
    obtain ⟨u, rfl⟩ := h.exists_opening (by decide)
    exact ⟨u, rfl⟩
  | lineComment =>
    obtain ⟨⟨body, -, rfl⟩, -⟩ := h
    exact ⟨body, rfl⟩
  | blockComment =>
    rcases h with ⟨body, -, rfl⟩ | ⟨-, tail, rfl, -⟩
    · exact ⟨_, rfl⟩
    · exact ⟨_, rfl⟩

/-- A text holds the opening characters of every literal and comment found in it. -/
theorem openers_infix_of_mem_scan {region : Region} (h : region ∈ scan t) :
    openers region.kind <:+: t := by
  obtain ⟨kind, text⟩ := region
  by_cases hkind : kind = .code
  · subst hkind
    exact List.nil_infix
  · obtain ⟨before, after, hscan⟩ := List.append_of_mem h
    have htexts := texts_scan t
    rw [hscan, List.flatMap_append, List.flatMap_cons] at htexts
    have hpart : text <:+: t := ⟨_, _, by rw [← htexts, List.append_assoc]⟩
    have hleads := (isToken_of_scanFrom hscan hkind).leads_with_openers
    exact hleads.isInfix.trans hpart

namespace IsBare

theorem quoteFree (h : IsBare t) : QuoteFree (scan t) := by
  intro region hregion _ hmem
  exact h.apostrophe (texts_scan t ▸ List.mem_flatMap.2 ⟨region, hregion, hmem⟩)

/-- Apart from code, a bare text has directives only. -/
theorem eq_directive (h : IsBare t) {kind : Kind} {text : Text} {before after : List Region}
    (hscan : scan t = before ++ ⟨kind, text⟩ :: after) (hkind : kind ≠ .code) :
    kind = .directive := by
  have hmem : (⟨kind, text⟩ : Region) ∈ scan t := by
    rw [hscan]
    simp
  have hopeners : openers kind <:+: t := openers_infix_of_mem_scan hmem
  cases kind with
  | code => exact absurd rfl hkind
  | directive => rfl
  | charLiteral => exact absurd ((List.singleton_infix_iff _ _).1 hopeners) h.apostrophe
  | stringLiteral => exact absurd ((List.singleton_infix_iff _ _).1 hopeners) h.quote
  | lineComment => exact absurd hopeners h.slashes
  | blockComment => exact absurd hopeners h.slashStar

end IsBare

/-! ### Lines that start with a hash sign -/

/-- The text starts with a hash sign, blanks aside. -/
def LeadsHash (t : Text) : Prop :=
  ∃ blanks rest, (∀ c ∈ blanks, isInnerBlank c = true) ∧ t = blanks ++ '#' :: rest

/-- A line of the text starts with a hash sign, blanks aside. -/
def HasHashLine (t : Text) : Prop :=
  ∃ front rest, t = front ++ rest ∧ AtLineStart t front.length ∧ LeadsHash rest

/-- The last line of the text holds nothing but blanks. -/
def EndsBlank (t : Text) : Prop :=
  ∃ front blanks, t = front ++ blanks ∧ AtLineStart t front.length ∧
    ∀ c ∈ blanks, isInnerBlank c = true

/-- A hash sign of the code comes first in its line, but for blanks and for the literals and
comments that stand before the code. -/
def HasHashBehindToken (source : Text) : Prop :=
  ∃ before code after, scan source = before ++ ⟨.code, code⟩ :: after ∧
    LeadsHash code ∧ EndsBlank (before.flatMap redacted)

/-- A bare text stays as it is exactly if none of its lines starts with a hash sign. -/
theorem IsBare.redact_eq_self_iff (h : IsBare t) : redact t = t ↔ ¬ HasHashLine t := by
  rw [Region.redact_eq_self_iff]
  constructor
  · rintro hcode ⟨front, _, ht, hline, blanks, rest, hblanks, rfl⟩
    obtain ⟨span, hspan, -, -, hkind⟩ := exists_span_of_hash hblanks ht hline
    have hmem : span.kind ∈ (scan t).map Region.kind := by
      rw [← map_kind_spansFrom 0]
      exact List.mem_map_of_mem hspan
    obtain ⟨region, hregion, heq⟩ := List.mem_map.1 hmem
    rw [← heq, hcode region hregion] at hkind
    simp at hkind
  · intro hnone region hregion
    by_contra hkind
    obtain ⟨before, after, hscan⟩ := List.append_of_mem hregion
    obtain ⟨kind, text⟩ := region
    obtain rfl : kind = .directive := h.eq_directive hscan hkind
    obtain ⟨⟨blanks, body, hblanks, rfl⟩, -⟩ := isToken_of_scanFrom hscan hkind
    have htoken := (isTokenisation_spans t).tokens _ (mem_spans_of_scan hscan) hkind
    have htexts := texts_scan t
    rw [hscan, List.flatMap_append, List.flatMap_cons] at htexts
    exact hnone ⟨_, _, htexts.symm, htoken.lineStart rfl, blanks, body ++ after.flatMap Region.text,
      hblanks, by simp⟩

theorem atLineStart_iff (front rest : Text) :
    AtLineStart (front ++ rest) front.length ↔ front = [] ∨ front.getLast? = some '\n' := by
  by_cases hfront : front = []
  · simp [AtLineStart, hfront]
  · have hstart := @atLineStart_append_iff [] front rest hfront
    rw [List.nil_append] at hstart
    rw [hstart, or_iff_right hfront]

/-- Of a visible character in the redacted text it is known in which code it stands. -/
theorem exists_code_of_redacted_eq {regions : List Region} {front rest : Text} {c : Char}
    (hc : c ≠ ' ') (h : regions.flatMap redacted = front ++ c :: rest) :
    ∃ before u v after, regions = before ++ ⟨.code, u ++ c :: v⟩ :: after ∧
      front = before.flatMap redacted ++ u := by
  induction regions generalizing front with
  | nil => simp at h
  | cons region regions ih =>
    rw [List.flatMap_cons] at h
    rcases List.append_eq_append_iff.1 h with ⟨more, rfl, hmore⟩ | ⟨more, hregion, hmore⟩
    · obtain ⟨before, u, v, after, rfl, rfl⟩ := ih hmore
      exact ⟨region :: before, u, v, after, rfl, by simp⟩
    · cases more with
      | nil =>
        obtain ⟨before, u, v, after, rfl, hfront⟩ := @ih [] hmore.symm
        rw [List.append_nil] at hregion
        refine ⟨region :: before, u, v, after, rfl, ?_⟩
        rw [List.flatMap_cons, hregion, List.append_assoc, ← hfront, List.append_nil]
      | cons d more =>
        obtain ⟨rfl, -⟩ := List.cons.inj hmore
        obtain ⟨kind, text⟩ := region
        unfold redacted at hregion
        split at hregion
        · next hkind =>
          obtain rfl : kind = .code := hkind
          obtain rfl : text = front ++ c :: more := hregion
          exact ⟨[], front, more, regions, rfl, rfl⟩
        · exact absurd (List.mem_singleton.1 (hregion ▸ by simp)) hc

/-- Collapsing counts the character: at some depth, in one of its modes, it changes the depth. -/
def IsCounted (c : Char) : Prop :=
  ∃ leak depth, Block.depthAfter leak depth c ≠ depth

theorem isCounted_iff (c : Char) : IsCounted c ↔ c = '{' ∨ c = '}' := by
  constructor
  · rintro ⟨leak, depth, hdepth⟩
    by_contra hother
    rw [not_or] at hother
    exact hdepth (by rw [Block.depthAfter, if_neg hother.1, if_neg hother.2])
  · rintro (rfl | rfl)
    · exact ⟨false, 0, by decide⟩
    · exact ⟨true, 0, by decide⟩

/-- **Nothing is hidden in the redacted text.** Whatever the sketch, its redacted text holds no
double quote and no opening of a comment, so that a scan of it finds no string literal and no
comment. And wherever it holds a brace, or whatever else collapsing counts, this stands in the code
of the sketch: behind the regions and the code that come before it in the redacted text. -/
theorem redact_hides_nothing (source : Text) :
    ('"' ∉ redact source ∧ ¬ ['/', '/'] <:+: redact source ∧ ¬ ['/', '*'] <:+: redact source) ∧
      (∀ span ∈ spans (redact source), span.kind ≠ .stringLiteral ∧ span.kind ≠ .lineComment ∧
        span.kind ≠ .blockComment) ∧
      ∀ front c rest, redact source = front ++ c :: rest → IsCounted c →
        ∃ before u v after, scan source = before ++ ⟨.code, u ++ c :: v⟩ :: after ∧
          front = before.flatMap redacted ++ u ∧
          source = before.flatMap text ++ u ++ c :: (v ++ after.flatMap text) := by
  have hquote := quote_not_mem_redacted true source
  have hslashes := not_infix_redacted (Or.inl rfl) true source
  have hslashStar := not_infix_redacted (Or.inr rfl) true source
  refine ⟨⟨hquote, hslashes, hslashStar⟩, fun span hspan => ?_, ?_⟩
  · have hkind : span.kind ∈ (scan (redact source)).map kind := by
      rw [← map_kind_spansFrom 0]
      exact List.mem_map_of_mem hspan
    obtain ⟨region, hregion, heq⟩ := List.mem_map.1 hkind
    have hopeners := openers_infix_of_mem_scan hregion
    rw [heq] at hopeners
    refine ⟨fun hstring => ?_, fun hline => ?_, fun hblock => ?_⟩
    · rw [hstring] at hopeners
      exact hquote ((List.singleton_infix_iff _ _).1 hopeners)
    · rw [hline] at hopeners
      exact hslashes hopeners
    · rw [hblock] at hopeners
      exact hslashStar hopeners
  · intro front c rest hsplit hcounted
    have hspace : c ≠ ' ' := by
      rintro rfl
      exact absurd ((isCounted_iff ' ').1 hcounted) (by decide)
    obtain ⟨before, u, v, after, hscan, hfront⟩ := exists_code_of_redacted_eq hspace hsplit
    refine ⟨before, u, v, after, hscan, hfront, ?_⟩
    conv_lhs => rw [← texts_scan source, hscan]
    simp

/-- Slashes on both sides of a string, a stray quote, a star behind a comment, and a string that is
not closed: the only brace left is the one behind the stray quote. -/
theorem redact_hides_nothing_stray :
    redact "/\"a\"/'\x7b/**/*\n\"\x7d".toList = "/ /'".toList ++ '{' :: " *\n ".toList ∧
      IsCounted '{' ∧
      (∀ span ∈ spans "/ /'\x7b *\n ".toList, span.kind ≠ .stringLiteral ∧
        span.kind ≠ .lineComment ∧ span.kind ≠ .blockComment) ∧
      ∃ before u v after, scan "/\"a\"/'\x7b/**/*\n\"\x7d".toList =
          before ++ ⟨.code, u ++ '{' :: v⟩ :: after ∧
        "/ /'".toList = before.flatMap redacted ++ u := by
  have hredact : redact "/\"a\"/'\x7b/**/*\n\"\x7d".toList =
      "/ /'".toList ++ '{' :: " *\n ".toList := by
    decide +kernel
  have hcounted : IsCounted '{' := (isCounted_iff '{').2 (Or.inl rfl)
  obtain ⟨-, hspans, hbraces⟩ := redact_hides_nothing "/\"a\"/'\x7b/**/*\n\"\x7d".toList
  obtain ⟨before, u, v, after, hscan, hfront, -⟩ := hbraces _ _ _ hredact hcounted
  rw [hredact] at hspans
  exact ⟨hredact, hcounted, hspans, before, u, v, after, hscan, hfront⟩

/-- In the code no line starts with a hash sign: it would be a directive. -/
theorem not_atLineStart_of_code {before after : List Region} {front rest : Text}
    (hscan : scan source = before ++ ⟨.code, front ++ rest⟩ :: after) (hrest : LeadsHash rest) :
    ¬ AtLineStart source (before.flatMap text ++ front).length := by
  intro hline
  obtain ⟨blanks, body, hblanks, rfl⟩ := hrest
  have hsource : source = before.flatMap text ++ front ++
      (blanks ++ '#' :: (body ++ after.flatMap text)) := by
    conv_lhs => rw [← texts_scan source, hscan]
    simp
  obtain ⟨stop, htoken⟩ := exists_directiveAt hblanks hsource hline
  refine (isTokenisation_spans source).code _ (mem_spans_of_scan hscan) rfl _ ?_ ?_ _ _ htoken
  · simp
  · rw [List.length_append, Nat.add_lt_add_iff_left, List.length_append, List.length_append,
      List.length_cons]
    omega

/-- The lines of the redacted text that start with a hash sign are those in which only literals and
comments kept the sign from starting a directive. -/
theorem hasHashLine_redact_iff (source : Text) :
    HasHashLine (redact source) ↔ HasHashBehindToken source := by
  constructor
  · rintro ⟨front, _, hredact, hline, blanks, rest, hblanks, rfl⟩
    rw [hredact, atLineStart_iff] at hline
    rw [← List.append_assoc] at hredact
    obtain ⟨before, u, v, after, hscan, hfront⟩ :=
      exists_code_of_redacted_eq (by decide) hredact
    rcases List.append_eq_append_iff.1 hfront with ⟨more, hbefore, rfl⟩ | ⟨more, rfl, rfl⟩
    · refine ⟨before, _, after, hscan, ⟨u, v, fun c hc => hblanks c (by simp [hc]), rfl⟩, front,
        more, hbefore, ?_, fun c hc => hblanks c (by simp [hc])⟩
      rwa [hbefore, atLineStart_iff]
    · have hleads : LeadsHash (blanks ++ '#' :: v) := ⟨blanks, v, hblanks, rfl⟩
      cases more with
      | nil =>
        rw [List.append_nil] at hline
        refine ⟨before, _, after, hscan, hleads, _, [], (List.append_nil _).symm, ?_, by simp⟩
        simpa using (atLineStart_iff _ []).2 hline
      | cons c more =>
        -- The line would start inside the code, and what starts there would be a directive.
        rw [List.append_assoc] at hscan
        have hnewline : (c :: more).getLast? = some '\n' := by
          simpa [List.getLast?_append] using hline
        have hsource := texts_scan source
        rw [hscan, List.flatMap_append, List.flatMap_cons, List.append_assoc,
          ← List.append_assoc] at hsource
        refine absurd ?_ (not_atLineStart_of_code hscan hleads)
        rw [← hsource]
        exact (atLineStart_append_iff (List.cons_ne_nil c more)).2 hnewline
  · rintro ⟨before, code, after, hscan, ⟨blanks', rest, hblanks', rfl⟩, front, blanks, hbefore,
      hline, hblanks⟩
    rw [hbefore, atLineStart_iff] at hline
    have hredact : redact source =
        front ++ (blanks ++ blanks' ++ '#' :: (rest ++ after.flatMap redacted)) := by
      rw [redact, hscan, List.flatMap_append, hbefore, List.flatMap_cons]
      simp [redacted]
    refine ⟨front, _, hredact, ?_, blanks ++ blanks', _, ?_, rfl⟩
    · rwa [hredact, atLineStart_iff]
    · intro c hc
      exact (List.mem_append.1 hc).elim (hblanks c) (hblanks' c)

/-! ### Two passes and three -/

/-- In a bare text every token ends at the end of a line, so that no hash sign follows it. -/
theorem IsBare.not_hasHashBehindToken (h : IsBare t) : ¬ HasHashBehindToken t := by
  rintro ⟨before, code, after, hscan, hleads, -⟩
  rcases List.eq_nil_or_concat before with rfl | ⟨init, ⟨kind, text⟩, rfl⟩
  · exact @not_atLineStart_of_code t [] after [] code hscan hleads (Or.inl rfl)
  · rw [List.concat_eq_append, List.append_assoc, List.singleton_append] at hscan
    have hapart := isChain_scan t
    rw [hscan, List.isChain_append_cons_cons] at hapart
    have hkind : kind ≠ .code := fun hcode => hapart.2.1 ⟨hcode, rfl⟩
    obtain rfl := h.eq_directive hscan hkind
    obtain ⟨-, hline⟩ := isToken_of_scanFrom hscan hkind
    obtain ⟨blanks, rest, hblanks, rfl⟩ := hleads
    rw [List.flatMap_cons] at hline
    rcases hline.stops with hnil | ⟨⟨next, hnext⟩, -⟩
    · simp at hnil
    · cases blanks with
      | nil => simp at hnext
      | cons c blanks =>
        obtain ⟨rfl, -⟩ := List.cons.inj hnext
        exact absurd (hblanks '\n' List.mem_cons_self) (by decide)

/-- **Redacting again.** Where the code of a sketch is free of single quotes, a second pass changes
nothing exactly if no hash sign of the code comes first in its line but for literals and comments.
A third pass never changes anything. -/
theorem redact_redact_iff (source : Text) (h : QuoteFree (scan source)) :
    (redact (redact source) = redact source ↔ ¬ HasHashBehindToken source) ∧
      redact (redact (redact source)) = redact (redact source) := by
  have hbare := isBare_redact h
  constructor
  · rw [hbare.redact_eq_self_iff, hasHashLine_redact_iff]
  · have hbare' := isBare_redact hbare.quoteFree
    rw [hbare'.redact_eq_self_iff, hasHashLine_redact_iff]
    exact hbare.not_hasHashBehindToken

/-- A comment in front of the hash sign: the second pass takes the line for a directive. -/
theorem redact_redact_iff_comment :
    QuoteFree (scan "/**/ # a \"s\"".toList) ∧ HasHashBehindToken "/**/ # a \"s\"".toList ∧
      redact (redact "/**/ # a \"s\"".toList) ≠ redact "/**/ # a \"s\"".toList ∧
      redact (redact (redact "/**/ # a \"s\"".toList)) =
        redact (redact "/**/ # a \"s\"".toList) := by
  have hscan : scan "/**/ # a \"s\"".toList = [⟨.blockComment, "/**/".toList⟩] ++
      ⟨.code, [' '] ++ '#' :: " a ".toList⟩ :: [⟨.stringLiteral, "\"s\"".toList⟩] := by
    decide +kernel
  have hquote : QuoteFree (scan "/**/ # a \"s\"".toList) := by decide +kernel
  have hspace : ∀ c ∈ [' '], isInnerBlank c = true := List.forall_mem_singleton.2 (by decide)
  have hhash : HasHashBehindToken "/**/ # a \"s\"".toList :=
    ⟨_, _, _, hscan, ⟨[' '], " a ".toList, hspace, rfl⟩, [], [' '], rfl, Or.inl rfl, hspace⟩
  obtain ⟨htwice, hthrice⟩ := redact_redact_iff _ hquote
  exact ⟨hquote, hhash, fun heq => htwice.1 heq hhash, hthrice⟩

/-- A second pass may change the text although the comment is closed and the code has no single
quote: behind the comment a directive counts as code, and once the comment has become a space it
does not. -/
theorem directive_behind_comment :
    redact "/**/ #define X \x7b".toList = "  #define X \x7b".toList ∧
      redact "  #define X \x7b".toList = [' '] ∧
      ¬ ∀ source : Text,
        (∀ region ∈ scan source, region.kind = .stringLiteral ∨ region.kind = .blockComment →
          Closed region.kind region.text) →
        QuoteFree (scan source) → redact (redact source) = redact source := by
  have hscan : scan "/**/ #define X \x7b".toList =
      [⟨.blockComment, "/**/".toList⟩, ⟨.code, " #define X \x7b".toList⟩] := by
    decide +kernel
  have honce : redact "/**/ #define X \x7b".toList = "  #define X \x7b".toList := by
    decide +kernel
  have htwice : redact "  #define X \x7b".toList = [' '] := by decide +kernel
  refine ⟨honce, htwice, fun hall => ?_⟩
  have hself := hall "/**/ #define X \x7b".toList ?_ ?_
  · rw [honce, htwice] at hself
    exact absurd hself (by decide +kernel)
  · rw [hscan]
    intro region hregion hkind
    rcases List.mem_cons.1 hregion with rfl | hregion
    · exact ⟨[], by simp, rfl⟩
    · rw [List.mem_singleton.1 hregion] at hkind
      simp at hkind
  · decide +kernel

end SketchBuild.Region
