import Mathlib.Data.List.Chain
import SketchBuild.Proofs.Sketch.Grammar

/-!
# The tokenisation of a sketch

The grammar says what a region may be; a tokenisation cuts a whole text along it. Where a token can
start, one does: code is what is left between the tokens.

* `TokenAt`: a span of a text is a token of the grammar.
* `IsTokenisation`: spans that cover a text from an offset on, as tokens and code.
* `IsTokenisation.unique`: a text has one tokenisation at most.
* `isTokenisation_scanFrom`: scanning finds one.
* `isTokenisation_iff`: the spans of a sketch are its only tokenisation.
-/

namespace SketchBuild.Region

/-- A line starts at the offset: it is the start of the text or comes right after a newline. -/
def AtLineStart (source : Text) (i : Nat) : Prop :=
  i = 0 ∨ source[i - 1]? = some '\n'

instance (source : Text) (i : Nat) : Decidable (AtLineStart source i) :=
  inferInstanceAs (Decidable (_ ∨ _))

/-- The span is a token of the grammar, with what follows it in the text. -/
structure TokenAt (source : Text) (span : Span) : Prop where
  start_lt : span.start < span.stop
  stop_le : span.stop ≤ source.length
  token : IsToken span.kind ((source.take span.stop).drop span.start) (source.drop span.stop)
  lineStart : span.kind = .directive → AtLineStart source span.start

/-- Spans that are not empty and follow one another from one offset to another. -/
inductive Covers : Nat → List Span → Nat → Prop
  | nil (k : Nat) : Covers k [] k
  | cons {span : Span} {spans : List Span} {stop : Nat} :
      span.start < span.stop → Covers span.stop spans stop → Covers span.start (span :: spans) stop

/-- The spans cut the text from offset `k` on: tokens, and between them code in which no token
starts. -/
structure IsTokenisation (source : Text) (k : Nat) (spans : List Span) : Prop where
  covers : Covers k spans source.length
  apart : spans.IsChain fun a b => ¬ (a.kind = .code ∧ b.kind = .code)
  tokens : ∀ span ∈ spans, span.kind ≠ .code → TokenAt source span
  code : ∀ span ∈ spans, span.kind = .code → ∀ i, span.start ≤ i → i < span.stop →
    ∀ kind stop, ¬ TokenAt source ⟨kind, i, stop⟩

variable {source : Text} {k : Nat} {spans spans' : List Span} {span span' : Span}

/-! ### Uniqueness -/

theorem Covers.le {stop : Nat} (h : Covers k spans stop) : k ≤ stop := by
  induction h with
  | nil => exact Nat.le_refl _
  | cons hlt _ ih => omega

theorem Covers.eq_of_nil {stop : Nat} (h : Covers k [] stop) : k = stop := by
  cases h; rfl

theorem Covers.exists_mem {stop i : Nat} (h : Covers k spans stop) (hk : k ≤ i) (hi : i < stop) :
    ∃ span ∈ spans, span.start ≤ i ∧ i < span.stop := by
  induction h with
  | nil => omega
  | @cons span spans stop _ _ ih =>
    by_cases hfirst : i < span.stop
    · exact ⟨span, List.mem_cons_self, hk, hfirst⟩
    · obtain ⟨found, hmem, hfound⟩ := ih (by omega) hi
      exact ⟨found, List.mem_cons_of_mem span hmem, hfound⟩

/-- A token is what the readers find where it starts. -/
theorem TokenAt.first? (h : TokenAt source span) {b : Bool}
    (hb : AtLineStart source span.start → b = true) :
    first? b (source.drop span.start) =
      some (⟨span.kind, (source.take span.stop).drop span.start⟩, source.drop span.stop) := by
  refine first?_eq_some_iff.2 ⟨?_, h.token, fun hkind => hb (h.lineStart hkind)⟩
  have hstart := h.start_lt
  have hsplit := List.take_append_drop span.stop source
  conv_lhs => rw [← hsplit]
  rw [List.drop_append_of_le_length]
  rw [List.length_take]
  have := h.stop_le
  omega

/-- At most one token starts at an offset. -/
theorem TokenAt.unique {kind kind' : Kind} {stop stop' : Nat} (h : TokenAt source ⟨kind, k, stop⟩)
    (h' : TokenAt source ⟨kind', k, stop'⟩) : kind = kind' ∧ stop = stop' := by
  have hfound := (h.first? fun _ => rfl).symm.trans (h'.first? (b := true) fun _ => rfl)
  have hpair := Prod.mk.inj (Option.some.inj hfound)
  have hlength := congrArg List.length hpair.2
  rw [List.length_drop, List.length_drop] at hlength
  have hle := h.stop_le
  have hle' := h'.stop_le
  refine ⟨congrArg Region.kind hpair.1, ?_⟩
  simp only at hlength hle hle'
  omega

namespace IsTokenisation

theorem tail (h : IsTokenisation source k (span :: spans)) :
    IsTokenisation source span.stop spans where
  covers := by cases h.covers; assumption
  apart := h.apart.of_cons
  tokens := fun s hs => h.tokens s (List.mem_cons_of_mem span hs)
  code := fun s hs => h.code s (List.mem_cons_of_mem span hs)

theorem start_eq (h : IsTokenisation source k (span :: spans)) : span.start = k := by
  cases h.covers; rfl

theorem start_lt (h : IsTokenisation source k (span :: spans)) : k < span.stop := by
  cases h.covers; assumption

theorem lt_length (h : IsTokenisation source k (span :: spans)) : k < source.length :=
  Nat.lt_of_lt_of_le h.start_lt h.tail.covers.le

/-- Code stops no later in one tokenisation than in another, for a token would start inside it. -/
theorem stop_le_of_code (h : IsTokenisation source k (span :: spans))
    (h' : IsTokenisation source k (span' :: spans')) (hkind : span.kind = .code)
    (hkind' : span'.kind = .code) : span'.stop ≤ span.stop := by
  by_contra hlt
  have hstop := h'.tail.covers.le
  cases spans with
  | nil =>
    have hend := h.tail.covers.eq_of_nil
    omega
  | cons next more =>
    have hnext : next.kind ≠ .code := fun hcode =>
      (List.isChain_cons_cons.1 h.apart).1 ⟨hkind, hcode⟩
    have hstart := h.tail.start_eq
    have hlt' := h.start_lt
    have hk := h'.start_eq
    exact h'.code span' (by simp) hkind' next.start (by omega) (by omega) next.kind next.stop
      (h.tokens next (by simp) hnext)

/-- Two tokenisations begin with the same span. -/
theorem head_eq (h : IsTokenisation source k (span :: spans))
    (h' : IsTokenisation source k (span' :: spans')) : span = span' := by
  obtain ⟨kind, start, stop⟩ := span
  obtain ⟨kind', start', stop'⟩ := span'
  obtain rfl : start = k := h.start_eq
  obtain rfl : start' = start := h'.start_eq
  -- A token and code cannot both start here, as no token starts inside code.
  by_cases hkind : kind = .code
  · by_cases hkind' : kind' = .code
    · have hstop := Nat.le_antisymm (h'.stop_le_of_code h hkind' hkind)
        (h.stop_le_of_code h' hkind hkind')
      rw [hkind, hkind', show stop = stop' from hstop]
    · exact absurd (h'.tokens _ List.mem_cons_self hkind')
        (h.code _ List.mem_cons_self hkind start' (Nat.le_refl _) h.start_lt kind' stop')
  · by_cases hkind' : kind' = .code
    · exact absurd (h.tokens _ List.mem_cons_self hkind)
        (h'.code _ List.mem_cons_self hkind' start' (Nat.le_refl _) h'.start_lt kind stop)
    · obtain ⟨rfl, rfl⟩ := (h.tokens _ List.mem_cons_self hkind).unique
        (h'.tokens _ List.mem_cons_self hkind')
      rfl

/-- **A text has one tokenisation at most.** -/
theorem unique (h : IsTokenisation source k spans) (h' : IsTokenisation source k spans') :
    spans = spans' := by
  induction spans generalizing k spans' with
  | nil =>
    cases spans' with
    | nil => rfl
    | cons span' spans' =>
      have hend := h.covers.eq_of_nil
      have hlt := h'.lt_length
      omega
  | cons span spans ih =>
    cases spans' with
    | nil =>
      have hend := h'.covers.eq_of_nil
      have hlt := h.lt_length
      omega
    | cons span' spans' =>
      obtain rfl := h.head_eq h'
      rw [ih h.tail h'.tail]

end IsTokenisation

/-! ### Scanning gives a tokenisation -/

/-- A token ends where its line ends, or with a quote or a slash. -/
theorem IsToken.ends {kind : Kind} {t rest : Text} (h : IsToken kind t rest) :
    AtLineEnd rest ∨ ∃ c ∈ t.getLast?, c = '\'' ∨ c = '"' ∨ c = '/' := by
  cases kind with
  | code => exact h.elim
  | charLiteral =>
    obtain ⟨items, -, rfl⟩ := h
    rw [← List.cons_append, List.getLast?_concat]
    exact Or.inr ⟨_, rfl, by decide⟩
  | stringLiteral =>
    rcases h with ⟨items, -, rfl⟩ | ⟨hrest, -⟩
    · rw [← List.cons_append, List.getLast?_concat]
      exact Or.inr ⟨_, rfl, by decide⟩
    · exact Or.inl (Or.inl hrest)
  | lineComment => exact Or.inl h.2
  | blockComment =>
    rcases h with ⟨body, -, rfl⟩ | ⟨hrest, -⟩
    · have hslash : '/' :: '*' :: (body ++ ['*', '/']) =
          '/' :: '*' :: (body ++ ['*']) ++ ['/'] := by
        simp
      rw [hslash, List.getLast?_concat]
      exact Or.inr ⟨_, rfl, by decide⟩
    · exact Or.inl (Or.inl hrest)
  | directive =>
    rcases h.2.stops with hrest | ⟨hafter, -⟩
    · exact Or.inl (Or.inl hrest)
    · exact Or.inl (Or.inr hafter)

/-- What follows a token that ends with a newline is at the end of a line itself. -/
theorem IsToken.atLineEnd {kind : Kind} {t rest : Text} (h : IsToken kind t rest)
    (hnewline : t.getLast? = some '\n') : AtLineEnd rest := by
  rcases h.ends with hend | ⟨c, hc, hquote⟩
  · exact hend
  · obtain rfl : '\n' = c := Option.some.inj (hnewline.symm.trans hc)
    exact absurd hquote (by decide)

/-- No directive starts at the end of a line. -/
theorem first?_of_atLineEnd {rest : Text} (h : AtLineEnd rest) (b : Bool) :
    first? b rest = first? false rest := by
  rcases h with rfl | ⟨after, rfl⟩
  · cases b <;> rfl
  · rw [first?_newline, first?_newline]

namespace IsTokenisation

theorem cons_token (h : IsTokenisation source span.stop spans) (htoken : TokenAt source span) :
    IsTokenisation source span.start (span :: spans) where
  covers := .cons htoken.start_lt h.covers
  apart := List.isChain_cons.2 ⟨fun _ _ hcode => htoken.token.ne_code hcode.1, h.apart⟩
  tokens := by
    intro s hs hkind
    rcases List.mem_cons.1 hs with rfl | hs
    · exact htoken
    · exact h.tokens s hs hkind
  code := by
    intro s hs hkind
    rcases List.mem_cons.1 hs with rfl | hs
    · exact absurd hkind htoken.token.ne_code
    · exact h.code s hs hkind

theorem cons_code {stop : Nat} (h : IsTokenisation source stop spans) (hlt : k < stop)
    (hnext : ∀ next ∈ spans.head?, next.kind ≠ .code)
    (hnone : ∀ i, k ≤ i → i < stop → ∀ kind stop, ¬ TokenAt source ⟨kind, i, stop⟩) :
    IsTokenisation source k (⟨.code, k, stop⟩ :: spans) where
  covers := @Covers.cons ⟨.code, k, stop⟩ spans source.length hlt h.covers
  apart := List.isChain_cons.2 ⟨fun next hmem hcode => hnext next hmem hcode.2, h.apart⟩
  tokens := by
    intro s hs hkind
    rcases List.mem_cons.1 hs with rfl | hs
    · exact absurd rfl hkind
    · exact h.tokens s hs hkind
  code := by
    intro s hs hkind
    rcases List.mem_cons.1 hs with rfl | hs
    · exact hnone
    · exact h.code s hs hkind

/-- A character of code in front, either joined to the code after it or on its own. -/
theorem consCode {c : Char} {regions : List Region}
    (h : IsTokenisation source (k + 1) (spansFrom (k + 1) regions))
    (hnone : ∀ kind stop, ¬ TokenAt source ⟨kind, k, stop⟩) :
    IsTokenisation source k (spansFrom k (Region.consCode c regions)) := by
  unfold Region.consCode
  split
  · next t regions =>
    have hstop : k + (c :: t).length = k + 1 + t.length := by
      rw [List.length_cons]; omega
    rw [spansFrom] at h ⊢
    simp only [hstop] at h ⊢
    have hlt : k < k + 1 + t.length := by omega
    refine h.tail.cons_code hlt (fun next hmem hcode => ?_) fun i hi hi' => ?_
    · exact (List.isChain_cons.1 h.apart).1 next hmem ⟨rfl, hcode⟩
    · by_cases hik : i = k
      · rw [hik]; exact hnone
      · exact h.code _ List.mem_cons_self rfl i (show k + 1 ≤ i by omega) hi'
  · next hother =>
    refine h.cons_code (Nat.lt_succ_self k) ?_ fun i hi hlt => ?_
    · intro next hmem
      cases regions with
      | nil => cases hmem
      | cons region regions =>
        obtain ⟨kind, t⟩ := region
        cases hmem
        rintro rfl
        exact hother t regions rfl
    · obtain rfl : i = k := by omega
      exact hnone

end IsTokenisation

/-- After a text that is not empty a line starts exactly if the text ends with a newline. -/
theorem atLineStart_append_iff {pre t rest : Text} (hne : t ≠ []) :
    AtLineStart (pre ++ t ++ rest) (pre ++ t).length ↔ t.getLast? = some '\n' := by
  have hpos := List.length_pos_iff.2 hne
  rw [AtLineStart, or_iff_right (by rw [List.length_append]; omega),
    List.getElem?_append_left (by rw [List.length_append]; omega), List.getLast?_eq_getElem?,
    List.getElem?_append_right (by rw [List.length_append]; omega), List.length_append,
    show pre.length + t.length - 1 - pre.length = t.length - 1 by omega]

theorem tokenAt_append {kind : Kind} {pre t rest : Text} (hne : t ≠ [])
    (htoken : IsToken kind t rest)
    (hline : kind = .directive → AtLineStart (pre ++ t ++ rest) pre.length) :
    TokenAt (pre ++ t ++ rest) ⟨kind, pre.length, (pre ++ t).length⟩ where
  start_lt := by
    have hpos := List.length_pos_iff.2 hne
    show pre.length < (pre ++ t).length
    rw [List.length_append]; omega
  stop_le := (List.prefix_append (pre ++ t) rest).length_le
  token := by
    show IsToken kind (((pre ++ t ++ rest).take (pre ++ t).length).drop pre.length)
      ((pre ++ t ++ rest).drop (pre ++ t).length)
    rwa [List.take_left, List.drop_left, List.drop_left]
  lineStart := hline

/-- Scanning the rest of a text gives a tokenisation of it. The flag need only be right where it
matters: after a token the scan goes on as if inside a line. -/
theorem isTokenisation_scanFrom (pre : Text) {b : Bool} {t : Text}
    (hb : first? b t = first? (decide (AtLineStart (pre ++ t) pre.length)) t) :
    IsTokenisation (pre ++ t) pre.length (spansFrom pre.length (scanFrom b t)) := by
  fun_induction scanFrom b t generalizing pre with
  | case1 =>
    rw [List.append_nil]
    exact ⟨.nil _, .nil, by simp [spansFrom], by simp [spansFrom]⟩
  | case2 b c cs region rest h ih =>
    obtain ⟨kind, text⟩ := region
    have hne : text ≠ [] := first?_text_ne_nil h
    rw [h] at hb
    obtain ⟨hsplit, htoken, hline⟩ := first?_eq_some_iff.1 hb.symm
    rw [hsplit, ← List.append_assoc] at hline ⊢
    -- Only after a newline is the flag wrong, and there no directive starts.
    have hrest : first? false rest =
        first? (decide (AtLineStart (pre ++ text ++ rest) (pre ++ text).length)) rest := by
      by_cases hstart : AtLineStart (pre ++ text ++ rest) (pre ++ text).length
      · exact (first?_of_atLineEnd
          (htoken.atLineEnd ((atLineStart_append_iff hne).1 hstart)) _).symm
      · rw [decide_eq_false hstart]
    have hnext := ih (pre ++ text) hrest
    rw [spansFrom, ← List.length_append]
    exact hnext.cons_token
      (tokenAt_append hne htoken fun hkind => of_decide_eq_true (hline hkind))
  | case3 b c cs h ih =>
    have hflag : (c == '\n') = decide (AtLineStart (pre ++ [c] ++ cs) (pre ++ [c]).length) := by
      rw [Bool.eq_iff_iff, decide_eq_true_eq, atLineStart_append_iff (List.cons_ne_nil c [])]
      simp
    have hnext := ih (pre ++ [c]) (by rw [hflag])
    rw [List.append_assoc, List.singleton_append, List.length_append,
      List.length_singleton] at hnext
    -- A token that starts here would have been found.
    refine hnext.consCode fun kind stop htoken => ?_
    have hfound := htoken.first? (b := decide (AtLineStart (pre ++ c :: cs) pre.length))
      decide_eq_true
    rw [List.drop_left, ← hb, h] at hfound
    cases hfound

/-! ### Regions by offset -/

theorem isTokenisation_spans (source : Text) : IsTokenisation source 0 (Region.spans source) :=
  isTokenisation_scanFrom [] (by simp [AtLineStart])

theorem map_kind_spansFrom (k : Nat) (regions : List Region) :
    (spansFrom k regions).map Span.kind = regions.map Region.kind := by
  induction regions generalizing k with
  | nil => rfl
  | cons region regions ih => rw [spansFrom, List.map_cons, List.map_cons, ih]

/-- No two neighbours among the regions are both code. -/
theorem isChain_scan (source : Text) :
    (scan source).IsChain fun a b => ¬ (a.kind = .code ∧ b.kind = .code) := by
  have hapart := (isTokenisation_spans source).apart
  rw [← List.isChain_map Span.kind (R := fun a b => ¬ (a = .code ∧ b = .code)), Region.spans,
    map_kind_spansFrom] at hapart
  exact (List.isChain_map Region.kind).1 hapart

theorem spansFrom_append (k : Nat) (before after : List Region) :
    spansFrom k (before ++ after) =
      spansFrom k before ++ spansFrom (k + (before.flatMap text).length) after := by
  induction before generalizing k with
  | nil => rfl
  | cons region before ih =>
    rw [List.cons_append, spansFrom, spansFrom, ih, List.flatMap_cons, List.length_append,
      Nat.add_assoc]
    rfl

/-- A region stands behind the texts of the regions before it. -/
theorem mem_spans_of_scan {region : Region} {before after : List Region}
    (hscan : scan source = before ++ region :: after) :
    (⟨region.kind, (before.flatMap text).length,
      (before.flatMap text).length + region.text.length⟩ : Span) ∈ Region.spans source := by
  rw [Region.spans, hscan, spansFrom_append, Nat.zero_add, spansFrom]
  simp

/-- **The scanner computes the only tokenisation.** The spans of a sketch, and no others, cover it
without gaps, have no two neighbours that are both code, follow the grammar where they are not code,
and leave no token unread where they are. -/
theorem isTokenisation_iff (source : Text) (spans : List Span) :
    IsTokenisation source 0 spans ↔ spans = Region.spans source := by
  have hscan : IsTokenisation source 0 (Region.spans source) :=
    isTokenisation_scanFrom [] (by simp [AtLineStart])
  constructor
  · intro h
    exact h.unique hscan
  · rintro rfl
    exact hscan

end SketchBuild.Region
