import SketchBuild.Proofs.Sketch.Lookahead
import SketchBuild.Sketch.Analysis

/-!
# What redaction keeps

The redacted text of a sketch holds the characters of its code, and a space for every other
region.

* `standsInCode_of_redact`: whatever is not a space in the redacted text stands in the code.
* `scanFrom_replace`: putting another literal or comment of the same kind in the place of one
  changes no other region.
* `redact_replace`: so the content of literals and comments has no effect on the redacted text, nor
  on the prototypes found in it.
-/

namespace SketchBuild.Region

/-- The character at an offset of the redacted sketch belongs to a region of code. -/
def StandsInCode (source : Text) (n : Nat) : Prop :=
  ∃ before code after, scan source = before ++ ⟨.code, code⟩ :: after ∧
    (before.flatMap redacted).length ≤ n ∧ n < (before.flatMap redacted).length + code.length

theorem exists_code_of_flatMap_redacted {regions : List Region} {n : Nat} {c : Char}
    (h : (regions.flatMap redacted)[n]? = some c) (hc : c ≠ ' ') :
    ∃ before code after, regions = before ++ ⟨.code, code⟩ :: after ∧
      (before.flatMap redacted).length ≤ n ∧
      n < (before.flatMap redacted).length + code.length := by
  induction regions generalizing n with
  | nil => simp at h
  | cons region regions ih =>
    rw [List.flatMap_cons] at h
    by_cases hn : n < (redacted region).length
    · rw [List.getElem?_append_left hn] at h
      obtain ⟨kind, text⟩ := region
      by_cases hkind : kind = .code
      · subst hkind
        exact ⟨[], text, regions, rfl, Nat.zero_le n, by simpa [redacted] using hn⟩
      · have hspace : redacted ⟨kind, text⟩ = [' '] := if_neg hkind
        rw [hspace] at h
        exact absurd (List.mem_singleton.1 (List.mem_of_getElem? h)) hc
    · rw [List.getElem?_append_right (by omega)] at h
      obtain ⟨before, code, after, hregions, hle, hlt⟩ := ih h
      refine ⟨region :: before, code, after, by rw [hregions]; rfl, ?_, ?_⟩
      · rw [List.flatMap_cons, List.length_append]
        omega
      · rw [List.flatMap_cons, List.length_append]
        omega

/-- Whatever is not a space in the redacted text stands in the code of the sketch. -/
theorem standsInCode_of_redact {source : Text} {n : Nat} {c : Char}
    (h : (redact source)[n]? = some c) (hc : c ≠ ' ') : StandsInCode source n :=
  exists_code_of_flatMap_redacted h hc

theorem redacted_of_first? {b : Bool} {t : Text} {region : Region} {rest : Text}
    (h : first? b t = some (region, rest)) : redacted region = [' '] :=
  if_neg (first?_eq_some_iff.1 h).2.1.ne_code

/-! ### Code in front of regions -/

/-- No code among the regions holds a single quote. -/
def QuoteFree (regions : List Region) : Prop :=
  ∀ region ∈ regions, region.kind = .code → '\'' ∉ region.text

instance (regions : List Region) : Decidable (QuoteFree regions) :=
  inferInstanceAs (Decidable (∀ region ∈ regions, region.kind = .code → '\'' ∉ region.text))

section ConsCode

variable {c : Char} {regions before after : List Region} {region : Region}

/-- A character of code joins the code after it, or stands alone in front of anything else. -/
theorem consCode_cases (c : Char) (regions : List Region) :
    (∃ t more, regions = ⟨.code, t⟩ :: more ∧ consCode c regions = ⟨.code, c :: t⟩ :: more) ∨
      (∀ t more, regions ≠ ⟨.code, t⟩ :: more) ∧
        consCode c regions = ⟨.code, [c]⟩ :: regions := by
  unfold consCode
  split
  · exact Or.inl ⟨_, _, rfl, rfl⟩
  · next hother => exact Or.inr ⟨fun t more h => hother t more h, rfl⟩

@[simp] theorem redacted_consCode (c : Char) (regions : List Region) :
    (consCode c regions).flatMap redacted = c :: regions.flatMap redacted := by
  rcases consCode_cases c regions with ⟨t, more, rfl, hcons⟩ | ⟨-, hcons⟩
  · rw [hcons]
    simp [redacted]
  · rw [hcons]
    simp [redacted]

theorem ne_code_cons_of_append (hregion : region.kind ≠ .code)
    (h : ∀ t more, before ≠ ⟨.code, t⟩ :: more) (t : Text) (more : List Region) :
    before ++ region :: after ≠ ⟨.code, t⟩ :: more := by
  intro heq
  cases before with
  | nil =>
    obtain ⟨rfl, -⟩ := List.cons.inj heq
    exact hregion rfl
  | cons first before =>
    obtain ⟨rfl, -⟩ := List.cons.inj heq
    exact h t before rfl

theorem consCode_append (hregion : region.kind ≠ .code) :
    consCode c (before ++ region :: after) = consCode c before ++ region :: after := by
  rcases consCode_cases c before with ⟨t, more, rfl, -⟩ | ⟨hother, hbefore⟩
  · rfl
  · rcases consCode_cases c (before ++ region :: after) with ⟨t, more, heq, -⟩ | ⟨-, hall⟩
    · exact absurd heq (ne_code_cons_of_append hregion hother t more)
    · rw [hall, hbefore, List.cons_append]

theorem exists_of_consCode_eq (hregion : region.kind ≠ .code)
    (h : consCode c regions = before ++ region :: after) :
    ∃ before', regions = before' ++ region :: after ∧ before = consCode c before' := by
  rcases consCode_cases c regions with ⟨t, more, rfl, hcons⟩ | ⟨hother, hcons⟩
  · rw [hcons] at h
    cases before with
    | nil =>
      obtain ⟨rfl, -⟩ := List.cons.inj h
      exact absurd rfl hregion
    | cons first before =>
      obtain ⟨rfl, rfl⟩ := List.cons.inj h
      exact ⟨⟨.code, t⟩ :: before, rfl, rfl⟩
  · rw [hcons] at h
    cases before with
    | nil =>
      obtain ⟨rfl, -⟩ := List.cons.inj h
      exact absurd rfl hregion
    | cons first before =>
      obtain ⟨rfl, rfl⟩ := List.cons.inj h
      refine ⟨before, rfl, ?_⟩
      rcases consCode_cases c before with ⟨t, more, rfl, -⟩ | ⟨-, hbefore⟩
      · exact absurd rfl (hother t _)
      · exact hbefore.symm

theorem QuoteFree.of_consCode (h : QuoteFree (consCode c regions)) :
    c ≠ '\'' ∧ QuoteFree regions := by
  rcases consCode_cases c regions with ⟨t, more, rfl, hcons⟩ | ⟨-, hcons⟩
  · rw [hcons] at h
    have hfirst := h _ List.mem_cons_self rfl
    rw [List.mem_cons, not_or] at hfirst
    refine ⟨fun hc => hfirst.1 hc.symm, fun region hmem hkind => ?_⟩
    rcases List.mem_cons.1 hmem with rfl | hmem
    · exact hfirst.2
    · exact h region (List.mem_cons_of_mem _ hmem) hkind
  · rw [hcons] at h
    have hfirst := h _ List.mem_cons_self rfl
    refine ⟨fun hc => hfirst (by simp [hc]), fun region hmem hkind => ?_⟩
    exact h region (List.mem_cons_of_mem _ hmem) hkind

end ConsCode

/-! ### Exchanging a literal or comment -/

/-- A region of a scan is a token in front of the text of the regions after it. -/
theorem isToken_of_scanFrom {b : Bool} {source t : Text} {kind : Kind} {before after : List Region}
    (h : scanFrom b source = before ++ ⟨kind, t⟩ :: after) (hkind : kind ≠ .code) :
    IsToken kind t (after.flatMap text) := by
  fun_induction scanFrom b source generalizing before with
  | case1 => simp at h
  | case2 b c cs region rest hfirst ih =>
    cases before with
    | nil =>
      obtain ⟨rfl, rfl⟩ := List.cons.inj h
      rw [texts_scanFrom]
      exact (first?_eq_some_iff.1 hfirst).2.1
    | cons first before => exact ih (List.cons.inj h).2
  | case3 b c cs hfirst ih =>
    obtain ⟨before', hregions, -⟩ := exists_of_consCode_eq hkind h
    exact ih hregions

/-- Scanning on from any point in front of a literal or comment, another one of the same kind in
its place is found there, and the same regions before and after it. -/
theorem scanFrom_replace {kind : Kind} {t t' q : Text} (htoken : IsToken kind t q)
    (hclosed : Closed kind t') {b : Bool} {p : Text} {before after : List Region}
    (hscan : scanFrom b (p ++ (t ++ q)) = before ++ ⟨kind, t⟩ :: after)
    (hp : before.flatMap text = p) (hquote : QuoteFree before) :
    scanFrom b (p ++ (t' ++ q)) = before ++ ⟨kind, t'⟩ :: after := by
  have hkind := hclosed.ne_directive
  have htoken' := htoken.of_closed hclosed
  obtain ⟨u, hu⟩ := htoken.exists_opening hkind
  obtain ⟨u', hu'⟩ := htoken'.exists_opening hkind
  -- The two texts agree up to and including the first character of the token, and the induction
  -- shows that the scan of what stands before it never looks further than that.
  generalize hs : p ++ (t ++ q) = s at hscan
  fun_induction scanFrom b s generalizing p before with
  | case1 => simp at hscan
  | case2 b c cs region rest h ih =>
    rw [← hs] at h
    have hsplit := first?_append h
    cases before with
    | nil =>
      obtain ⟨rfl, rfl⟩ := List.cons.inj hscan
      obtain rfl : p = [] := hp.symm
      obtain rfl : rest = q := List.append_cancel_left hsplit
      exact scanFrom_of_first?
        (first?_eq_some_iff.2 ⟨rfl, htoken', fun hdirective => absurd hdirective hkind⟩)
    | cons first before =>
      obtain ⟨rfl, hrest⟩ := List.cons.inj hscan
      rw [List.flatMap_cons] at hp
      subst hp
      rw [List.append_assoc] at hsplit
      obtain rfl := List.append_cancel_left hsplit
      obtain ⟨-, hregion, hline⟩ := first?_eq_some_iff.1 h
      -- An earlier token sees no more than one character of what follows it.
      have hstable : IsToken region.kind region.text (before.flatMap text ++ (t' ++ q)) := by
        rw [hu, List.cons_append] at hregion
        rw [hu', List.cons_append]
        exact hregion.congr_append
      have hfirst : first? b (region.text ++ before.flatMap text ++ (t' ++ q)) =
          some (region, before.flatMap text ++ (t' ++ q)) :=
        first?_eq_some_iff.2 ⟨List.append_assoc _ _ _, hstable, hline⟩
      have hquote' : QuoteFree before := fun r hr => hquote r (List.mem_cons_of_mem _ hr)
      rw [scanFrom_of_first? hfirst, ih rfl hquote' rfl hrest]
      rfl
  | case3 b c cs h ih =>
    obtain ⟨before', hregions, rfl⟩ := exists_of_consCode_eq htoken.ne_code hscan
    obtain ⟨hc, hquote'⟩ := hquote.of_consCode
    rw [texts_consCode] at hp
    subst hp
    obtain ⟨-, rfl⟩ := List.cons.inj hs
    -- A character of code opens no token in the new text either: it is not a single quote.
    have hnone : first? b (c :: (before'.flatMap text ++ (t' ++ q))) = none := by
      rw [first?_eq_none_iff hc] at h ⊢
      intro hopens
      apply h
      rw [hu', List.cons_append, ← List.cons_append] at hopens
      rw [hu, List.cons_append, ← List.cons_append]
      exact opens_congr (List.cons_ne_nil _ _) (isInnerBlank_opening kind) (opening_ne_hash kind)
        hopens
    rw [List.cons_append, scanFrom_cons_of_first?_eq_none hnone, ih rfl hquote' rfl hregions,
      consCode_append htoken.ne_code]

/-- **Contents do not matter.** Where a sketch has a literal or comment and no stray single quote in
the code before it, any complete literal or comment of the same kind can stand in its place: the
redacted text is the same, and so are the prototypes in both modes of collapsing. -/
theorem redact_replace {p t t' q : Text} {kind : Kind} {before after : List Region}
    (hscan : scan (p ++ t ++ q) = before ++ ⟨kind, t⟩ :: after) (hp : before.flatMap text = p)
    (hquote : QuoteFree before) (hclosed : Closed kind t') :
    redact (p ++ t' ++ q) = redact (p ++ t ++ q) ∧
      ∀ options : SketchOptions, (Analysis.ofSource options (p ++ t' ++ q)).prototypes =
        (Analysis.ofSource options (p ++ t ++ q)).prototypes := by
  have hkind := hclosed.ne_code
  have hq : after.flatMap text = q := by
    have htexts := texts_scan (p ++ t ++ q)
    rw [hscan, List.flatMap_append, List.flatMap_cons, hp, List.append_assoc] at htexts
    exact List.append_cancel_left (List.append_cancel_left htexts)
  have htoken := isToken_of_scanFrom hscan hkind
  rw [hq] at htoken
  have hredact : redact (p ++ t' ++ q) = redact (p ++ t ++ q) := by
    have hscan' : scan (p ++ t' ++ q) = before ++ ⟨kind, t'⟩ :: after := by
      rw [List.append_assoc] at hscan ⊢
      exact scanFrom_replace htoken hclosed hscan hp hquote
    have hspace : ∀ u, redacted ⟨kind, u⟩ = [' '] := fun u => if_neg hkind
    rw [redact, redact, hscan, hscan', List.flatMap_append, List.flatMap_append, List.flatMap_cons,
      List.flatMap_cons, hspace, hspace]
  refine ⟨hredact, fun options => ?_⟩
  change Analysis.prototypesOf options _ = Analysis.prototypesOf options _
  rw [Analysis.prototypesOf, hredact, Analysis.prototypesOf]

/-- An empty string gives way to one that holds a brace, both quotes, and a hash sign at the start
of a line. -/
theorem redact_replace_string :
    scan (['s'] ++ ['"', '"'] ++ [';', '}']) =
        [⟨.code, ['s']⟩] ++ ⟨.stringLiteral, ['"', '"']⟩ :: [⟨.code, [';', '}']⟩] ∧
      QuoteFree [⟨.code, ['s']⟩] ∧
      Closed .stringLiteral ['"', '{', '\\', '"', '\'', '\n', '#', '"'] ∧
      redact (['s'] ++ ['"', '{', '\\', '"', '\'', '\n', '#', '"'] ++ [';', '}']) =
        redact (['s'] ++ ['"', '"'] ++ [';', '}']) := by
  have hscan : scan (['s'] ++ ['"', '"'] ++ [';', '}']) =
      [⟨.code, ['s']⟩] ++ ⟨.stringLiteral, ['"', '"']⟩ :: [⟨.code, [';', '}']⟩] := by
    decide +kernel
  have hquote : QuoteFree [⟨.code, ['s']⟩] := by
    simp [QuoteFree]
  have hitems : StringItems ['{', '\\', '"', '\'', '\n', '#'] :=
    .plain (by decide) (by decide) (.escaped (.plain (by decide) (by decide)
      (.plain (by decide) (by decide) (.plain (by decide) (by decide) .nil))))
  have hclosed : Closed .stringLiteral ['"', '{', '\\', '"', '\'', '\n', '#', '"'] :=
    ⟨_, hitems, rfl⟩
  exact ⟨hscan, hquote, hclosed, (redact_replace hscan rfl hquote hclosed).1⟩

end SketchBuild.Region
