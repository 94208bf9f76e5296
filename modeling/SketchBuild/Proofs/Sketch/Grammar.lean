import Mathlib.Data.List.Infix
import Mathlib.Data.List.TakeWhile
import SketchBuild.Sketch.Region

/-!
# The grammar of regions

What a literal, a comment or a directive is, said without the readers that find them.

* `CharItems`, `StringItems`: what stands between the quotes of a literal.
* `Closed`: a literal or comment that is complete in itself.
* `IsToken`: a region of any kind but code, together with the text after it. An unclosed string or
  block comment has nothing after it; a line comment or directive ends before a newline.

Each reader of regions is shown to find exactly what the grammar describes, and
`first?_eq_some_iff` puts them together.
-/

namespace SketchBuild.Region

/-! ### Tokens -/

/-- What may stand between the quotes of a character literal: characters other than the quote, the
backslash and the newline, and pairs of a backslash and any character but a newline. -/
inductive CharItems : Text → Prop
  | nil : CharItems []
  | plain {c : Char} {t : Text} :
      c ≠ '\'' → c ≠ '\\' → c ≠ '\n' → CharItems t → CharItems (c :: t)
  | escaped {c : Char} {t : Text} : c ≠ '\n' → CharItems t → CharItems ('\\' :: c :: t)

/-- What may stand between the quotes of a string literal: characters other than the quote and the
backslash, and pairs of a backslash and any character. -/
inductive StringItems : Text → Prop
  | nil : StringItems []
  | plain {c : Char} {t : Text} : c ≠ '"' → c ≠ '\\' → StringItems t → StringItems (c :: t)
  | escaped {c : Char} {t : Text} : StringItems t → StringItems ('\\' :: c :: t)

/-- The end of the text continues the line over a newline after it: a backslash, or a backslash and
a carriage return. -/
def Continues (t : Text) : Prop :=
  ['\\'] <:+ t ∨ ['\\', '\r'] <:+ t

instance (t : Text) : Decidable (Continues t) :=
  inferInstanceAs (Decidable (_ ∨ _))

/-- A logical line and what follows it: each of its newlines is continued, and it stops at a newline
that is not. -/
structure IsLogicalLine (t rest : Text) : Prop where
  newlines : ∀ u v, t = u ++ '\n' :: v → Continues u
  stops : rest = [] ∨ (∃ after, rest = '\n' :: after) ∧ ¬ Continues t

/-- A literal or comment that is complete in itself. -/
def Closed : Kind → Text → Prop
  | .charLiteral, t => ∃ items, CharItems items ∧ t = '\'' :: (items ++ ['\''])
  | .stringLiteral, t => ∃ items, StringItems items ∧ t = '"' :: (items ++ ['"'])
  | .lineComment, t => ∃ body, '\n' ∉ body ∧ t = '/' :: '/' :: body
  | .blockComment, t => ∃ body, ¬ ['*', '/'] <:+: body ∧ t = '/' :: '*' :: (body ++ ['*', '/'])
  | .code, _ => False
  | .directive, _ => False

/-- No string literal is closed inside the text that follows its opening quote. -/
def NeverCloses (t : Text) : Prop :=
  ∀ items after, StringItems items → t ≠ items ++ '"' :: after

/-- The text goes on with a newline or is at its end. -/
def AtLineEnd (rest : Text) : Prop :=
  rest = [] ∨ ∃ after, rest = '\n' :: after

/-- A region of any kind but code, and the text after it. -/
def IsToken : Kind → Text → Text → Prop
  | .code, _, _ => False
  | .charLiteral, t, _ => Closed .charLiteral t
  | .stringLiteral, t, rest =>
      Closed .stringLiteral t ∨ rest = [] ∧ ∃ tail, t = '"' :: tail ∧ NeverCloses tail
  | .lineComment, t, rest => Closed .lineComment t ∧ AtLineEnd rest
  | .blockComment, t, rest =>
      Closed .blockComment t ∨
        rest = [] ∧ ∃ tail, t = '/' :: '*' :: tail ∧ ¬ ['*', '/'] <:+: tail
  | .directive, t, rest =>
      (∃ blanks body, (∀ c ∈ blanks, isInnerBlank c = true) ∧ t = blanks ++ '#' :: body) ∧
        IsLogicalLine t rest

theorem IsToken.ne_code {kind : Kind} {t rest : Text} (h : IsToken kind t rest) : kind ≠ .code := by
  rintro rfl
  exact h

theorem Closed.ne_code {kind : Kind} {t : Text} (h : Closed kind t) : kind ≠ .code := by
  rintro rfl
  exact h

theorem Closed.ne_directive {kind : Kind} {t : Text} (h : Closed kind t) : kind ≠ .directive := by
  rintro rfl
  exact h

/-! ### Character literals -/

/-- A backslash ends the text or has a character behind it; with both ruled out it is none. -/
theorem ne_backslash {c : Char} {cs : Text} (hlone : c = '\\' → cs = [] → False)
    (hpair : ∀ d ds, c = '\\' → cs = d :: ds → False) : c ≠ '\\' := by
  intro hc
  cases cs with
  | nil => exact hlone hc rfl
  | cons d ds => exact hpair d ds hc rfl

theorem charTail?_cons {c : Char} (hquote : c ≠ '\'') (hbackslash : c ≠ '\\')
    (hnewline : c ≠ '\n') (cs : Text) :
    charTail? (c :: cs) = (charTail? cs).map (prepend [c]) :=
  charTail?.eq_7 _ _ hnewline hquote (by simp [hbackslash]) (by simp [hbackslash])
    (by simp [hbackslash])

theorem charTail?_items {items : Text} (h : CharItems items) (rest : Text) :
    charTail? (items ++ '\'' :: rest) = some (items ++ ['\''], rest) := by
  induction h with
  | nil => rfl
  | @plain c t hquote hbackslash hnewline _ ih =>
    rw [List.cons_append, charTail?_cons hquote hbackslash hnewline, ih]
    rfl
  | @escaped c t hnewline _ ih =>
    rw [List.cons_append, List.cons_append, charTail?.eq_6 _ _ hnewline, ih]
    rfl

theorem CharItems.newline_not_mem {items : Text} (h : CharItems items) : '\n' ∉ items := by
  induction h with
  | nil => exact List.not_mem_nil
  | plain _ _ hnewline _ ih => exact List.not_mem_cons_of_ne_of_not_mem hnewline.symm ih
  | escaped hnewline _ ih =>
    exact List.not_mem_cons_of_ne_of_not_mem (by decide)
      (List.not_mem_cons_of_ne_of_not_mem hnewline.symm ih)

theorem exists_items_of_charTail? {t : Text} {split : Text × Text} (h : charTail? t = some split) :
    ∃ items, CharItems items ∧ split.1 = items ++ ['\''] := by
  fun_induction charTail? t generalizing split with
  | case3 cs =>
    cases h
    exact ⟨[], .nil, rfl⟩
  | case6 c cs hnewline ih =>
    obtain ⟨tail, htail, rfl⟩ := Option.map_eq_some_iff.1 h
    obtain ⟨items, hitems, hsplit⟩ := ih htail
    exact ⟨'\\' :: c :: items, .escaped hnewline hitems, by simp [hsplit]⟩
  | case7 c cs hnewline hquote hlone _ hpair ih =>
    obtain ⟨tail, htail, rfl⟩ := Option.map_eq_some_iff.1 h
    obtain ⟨items, hitems, hsplit⟩ := ih htail
    have hbackslash := ne_backslash hlone hpair
    exact ⟨c :: items, .plain hquote hbackslash hnewline hitems, by simp [hsplit]⟩
  | _ => cases h

/-! ### String literals -/

theorem stringTail_items {items : Text} (h : StringItems items) (rest : Text) :
    stringTail (items ++ '"' :: rest) = (items ++ ['"'], rest) := by
  induction h with
  | nil => rfl
  | @plain c t hquote hbackslash _ ih =>
    rw [List.cons_append, stringTail.eq_4 _ _ hquote (by simp [hbackslash]), ih]
    rfl
  | @escaped c t _ ih =>
    rw [List.cons_append, List.cons_append, stringTail.eq_3, ih]
    rfl

theorem stringTail_of_neverCloses {t : Text} (h : NeverCloses t) : stringTail t = (t, []) := by
  fun_induction stringTail t with
  | case1 => rfl
  | case2 cs => exact absurd rfl (h [] cs .nil)
  | case3 c cs ih =>
    have hclosed : NeverCloses cs := by
      intro items after hitems heq
      exact h ('\\' :: c :: items) after (.escaped hitems) (by rw [heq]; rfl)
    rw [ih hclosed]
    rfl
  | case4 c cs hquote hpair ih =>
    have hclosed : NeverCloses cs := by
      intro items after hitems heq
      -- A lone backslash at the end is no item, but then nothing follows it either.
      by_cases hc : c = '\\'
      · cases cs with
        | nil => simp at heq
        | cons d ds => exact hpair d ds hc rfl
      · exact h (c :: items) after (.plain hquote hc hitems) (by rw [heq]; rfl)
    rw [ih hclosed]
    rfl

/-! ### Block comments -/

theorem infix_cons_iff_star {c : Char} {t : Text} :
    ['*', '/'] <:+: c :: t ↔ (c = '*' ∧ ∃ after, t = '/' :: after) ∨ ['*', '/'] <:+: t := by
  rw [List.infix_cons_iff, List.cons_prefix_cons]
  refine or_congr_left (and_congr eq_comm ?_)
  constructor
  · rintro ⟨after, rfl⟩
    exact ⟨after, rfl⟩
  · rintro ⟨after, rfl⟩
    exact ⟨after, rfl⟩

theorem blockTail_closed {body : Text} (h : ¬ ['*', '/'] <:+: body) (rest : Text) :
    blockTail (body ++ '*' :: '/' :: rest) = (body ++ ['*', '/'], rest) := by
  induction body with
  | nil => rfl
  | cons c cs ih =>
    rw [infix_cons_iff_star, not_or] at h
    -- The body could end the comment early only by a star and a slash of its own.
    have hearly : ∀ after, c = '*' → cs ++ '*' :: '/' :: rest = '/' :: after → False := by
      intro after hc heq
      cases cs with
      | nil => simp at heq
      | cons d ds =>
        obtain ⟨rfl, -⟩ := List.cons.inj heq
        exact h.1 ⟨hc, ds, rfl⟩
    rw [List.cons_append, blockTail.eq_3 _ _ hearly, ih h.2]
    rfl

theorem blockTail_unclosed {t : Text} (h : ¬ ['*', '/'] <:+: t) : blockTail t = (t, []) := by
  fun_induction blockTail t with
  | case1 => rfl
  | case2 cs => exact absurd (infix_cons_iff_star.2 (Or.inl ⟨rfl, cs, rfl⟩)) h
  | case3 c cs _ ih =>
    rw [infix_cons_iff_star, not_or] at h
    rw [ih h.2]
    rfl

/-- The first star and slash of a text that has them. -/
theorem exists_body_of_infix {t : Text} (h : ['*', '/'] <:+: t) :
    ∃ body after, ¬ ['*', '/'] <:+: body ∧ t = body ++ '*' :: '/' :: after := by
  induction t with
  | nil => simp at h
  | cons c cs ih =>
    rw [infix_cons_iff_star] at h
    by_cases hfirst : c = '*' ∧ ∃ after, cs = '/' :: after
    · obtain ⟨rfl, after, rfl⟩ := hfirst
      exact ⟨[], after, by simp, rfl⟩
    · obtain ⟨body, after, hbody, rfl⟩ := ih (h.resolve_left hfirst)
      refine ⟨c :: body, after, ?_, rfl⟩
      rw [infix_cons_iff_star, not_or]
      refine ⟨?_, hbody⟩
      rintro ⟨hc, tail, rfl⟩
      exact hfirst ⟨hc, _, rfl⟩

/-! ### Line comments -/

theorem not_mem_lineTail (t : Text) : '\n' ∉ (lineTail t).1 := by
  intro h
  simpa using List.mem_takeWhile_imp h

theorem atLineEnd_lineTail (t : Text) : AtLineEnd (lineTail t).2 := by
  have hhead := List.head?_dropWhile_not (· != '\n') t
  change AtLineEnd (t.dropWhile (· != '\n'))
  cases hrest : t.dropWhile (· != '\n') with
  | nil => exact Or.inl rfl
  | cons c after =>
    rw [hrest] at hhead
    obtain rfl : c = '\n' := by simpa using hhead
    exact Or.inr ⟨after, rfl⟩

theorem lineTail_eq {body rest : Text} (hbody : '\n' ∉ body) (hend : AtLineEnd rest) :
    lineTail (body ++ rest) = (body, rest) := by
  have hinner : ∀ c ∈ body, (c != '\n') = true := by
    intro c hc
    simp only [bne_iff_ne]
    rintro rfl
    exact hbody hc
  rw [lineTail, List.takeWhile_append_of_pos hinner, List.dropWhile_append_of_pos hinner]
  rcases hend with rfl | ⟨after, rfl⟩
  · simp
  · simp

/-! ### Directives -/

theorem continues_cons {c : Char} {t : Text} :
    Continues (c :: t) ↔ (c = '\\' ∧ (t = [] ∨ t = ['\r'])) ∨ Continues t := by
  unfold Continues
  rw [List.suffix_cons_iff, List.suffix_cons_iff, List.cons.injEq, List.cons.injEq, and_or_left,
    eq_comm (b := c), eq_comm (b := t), eq_comm (b := t), or_or_or_comm]

theorem continues_append_of_continues (s : Text) {t : Text} (h : Continues t) :
    Continues (s ++ t) := by
  rcases h with h | h
  · exact Or.inl (h.trans (List.suffix_append s t))
  · exact Or.inr (h.trans (List.suffix_append s t))

/-- Only what stands behind a character other than a backslash and a carriage return decides
whether the end continues a line. -/
theorem continues_append_cons {s t : Text} {d : Char} (hbackslash : d ≠ '\\') (hreturn : d ≠ '\r') :
    Continues (s ++ d :: t) ↔ Continues t := by
  induction s with
  | nil =>
    rw [List.nil_append, continues_cons, or_iff_right]
    rintro ⟨hd, -⟩
    exact hbackslash hd
  | cons c cs ih =>
    rw [List.cons_append, continues_cons, ih, or_iff_right]
    rintro ⟨-, h | h⟩
    · simp at h
    · cases cs with
      | nil => exact hreturn (List.cons.inj h).1
      | cons e es => simp at h

namespace IsLogicalLine

variable {t rest t' rest' : Text}

theorem eq_nil_of_append (h : IsLogicalLine t (t' ++ rest')) (h' : IsLogicalLine (t ++ t') rest') :
    t' = [] := by
  cases t' with
  | nil => rfl
  | cons c cs =>
    rcases h.stops with hnil | ⟨⟨after, hafter⟩, hstop⟩
    · cases hnil
    · obtain ⟨rfl, -⟩ := List.cons.inj hafter
      exact absurd (h'.newlines t cs rfl) hstop

/-- Where a logical line ends is determined by the text it is part of. -/
theorem unique (h : IsLogicalLine t rest) (h' : IsLogicalLine t' rest')
    (heq : t ++ rest = t' ++ rest') : t = t' := by
  -- One of the two is the front of the other, and the longer one would go on where the shorter
  -- one stops.
  rcases List.append_eq_append_iff.1 heq with ⟨more, rfl, rfl⟩ | ⟨more, rfl, rfl⟩
  · rw [eq_nil_of_append h h', List.append_nil]
  · rw [eq_nil_of_append h' h, List.append_nil]

/-- A character in front, unless it continues a line that would have stopped. -/
theorem cons {c : Char} (h : IsLogicalLine t rest) (hc : c ≠ '\n')
    (hpair : c = '\\' → rest ≠ [] → t ≠ [] ∧ t ≠ ['\r']) : IsLogicalLine (c :: t) rest where
  newlines := by
    intro u v heq
    cases u with
    | nil => exact absurd (List.cons.inj heq).1 hc
    | cons d u =>
      obtain ⟨rfl, rfl⟩ := List.cons.inj heq
      exact continues_append_of_continues [c] (h.newlines u v rfl)
  stops := by
    rcases h.stops with hnil | ⟨⟨after, hafter⟩, hstop⟩
    · exact Or.inl hnil
    · refine Or.inr ⟨⟨after, hafter⟩, ?_⟩
      rw [continues_cons, not_or]
      refine ⟨?_, hstop⟩
      rintro ⟨hbackslash, hend⟩
      obtain ⟨hne, hne'⟩ := hpair hbackslash (by simp [hafter])
      exact hend.elim hne hne'

/-- A continued newline in front. -/
theorem newline {s : Text} (h : IsLogicalLine t rest) (hs : Continues s) (hnewline : '\n' ∉ s) :
    IsLogicalLine (s ++ '\n' :: t) rest where
  newlines := by
    intro u v heq
    rcases List.append_eq_append_iff.1 heq with ⟨more, rfl, hmore⟩ | ⟨more, rfl, hmore⟩
    · cases more with
      | nil => simpa using hs
      | cons c more =>
        obtain ⟨rfl, rfl⟩ := List.cons.inj hmore
        exact continues_append_of_continues s
          (continues_append_of_continues ['\n'] (h.newlines more v rfl))
    · cases more with
      | nil => simpa using hs
      | cons c more =>
        obtain ⟨rfl, -⟩ := List.cons.inj hmore
        exact absurd (by simp) hnewline
  stops := by
    rcases h.stops with hnil | ⟨hafter, hstop⟩
    · exact Or.inl hnil
    · exact Or.inr ⟨hafter, fun h' => hstop
        ((continues_append_cons (by decide) (by decide)).1 h')⟩

end IsLogicalLine

theorem isLogicalLine_logicalLine (t : Text) :
    IsLogicalLine (logicalLine t).1 (logicalLine t).2 := by
  fun_induction logicalLine t with
  | case1 => exact ⟨fun u v heq => by simp at heq, Or.inl rfl⟩
  | case2 cs ih => exact ih.newline (s := ['\\']) (Or.inl List.suffix_rfl) (by decide)
  | case3 cs ih => exact ih.newline (s := ['\\', '\r']) (Or.inr List.suffix_rfl) (by decide)
  | case4 cs =>
    refine ⟨fun u v heq => by simp at heq, Or.inr ⟨⟨cs, rfl⟩, ?_⟩⟩
    simp [Continues]
  | case5 c cs hpair htriple hnewline ih =>
    -- A backslash comes here only if it continues no newline.
    refine ih.cons hnewline fun hc hrest => ?_
    have hwhole := logicalLine_append cs
    rcases ih.stops with hnil | ⟨⟨after, hafter⟩, -⟩
    · exact absurd hnil hrest
    · rw [hafter] at hwhole
      constructor
      · intro hline
        exact hpair after hc (by rw [← hwhole, hline]; rfl)
      · intro hline
        exact htriple after hc (by rw [← hwhole, hline]; rfl)

theorem logicalLine_eq {t rest : Text} (h : IsLogicalLine t rest) :
    logicalLine (t ++ rest) = (t, rest) := by
  have hwhole := logicalLine_append (t ++ rest)
  have hline := (isLogicalLine_logicalLine (t ++ rest)).unique h hwhole
  rw [hline] at hwhole
  exact Prod.ext hline (List.append_cancel_left hwhole)

theorem isLogicalLine_blanks {blanks body rest : Text}
    (hblanks : ∀ c ∈ blanks, isInnerBlank c = true) :
    IsLogicalLine (blanks ++ '#' :: body) rest ↔ IsLogicalLine ('#' :: body) rest := by
  constructor
  · intro h
    have hcontinues : ∀ u, Continues (blanks ++ '#' :: u) ↔ Continues ('#' :: u) := fun u =>
      (continues_append_cons (by decide) (by decide)).trans
        (continues_append_cons (s := []) (by decide) (by decide)).symm
    refine ⟨fun u v heq => ?_, ?_⟩
    · cases u with
      | nil => cases heq
      | cons d u =>
        obtain ⟨rfl, rfl⟩ := List.cons.inj heq
        exact (hcontinues u).1 (h.newlines (blanks ++ '#' :: u) v (by simp))
    · rw [← hcontinues]
      exact h.stops
  · intro h
    induction blanks with
    | nil => exact h
    | cons c cs ih =>
      have hc : isInnerBlank c = true := hblanks c List.mem_cons_self
      refine (ih fun d hd => hblanks d (List.mem_cons_of_mem c hd)).cons ?_ ?_
      · rintro rfl
        exact absurd hc (by decide)
      · rintro rfl
        exact absurd hc (by decide)

theorem directive?_eq_some {t rest : Text} (h : IsToken .directive t rest) :
    directive? (t ++ rest) = some (t, rest) := by
  obtain ⟨⟨blanks, body, hblanks, rfl⟩, hline⟩ := h
  have hhash : isInnerBlank '#' = false := by decide
  have hread := logicalLine_eq ((isLogicalLine_blanks hblanks).1 hline)
  simp only [List.cons_append] at hread
  simp [directive?, List.dropWhile_append_of_pos hblanks, List.takeWhile_append_of_pos hblanks,
    hhash, hread, prepend]

theorem isToken_of_directive? {t : Text} {split : Text × Text} (h : directive? t = some split) :
    IsToken .directive split.1 split.2 := by
  unfold directive? at h
  split at h
  · next cs hcs =>
    cases h
    have hline := isLogicalLine_logicalLine ('#' :: cs)
    have hblanks : ∀ c ∈ t.takeWhile isInnerBlank, isInnerBlank c = true := fun c hc =>
      List.mem_takeWhile_imp hc
    rw [logicalLine.eq_5 '#' cs (by simp) (by simp) (by decide)] at hline ⊢
    exact ⟨⟨_, _, hblanks, rfl⟩, (isLogicalLine_blanks hblanks).2 hline⟩
  · cases h

theorem directive?_cons_eq_none {c : Char} (hblank : isInnerBlank c = false) (hhash : c ≠ '#')
    (t : Text) : directive? (c :: t) = none := by
  unfold directive?
  split
  · next cs hcs =>
    rw [List.dropWhile_cons_of_neg (by simp [hblank])] at hcs
    exact absurd (List.cons.inj hcs).1 hhash
  · rfl

/-! ### All kinds together -/

theorem literalOrComment?_eq_some {kind : Kind} {t rest : Text} (h : IsToken kind t rest)
    (hkind : kind ≠ .directive) :
    literalOrComment? (t ++ rest) = some (⟨kind, t⟩, rest) ∧ directive? (t ++ rest) = none := by
  cases kind with
  | code => exact h.elim
  | directive => exact absurd rfl hkind
  | charLiteral =>
    obtain ⟨items, hitems, rfl⟩ := h
    refine ⟨?_, directive?_cons_eq_none (by decide) (by decide) _⟩
    simp [literalOrComment?, charTail?_items hitems, ofSplit, prepend]
  | stringLiteral =>
    rcases h with ⟨items, hitems, rfl⟩ | ⟨rfl, tail, rfl, htail⟩
    · refine ⟨?_, directive?_cons_eq_none (by decide) (by decide) _⟩
      simp [literalOrComment?, stringTail_items hitems, ofSplit, prepend]
    · refine ⟨?_, directive?_cons_eq_none (by decide) (by decide) _⟩
      simp [literalOrComment?, stringTail_of_neverCloses htail, ofSplit, prepend]
  | lineComment =>
    obtain ⟨⟨body, hbody, rfl⟩, hend⟩ := h
    refine ⟨?_, directive?_cons_eq_none (by decide) (by decide) _⟩
    simp [literalOrComment?, lineTail_eq hbody hend, ofSplit, prepend]
  | blockComment =>
    rcases h with ⟨body, hbody, rfl⟩ | ⟨rfl, tail, rfl, htail⟩
    · refine ⟨?_, directive?_cons_eq_none (by decide) (by decide) _⟩
      simp [literalOrComment?, blockTail_closed hbody, ofSplit, prepend]
    · refine ⟨?_, directive?_cons_eq_none (by decide) (by decide) _⟩
      simp [literalOrComment?, blockTail_unclosed htail, ofSplit, prepend]

theorem isToken_of_literalOrComment? {t : Text} {found : Region × Text}
    (h : literalOrComment? t = some found) :
    IsToken found.1.kind found.1.text found.2 ∧ found.1.kind ≠ .directive := by
  unfold literalOrComment? at h
  split at h
  · next cs =>
    obtain ⟨split, hsplit, rfl⟩ := Option.map_eq_some_iff.1 h
    obtain ⟨items, hitems, htext⟩ := exists_items_of_charTail? hsplit
    exact ⟨⟨items, hitems, by simp [ofSplit, htext]⟩, by simp [ofSplit]⟩
  · next cs =>
    cases h
    refine ⟨?_, by simp [ofSplit]⟩
    by_cases hclosed : NeverCloses cs
    · rw [stringTail_of_neverCloses hclosed]
      exact Or.inr ⟨rfl, cs, rfl, hclosed⟩
    · simp only [NeverCloses, not_forall, not_not] at hclosed
      obtain ⟨items, after, hitems, rfl⟩ := hclosed
      rw [stringTail_items hitems]
      exact Or.inl ⟨items, hitems, rfl⟩
  · next cs =>
    cases h
    exact ⟨⟨⟨_, not_mem_lineTail cs, rfl⟩, atLineEnd_lineTail cs⟩, by simp [ofSplit]⟩
  · next cs =>
    cases h
    refine ⟨?_, by simp [ofSplit]⟩
    by_cases hclosed : ['*', '/'] <:+: cs
    · obtain ⟨body, after, hbody, rfl⟩ := exists_body_of_infix hclosed
      rw [blockTail_closed hbody]
      exact Or.inl ⟨body, hbody, rfl⟩
    · rw [blockTail_unclosed hclosed]
      exact Or.inr ⟨rfl, cs, rfl, hclosed⟩
  · cases h

/-- **The readers follow the grammar.** A region is found at the front of a text exactly if the
grammar has it there; a directive only where a line starts. -/
theorem first?_eq_some_iff {b : Bool} {kind : Kind} {t text rest : Text} :
    first? b t = some (⟨kind, text⟩, rest) ↔
      t = text ++ rest ∧ IsToken kind text rest ∧ (kind = .directive → b = true) := by
  constructor
  · intro h
    refine ⟨(first?_append h).symm, ?_⟩
    unfold first? at h
    split at h
    · next split hsplit =>
      cases h
      cases b with
      | false => cases hsplit
      | true => exact ⟨isToken_of_directive? hsplit, fun _ => rfl⟩
    · obtain ⟨htoken, hkind⟩ := isToken_of_literalOrComment? h
      exact ⟨htoken, fun hdirective => absurd hdirective hkind⟩
  · rintro ⟨rfl, htoken, hb⟩
    by_cases hkind : kind = .directive
    · subst hkind
      simp [first?, hb rfl, directive?_eq_some htoken, ofSplit]
    · obtain ⟨hfound, hnone⟩ := literalOrComment?_eq_some htoken hkind
      simp [first?, hnone, hfound]

/-- No token starts with a newline. -/
theorem first?_newline (b : Bool) (t : Text) : first? b ('\n' :: t) = none := by
  have hdirective : directive? ('\n' :: t) = none :=
    directive?_cons_eq_none (by decide) (by decide) t
  simp [first?, hdirective, literalOrComment?]

/-- Behind a newline scanning starts afresh. -/
theorem scanFrom_newline (b : Bool) (t : Text) :
    scanFrom b ('\n' :: t) = consCode '\n' (scan t) :=
  scanFrom_cons_of_first?_eq_none (first?_newline b t)

end SketchBuild.Region
