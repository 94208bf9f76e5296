import Mathlib.Data.List.DropRight
import SketchBuild.Text.Basic

/-!
# Pieces and ends of texts

Splitting a text at a separator or into lines, trimming the blanks off its end, and replacing one of
its characters.

* `split_append_cons`: a separator cuts a text in two, and the pieces of the two parts follow one
  another.
* `split_join`: pieces that hold no separator are read back after they are joined.
* `length_split`: there is one piece more than there are separators.
* `split_induction`: induction on a text piece by piece.
* `isLine_of_mem_linesWithEnds`: a newline in a line stands at its end.
* `linesWithEnds_append`: lines that have come to their end stay as they are, whatever follows.
* `exists_blanks_of_trimEnd`: what trimming takes off the end is blanks.
-/

namespace SketchBuild.Text

/-! ### Splitting -/

theorem split_eq_splitOn (sep : Char) (t : Text) : split sep t = t.splitOn sep := by
  induction t with
  | nil => rfl
  | cons c cs ih =>
    rw [split, List.splitOn_cons_eq_if_modifyHead, ← ih]
    by_cases hc : c = sep
    · simp [hc]
    · cases hcs : split sep cs with
      | nil => exact absurd hcs (split_ne_nil sep cs)
      | cons piece pieces => simp [hc]

theorem split_append_cons (sep : Char) (s t : Text) :
    split sep (s ++ sep :: t) = split sep s ++ split sep t := by
  rw [split_eq_splitOn, split_eq_splitOn, split_eq_splitOn, List.splitOn_append_cons_self]

@[simp] theorem join_singleton (sep : Char) (piece : Text) : join sep [piece] = piece := by
  simp [join]

theorem join_cons_cons (sep : Char) (first next : Text) (pieces : List Text) :
    join sep (first :: next :: pieces) = first ++ sep :: join sep (next :: pieces) := by
  simp [join]

theorem split_join {sep : Char} {pieces : List Text} (hne : pieces ≠ [])
    (h : ∀ piece ∈ pieces, sep ∉ piece) : split sep (join sep pieces) = pieces := by
  rw [split_eq_splitOn]
  exact List.splitOn_intercalate sep h hne

/-- A piece stands behind the pieces before it, each of which a separator ends. -/
theorem join_of_getElem? {sep : Char} {pieces : List Text} {index : Nat} {piece : Text}
    (h : pieces[index]? = some piece) :
    ∃ rest, join sep pieces = (pieces.take index).flatMap (· ++ [sep]) ++ (piece ++ rest) := by
  induction pieces generalizing index with
  | nil => cases h
  | cons first pieces ih =>
    cases index with
    | zero =>
      obtain rfl := Option.some.inj h
      cases pieces with
      | nil => exact ⟨[], by simp⟩
      | cons next pieces => exact ⟨_, join_cons_cons sep first next pieces⟩
    | succ index =>
      obtain ⟨rest, hrest⟩ := ih h
      refine ⟨rest, ?_⟩
      cases pieces with
      | nil => cases h
      | cons next pieces =>
        rw [join_cons_cons, hrest]
        simp

theorem infix_of_mem_split {sep : Char} {t piece : Text} (h : piece ∈ split sep t) :
    piece <:+: t := by
  obtain ⟨index, hindex⟩ := List.mem_iff_getElem?.1 h
  obtain ⟨rest, hrest⟩ := join_of_getElem? hindex
  rw [join_split] at hrest
  exact ⟨_, rest, by rw [hrest, List.append_assoc]⟩

/-- There is no separator inside a piece. -/
theorem not_mem_of_mem_split {sep : Char} {t piece : Text} (h : piece ∈ split sep t) :
    sep ∉ piece := by
  induction t generalizing piece with
  | nil =>
    rw [List.mem_singleton.1 h]
    exact List.not_mem_nil
  | cons c cs ih =>
    rw [split] at h
    split at h
    · rcases List.mem_cons.1 h with rfl | h
      · exact List.not_mem_nil
      · exact ih h
    · next hc =>
      split at h
      · next hnil => exact absurd hnil (split_ne_nil sep cs)
      · next first pieces hsplit =>
        rw [hsplit] at ih
        rcases List.mem_cons.1 h with rfl | h
        · intro hsep
          rcases List.mem_cons.1 hsep with hsep | hsep
          · exact hc hsep.symm
          · exact ih List.mem_cons_self hsep
        · exact ih (List.mem_cons_of_mem _ h)

theorem length_split (sep : Char) (t : Text) : (split sep t).length = t.count sep + 1 := by
  induction t with
  | nil => rfl
  | cons c cs ih =>
    rw [split]
    split
    · next hc => simp [hc, ih]
    · next hc =>
      split
      · next hnil => exact absurd hnil (split_ne_nil sep cs)
      · next first pieces hsplit =>
        rw [hsplit] at ih
        rw [List.count_cons_of_ne hc, ← ih]
        rfl

theorem split_eq_singleton {sep : Char} {t : Text} (h : sep ∉ t) : split sep t = [t] := by
  rw [split_eq_splitOn, List.splitOn_eq_singleton h]

/-- There are two pieces exactly if there is one separator, which stands between them. -/
theorem split_eq_pair_iff {sep : Char} {t first second : Text} :
    split sep t = [first, second] ↔ t = first ++ sep :: second ∧ sep ∉ first ∧ sep ∉ second := by
  constructor
  · intro h
    have hjoin := join_split sep t
    rw [h, join_cons_cons, join_singleton] at hjoin
    exact ⟨hjoin.symm, not_mem_of_mem_split (h ▸ List.mem_cons_self),
      not_mem_of_mem_split (h ▸ List.mem_cons_of_mem _ List.mem_cons_self)⟩
  · rintro ⟨rfl, hfirst, hsecond⟩
    rw [split_append_cons, split_eq_singleton hfirst, split_eq_singleton hsecond]
    rfl

theorem exists_pair_of_count {sep : Char} {t : Text} (h : t.count sep = 1) :
    ∃ first second, t = first ++ sep :: second ∧ sep ∉ first ∧ sep ∉ second := by
  have hlength : (split sep t).length = 2 := by rw [length_split, h]
  obtain ⟨first, second, hsplit⟩ := List.length_eq_two.1 hlength
  exact ⟨first, second, split_eq_pair_iff.1 hsplit⟩

/-- Texts that hold no separator are pieces already. -/
theorem flatMap_split {sep : Char} {texts : List Text} (h : ∀ t ∈ texts, sep ∉ t) :
    texts.flatMap (split sep) = texts := by
  induction texts with
  | nil => rfl
  | cons t texts ih =>
    rw [List.flatMap_cons, split_eq_singleton (h t List.mem_cons_self),
      ih fun u hu => h u (List.mem_cons_of_mem t hu), List.singleton_append]

/-- Texts that each end with a separator are split one after the other. -/
theorem split_flatMap_append (sep : Char) (texts : List Text) (t : Text) :
    split sep (texts.flatMap (· ++ [sep]) ++ t) = texts.flatMap (split sep) ++ split sep t := by
  induction texts with
  | nil => rfl
  | cons text texts ih =>
    rw [List.flatMap_cons, List.append_assoc, List.append_assoc, List.singleton_append,
      split_append_cons, ih, List.flatMap_cons, List.append_assoc]

/-- Every text is one piece, or a piece and a separator in front of a shorter text. -/
@[elab_as_elim]
theorem split_induction {motive : Text → Prop} (sep : Char) (t : Text)
    (piece : ∀ t, sep ∉ t → motive t)
    (cons : ∀ first rest, sep ∉ first → motive rest → motive (first ++ sep :: rest)) :
    motive t := by
  induction hlength : t.length using Nat.strongRecOn generalizing t with
  | ind length ih =>
    by_cases hsep : sep ∈ t
    · obtain ⟨first, rest, rfl, hfirst⟩ := List.eq_append_cons_of_mem hsep
      refine cons first rest hfirst (ih rest.length ?_ rest rfl)
      rw [← hlength, List.length_append, List.length_cons]
      omega
    · exact piece t hsep

/-- A character that is no separator joins the piece before it to the piece behind it. -/
theorem split_append_cons_of_ne {sep c : Char} (hc : c ≠ sep) (s t : Text) :
    ∃ before first second after, split sep s = before ++ [first] ∧
      split sep t = second :: after ∧
      split sep (s ++ c :: t) = before ++ (first ++ c :: second) :: after := by
  induction s using split_induction sep with
  | piece s hs =>
    cases hsplit : split sep t with
    | nil => exact absurd hsplit (split_ne_nil sep t)
    | cons second after =>
      refine ⟨[], s, second, after, split_eq_singleton hs, rfl, ?_⟩
      induction s with
      | nil => rw [List.nil_append, split, if_neg hc, hsplit]; rfl
      | cons d s ih =>
        obtain ⟨hd, hs⟩ := not_or.1 (mt List.mem_cons.2 hs)
        rw [List.cons_append, split, if_neg (Ne.symm hd), ih hs]
        rfl
  | cons piece s hpiece ih =>
    obtain ⟨before, first, second, after, hs, ht, happend⟩ := ih
    refine ⟨piece :: before, first, second, after, ?_, ht, ?_⟩
    · rw [split_append_cons, split_eq_singleton hpiece, hs]
      rfl
    · rw [List.append_assoc, List.cons_append, split_append_cons, split_eq_singleton hpiece,
        happend]
      rfl

/-! ### Lines with their ends -/

/-- A newline can stand at the end of the text only. -/
def IsLine (t : Text) : Prop :=
  ∀ before after, t = before ++ '\n' :: after → after = []

theorem IsLine.cons {c : Char} {t : Text} (hc : c ≠ '\n') (h : IsLine t) : IsLine (c :: t) := by
  intro before after heq
  cases before with
  | nil => exact absurd (List.cons.inj heq).1 hc
  | cons _ before => exact h before after (List.cons.inj heq).2

theorem IsLine.of_isInfix {s t : Text} (h : IsLine t) (hst : s <:+: t) : IsLine s := by
  obtain ⟨left, right, rfl⟩ := hst
  rintro before after rfl
  have hafter := h (left ++ before) (after ++ right) (by simp)
  exact (List.append_eq_nil_iff.1 hafter).1

theorem IsLine.newline_not_mem {s t : Text} (h : IsLine (s ++ t)) (ht : t ≠ []) : '\n' ∉ s := by
  intro hmem
  obtain ⟨before, after, rfl⟩ := List.append_of_mem hmem
  have hafter := h before (after ++ t) (by simp)
  exact ht (List.append_eq_nil_iff.1 hafter).2

theorem isLine_of_mem_linesWithEnds {t line : Text} (h : line ∈ linesWithEnds t) :
    IsLine line := by
  induction t generalizing line with
  | nil => cases h
  | cons c cs ih =>
    rw [linesWithEnds] at h
    split at h
    · rcases List.mem_cons.1 h with rfl | h
      · intro before after heq
        cases before with
        | nil => exact (List.cons.inj heq).2.symm
        | cons _ before => simp at heq
      · exact ih h
    · next hc =>
      split at h
      · obtain rfl := List.mem_singleton.1 h
        exact .cons hc fun before after heq => by simp at heq
      · next first lines hlines =>
        rw [hlines] at ih
        rcases List.mem_cons.1 h with rfl | h
        · exact .cons hc (ih List.mem_cons_self)
        · exact ih (List.mem_cons_of_mem first h)

theorem linesWithEnds_of_not_mem {t : Text} (hne : t ≠ []) (h : '\n' ∉ t) :
    linesWithEnds t = [t] := by
  induction t with
  | nil => exact absurd rfl hne
  | cons c cs ih =>
    obtain ⟨hc, hcs⟩ := not_or.1 (mt List.mem_cons.2 h)
    rw [linesWithEnds, if_neg (Ne.symm hc)]
    cases cs with
    | nil => rfl
    | cons d cs => rw [ih (List.cons_ne_nil d cs) hcs]

theorem linesWithEnds_append_newline {line : Text} (h : '\n' ∉ line) (t : Text) :
    linesWithEnds (line ++ '\n' :: t) = (line ++ ['\n']) :: linesWithEnds t := by
  induction line with
  | nil => rw [List.nil_append, linesWithEnds, if_pos rfl]; rfl
  | cons c line ih =>
    obtain ⟨hc, hline⟩ := not_or.1 (mt List.mem_cons.2 h)
    rw [List.cons_append, linesWithEnds, if_neg (Ne.symm hc), ih hline]
    rfl

/-- The text consists of lines that have come to their end. -/
def IsLines (t : Text) : Prop :=
  t = [] ∨ t.getLast? = some '\n'

theorem isLines_nil : IsLines [] :=
  Or.inl rfl

theorem IsLines.append {s t : Text} (hs : IsLines s) (ht : IsLines t) : IsLines (s ++ t) := by
  rcases ht with rfl | ht
  · rwa [List.append_nil]
  · exact Or.inr (by simp [ht])

theorem isLines_concat (t : Text) : IsLines (t ++ ['\n']) :=
  Or.inr List.getLast?_concat

theorem IsLines.tail {line rest : Text} (h : IsLines (line ++ '\n' :: rest)) : IsLines rest := by
  rcases h with h | h
  · simp at h
  · cases rest with
    | nil => exact isLines_nil
    | cons c rest => exact Or.inr (by simpa [List.getLast?_append] using h)

theorem linesWithEnds_append {s : Text} (hs : IsLines s) (t : Text) :
    linesWithEnds (s ++ t) = linesWithEnds s ++ linesWithEnds t := by
  induction s using split_induction '\n' with
  | piece s hnewline =>
    rcases hs with rfl | hs
    · rfl
    · exact absurd (List.mem_of_getLast? hs) hnewline
  | cons line s hline ih =>
    rw [List.append_assoc, List.cons_append, linesWithEnds_append_newline hline,
      linesWithEnds_append_newline hline, ih hs.tail, List.cons_append]

theorem mem_of_mem_linesWithEnds {t line : Text} (hline : line ∈ linesWithEnds t) {c : Char}
    (hc : c ∈ line) : c ∈ t := by
  rw [← flatten_linesWithEnds t]
  exact List.mem_flatten.2 ⟨line, hline, hc⟩

theorem linesWithEnds_newlines (n : Nat) :
    linesWithEnds (List.replicate n '\n') = List.replicate n ['\n'] := by
  induction n with
  | zero => rfl
  | succ n ih => rw [List.replicate_succ, linesWithEnds, if_pos rfl, ih, List.replicate_succ]

theorem isLines_newlines (n : Nat) : IsLines (List.replicate n '\n') := by
  cases n with
  | zero => exact isLines_nil
  | succ n => exact Or.inr (by simp [List.getLast?_replicate])

/-- A text is made of lines that have come to their end and of one that has not. -/
theorem exists_isLines_append (t : Text) :
    ∃ lines line, t = lines ++ line ∧ IsLines lines ∧ '\n' ∉ line := by
  induction t using split_induction '\n' with
  | piece line hline => exact ⟨[], line, rfl, isLines_nil, hline⟩
  | cons first t _ ih =>
    obtain ⟨lines, line, rfl, hlines, hline⟩ := ih
    refine ⟨first ++ ['\n'] ++ lines, line, by simp, ?_, hline⟩
    exact (isLines_concat first).append hlines

/-- A text without a newline is written in front of the first line. -/
theorem linesWithEnds_prepend {s t : Text} (hs : '\n' ∉ s) (ht : t ≠ []) :
    ∃ first lines, linesWithEnds t = first :: lines ∧
      linesWithEnds (s ++ t) = (s ++ first) :: lines := by
  induction t using split_induction '\n' with
  | piece t hnewline =>
    refine ⟨t, [], linesWithEnds_of_not_mem ht hnewline, ?_⟩
    exact linesWithEnds_of_not_mem (by simp [ht]) (by simp [hs, hnewline])
  | cons line t hline _ =>
    refine ⟨line ++ ['\n'], linesWithEnds t, linesWithEnds_append_newline hline t, ?_⟩
    rw [← List.append_assoc, linesWithEnds_append_newline (by simp [hs, hline]),
      List.append_assoc]

theorem mem_getLast?_append_cons {c d : Char} {t : Text} (h : c ∈ t.getLast?) (s : Text) :
    c ∈ (s ++ d :: t).getLast? := by
  rw [Option.mem_def] at h ⊢
  rw [List.getLast?_append, List.getLast?_cons, h]
  rfl

/-! ### Trimming the end -/

theorem trimEnd_append (s t : Text) :
    trimEnd (s ++ t) = if trimEnd t = [] then trimEnd s else s ++ trimEnd t := by
  unfold trimEnd
  rw [List.reverse_append, List.dropWhile_append]
  by_cases hblank : t.reverse.dropWhile isBlank = []
  · simp [hblank]
  · rw [if_neg (by simpa using hblank), if_neg (by simpa using hblank)]
    simp

theorem trimEnd_append_blanks {blanks : Text} (s : Text) (h : ∀ c ∈ blanks, isBlank c = true) :
    trimEnd (s ++ blanks) = trimEnd s := by
  have hreverse : ∀ c ∈ blanks.reverse, isBlank c = true := by simpa using h
  simp [trimEnd, List.dropWhile_append_of_pos hreverse]

theorem exists_blanks_of_trimEnd (t : Text) :
    ∃ blanks, (∀ c ∈ blanks, isBlank c = true) ∧ t = trimEnd t ++ blanks :=
  ⟨t.rtakeWhile isBlank, fun _ hc => List.mem_rtakeWhile_imp hc,
    List.rdropWhile_append_rtakeWhile.symm⟩

theorem trimEnd_eq_iff {t s : Text} : trimEnd t = s ↔ ∃ blanks, t = s ++ blanks ∧
    (∀ c ∈ s.getLast?, isBlank c = false) ∧ ∀ c ∈ blanks, isBlank c = true := by
  -- A text is trimmed if its last character is not blank.
  have htrimmed : trimEnd s = s ↔ ∀ c ∈ s.getLast?, isBlank c = false := by
    refine List.rdropWhile_eq_self_iff.trans ?_
    cases s using List.reverseRecOn <;> simp
  constructor
  · rintro rfl
    obtain ⟨blanks, hblanks, ht⟩ := exists_blanks_of_trimEnd t
    exact ⟨blanks, ht, htrimmed.1 (List.rdropWhile_idempotent _ t), hblanks⟩
  · rintro ⟨blanks, rfl, hs, hblanks⟩
    rw [trimEnd_append_blanks s hblanks, htrimmed.2 hs]

/-- A character in front stays unless nothing but blanks follows it and it is blank itself. -/
theorem trimEnd_cons (c : Char) (t : Text) :
    trimEnd (c :: t) = c :: trimEnd t ∨ trimEnd (c :: t) = [] ∧ trimEnd t = [] := by
  unfold trimEnd
  rw [List.reverse_cons, List.dropWhile_append]
  split
  · next hempty =>
    rw [List.isEmpty_iff] at hempty
    by_cases hc : isBlank c = true
    · exact Or.inr (by simp [hempty, hc])
    · exact Or.inl (by simp [hempty, hc])
  · exact Or.inl (by simp)

/-! ### Replacing a character -/

/-- The text with `new` in the place of every occurrence of `old`. -/
def replaced (old : Char) (new t : Text) : Text :=
  t.flatMap fun c => if c = old then new else [c]

theorem replaced_cons_self (old : Char) (new t : Text) :
    replaced old new (old :: t) = new ++ replaced old new t := by
  simp [replaced]

theorem replaced_cons_of_ne {old c : Char} (hc : c ≠ old) (new t : Text) :
    replaced old new (c :: t) = c :: replaced old new t := by
  simp [replaced, hc]

/-! ### Order -/

/-- Texts are compared character by character. -/
theorem compare_eq_lt_iff {s t : Text} : compare s t = .lt ↔ s < t := by
  induction s generalizing t with
  | nil => cases t <;> simp [compare, List.compareLex]
  | cons c s ih =>
    cases t with
    | nil => simp [compare, List.compareLex]
    | cons d t =>
      have hcons : compare (c :: s) (d :: t) = (compare c d).then (compare s t) :=
        List.compareLex_cons_cons
      have hchar : compare c d = .lt ↔ c < d := compareOfLessAndEq_eq_lt
      rw [hcons, Ordering.then_eq_lt, List.cons_lt_cons_iff, ih, hchar, Std.compare_eq_iff_eq]

/-! ### Braces -/

/-- An opening or a closing brace. -/
def isBrace (c : Char) : Bool :=
  c == '{' || c == '}'

/-- A class of characters that has neither brace has no brace. -/
theorem isBrace_eq_false {p : Char → Bool} (hopening : p '{' = false) (hclosing : p '}' = false)
    {c : Char} (h : p c = true) : isBrace c = false := by
  by_contra hbrace
  rw [Bool.not_eq_false, isBrace, Bool.or_eq_true, beq_iff_eq, beq_iff_eq] at hbrace
  rcases hbrace with rfl | rfl
  · rw [hopening] at h; cases h
  · rw [hclosing] at h; cases h

end SketchBuild.Text
