import SketchBuild.Proofs.Sketch.Redaction
import SketchBuild.Proofs.Text

/-!
# Commenting out directives

Two slashes in front of a line make a comment of it. In front of a directive that ends with its line
they change nothing for the analysis: the comment takes the place of the directive, and where the
line is part of a string literal, of a block comment or of a continued directive, they become part
of that.

* `commentOut` puts slashes in front of chosen lines.
* `first?_commentOut`: one step of the scanner leaves the same text behind.
* `redact_commentOut`: the redacted text stays the same.
-/

namespace SketchBuild.Region

/-- A line that is a directive by itself: a hash sign comes first, blanks aside, and the line after
it is not part of it. -/
structure IsDirectiveLine (line : Text) : Prop where
  hash : ∃ blanks body, (∀ c ∈ blanks, isInnerBlank c = true) ∧ line = blanks ++ '#' :: body
  ends : ¬ Continues line

theorem not_continues_concat {s : Text} {c : Char} (hbackslash : c ≠ '\\') (hreturn : c ≠ '\r') :
    ¬ Continues (s ++ [c]) := by
  rw [continues_append_cons hbackslash hreturn]
  simp [Continues]

theorem IsDirectiveLine.isToken {line rest : Text} (h : IsDirectiveLine line)
    (hnewline : '\n' ∉ line) (hend : AtLineEnd rest) : IsToken .directive line rest := by
  refine ⟨h.hash, ⟨?_, ?_⟩⟩
  · intro u v huv
    exact absurd (by rw [huv]; simp) hnewline
  · rcases hend with hrest | hrest
    · exact Or.inl hrest
    · exact Or.inr ⟨hrest, h.ends⟩

/-- The text with two slashes in front of every line chosen by `p`. The first line counts only if
the text stands at the start of a line. -/
def commentOut (p : Text → Bool) : Bool → Text → Text
  | _, [] => []
  | atLineStart, c :: cs =>
    (if atLineStart && p (lineTail (c :: cs)).1 then ['/', '/'] else [])
      ++ c :: commentOut p (c == '\n') cs

variable {p : Text → Bool} {b : Bool} {t : Text}

theorem commentOut_false_cons (c : Char) (cs : Text) :
    commentOut p false (c :: cs) = c :: commentOut p (c == '\n') cs := by
  simp [commentOut]

theorem commentOut_false_cons_of_ne {c : Char} (hc : c ≠ '\n') (cs : Text) :
    commentOut p false (c :: cs) = c :: commentOut p false cs := by
  rw [commentOut_false_cons, beq_false_of_ne hc]

theorem commentOut_false_append {s : Text} (hs : '\n' ∉ s) (t : Text) :
    commentOut p false (s ++ t) = s ++ commentOut p false t := by
  induction s with
  | nil => rfl
  | cons c cs ih =>
    rw [List.mem_cons, not_or] at hs
    rw [List.cons_append, commentOut_false_cons_of_ne (Ne.symm hs.1), ih hs.2, List.cons_append]

/-- Slashes stand in front of the first line or they do not; what follows is the same. -/
theorem commentOut_cases (p : Text → Bool) (b : Bool) (t : Text) :
    commentOut p b t = commentOut p false t ∨
      (b = true ∧ p (lineTail t).1 = true) ∧
        commentOut p b t = '/' :: '/' :: commentOut p false t := by
  cases t with
  | nil => exact Or.inl (by simp [commentOut])
  | cons c cs =>
    by_cases hp : b = true ∧ p (lineTail (c :: cs)).1 = true
    · exact Or.inr ⟨hp, by simp [commentOut, hp]⟩
    · exact Or.inl (by simp [commentOut, hp])

theorem commentOut_true (hnil : p [] = false) (t : Text) :
    commentOut p true t =
      (if p (lineTail t).1 then ['/', '/'] else []) ++ commentOut p false t := by
  cases t with
  | nil => simp [commentOut, lineTail, hnil]
  | cons c cs => simp [commentOut]

theorem lineTail_join {first : Text} (hfirst : '\n' ∉ first) (lines : List Text) :
    (lineTail (Text.join '\n' (first :: lines))).1 = first := by
  cases lines with
  | nil =>
    have hline := lineTail_eq hfirst (Or.inl rfl)
    rw [List.append_nil] at hline
    rw [Text.join_singleton, hline]
  | cons next lines => rw [Text.join_cons_cons, lineTail_eq hfirst (Or.inr ⟨_, rfl⟩)]

/-- Slashes are put in front of the lines one by one. -/
theorem commentOut_join (hnil : p [] = false) {first : Text} {lines : List Text}
    (h : ∀ line ∈ first :: lines, '\n' ∉ line) :
    commentOut p true (Text.join '\n' (first :: lines)) =
      Text.join '\n' ((first :: lines).map fun line =>
        (if p line then ['/', '/'] else []) ++ line) := by
  induction lines generalizing first with
  | nil =>
    have hfirst : '\n' ∉ first := h first List.mem_cons_self
    have hrest := commentOut_false_append (p := p) hfirst []
    rw [List.append_nil] at hrest
    rw [commentOut_true hnil, lineTail_join hfirst, Text.join_singleton, hrest]
    simp [commentOut]
  | cons next lines ih =>
    have hfirst : '\n' ∉ first := h first List.mem_cons_self
    have hnext := ih fun line hline => h line (List.mem_cons_of_mem first hline)
    rw [commentOut_true hnil, lineTail_join hfirst, Text.join_cons_cons,
      commentOut_false_append hfirst, commentOut_false_cons, beq_self_eq_true, hnext]
    simp only [List.map_cons, Text.join_cons_cons, List.append_assoc]

/-! ### What the readers leave behind -/

/-- A reader that goes on over slashes leaves the same behind with slashes in front or without. -/
theorem snd_commentOut {f : Text → Text × Text} (hf : ∀ u, (f ('/' :: '/' :: u)).2 = (f u).2)
    (b : Bool) (t : Text) : (f (commentOut p b t)).2 = (f (commentOut p false t)).2 := by
  rcases commentOut_cases p b t with h | ⟨-, h⟩
  · rw [h]
  · rw [h, hf]

/-- The first character behind a character other than a newline stays where it is. -/
theorem exists_cons_of_commentOut {c d : Char} {cs ds : Text} (hc : c ≠ '\n')
    (h : commentOut p (c == '\n') cs = d :: ds) :
    ∃ es, cs = d :: es ∧ ds = commentOut p (d == '\n') es := by
  rw [beq_false_of_ne hc] at h
  cases cs with
  | nil => cases h
  | cons e es =>
    rw [commentOut_false_cons] at h
    obtain ⟨rfl, rfl⟩ := List.cons.inj h
    exact ⟨es, rfl, rfl⟩

theorem stringTail_commentOut (t : Text) :
    (stringTail (commentOut p false t)).2 = commentOut p false (stringTail t).2 := by
  fun_induction stringTail t with
  | case1 => rfl
  | case2 cs =>
    rw [commentOut_false_cons_of_ne (by decide)]
    rfl
  | case3 c cs ih =>
    rw [commentOut_false_cons_of_ne (by decide), commentOut_false_cons, stringTail.eq_3,
      prepend_snd, prepend_snd, snd_commentOut (by simp [stringTail]), ih]
  | case4 c cs hquote hpair ih =>
    have hpair' : ∀ d ds, c = '\\' → commentOut p (c == '\n') cs = d :: ds → False := by
      intro d ds hc hds
      cases cs with
      | nil => simp [commentOut] at hds
      | cons e es => exact hpair e es hc rfl
    rw [commentOut_false_cons, stringTail.eq_4 _ _ hquote hpair', prepend_snd, prepend_snd,
      snd_commentOut (by simp [stringTail]), ih]

theorem blockTail_commentOut (t : Text) :
    (blockTail (commentOut p false t)).2 = commentOut p false (blockTail t).2 := by
  fun_induction blockTail t with
  | case1 => rfl
  | case2 cs =>
    rw [commentOut_false_cons_of_ne (by decide), commentOut_false_cons_of_ne (by decide)]
    rfl
  | case3 c cs hclose ih =>
    have hclose' : ∀ ds, c = '*' → commentOut p (c == '\n') cs = '/' :: ds → False := by
      rintro ds rfl hds
      obtain ⟨es, hcs, -⟩ := exists_cons_of_commentOut (by decide) hds
      exact hclose es rfl hcs
    rw [commentOut_false_cons, blockTail.eq_3 _ _ hclose', prepend_snd, prepend_snd,
      snd_commentOut (by simp [blockTail]), ih]

theorem logicalLine_commentOut (t : Text) :
    (logicalLine (commentOut p false t)).2 = commentOut p false (logicalLine t).2 := by
  fun_induction logicalLine t with
  | case1 => rfl
  | case2 cs ih =>
    rw [commentOut_false_cons_of_ne (by decide), commentOut_false_cons, logicalLine.eq_2,
      prepend_snd, prepend_snd, snd_commentOut (by simp [logicalLine]), ih]
  | case3 cs ih =>
    rw [commentOut_false_cons_of_ne (by decide), commentOut_false_cons_of_ne (by decide),
      commentOut_false_cons, logicalLine.eq_3, prepend_snd, prepend_snd,
      snd_commentOut (by simp [logicalLine]), ih]
  | case4 cs =>
    rw [commentOut_false_cons]
    rfl
  | case5 c cs hpair htriple hnewline ih =>
    have hpair' : ∀ ds, c = '\\' → commentOut p (c == '\n') cs = '\n' :: ds → False := by
      intro ds hc hds
      obtain ⟨es, hcs, -⟩ := exists_cons_of_commentOut hnewline hds
      exact hpair es hc hcs
    have htriple' : ∀ ds, c = '\\' → commentOut p (c == '\n') cs = '\r' :: '\n' :: ds → False := by
      intro ds hc hds
      obtain ⟨es, hcs, hes⟩ := exists_cons_of_commentOut hnewline hds
      obtain ⟨fs, rfl, -⟩ := exists_cons_of_commentOut (by decide) hes.symm
      exact htriple fs hc hcs
    rw [commentOut_false_cons, logicalLine.eq_5 _ _ hpair' htriple' hnewline, prepend_snd,
      prepend_snd, snd_commentOut (by simp [logicalLine]), ih]

theorem lineTail_commentOut (t : Text) :
    (lineTail (commentOut p false t)).2 = commentOut p false (lineTail t).2 := by
  have hwhole := lineTail_append t
  have hend := atLineEnd_lineTail t
  have hinner := not_mem_lineTail t
  generalize (lineTail t).1 = line at hwhole hinner
  generalize (lineTail t).2 = rest at hwhole hend ⊢
  subst hwhole
  have hend' : AtLineEnd (commentOut p false rest) := by
    rcases hend with rfl | ⟨after, rfl⟩
    · exact Or.inl rfl
    · exact Or.inr ⟨_, commentOut_false_cons '\n' after⟩
  rw [commentOut_false_append hinner, lineTail_eq hinner hend']

theorem charTail?_commentOut (t : Text) :
    (charTail? (commentOut p false t)).map Prod.snd =
      (charTail? t).map (commentOut p false ·.2) := by
  fun_induction charTail? t with
  | case1 => rfl
  | case2 cs =>
    rw [commentOut_false_cons]
    rfl
  | case3 cs =>
    rw [commentOut_false_cons_of_ne (by decide)]
    rfl
  | case4 => rfl
  | case5 cs =>
    rw [commentOut_false_cons_of_ne (by decide), commentOut_false_cons]
    rfl
  | case6 c cs hnewline ih =>
    rw [commentOut_false_cons_of_ne (by decide), commentOut_false_cons_of_ne hnewline,
      charTail?.eq_6 _ _ hnewline, Option.map_map, Option.map_map]
    exact ih
  | case7 c cs hnewline hquote hlone _ hpair ih =>
    have hbackslash := ne_backslash hlone hpair
    rw [commentOut_false_cons_of_ne hnewline, charTail?_cons hquote hbackslash hnewline,
      Option.map_map, Option.map_map]
    exact ih

theorem literalOrComment?_commentOut (t : Text) :
    (literalOrComment? (commentOut p false t)).map Prod.snd =
      (literalOrComment? t).map (commentOut p false ·.2) := by
  fun_cases literalOrComment? t with
  | case1 cs =>
    rw [commentOut_false_cons_of_ne (by decide), literalOrComment?.eq_1, Option.map_map,
      Option.map_map]
    exact charTail?_commentOut cs
  | case2 cs =>
    rw [commentOut_false_cons_of_ne (by decide)]
    exact congrArg some (stringTail_commentOut cs)
  | case3 cs =>
    rw [commentOut_false_cons_of_ne (by decide), commentOut_false_cons_of_ne (by decide)]
    exact congrArg some (lineTail_commentOut cs)
  | case4 cs =>
    rw [commentOut_false_cons_of_ne (by decide), commentOut_false_cons_of_ne (by decide)]
    exact congrArg some (blockTail_commentOut cs)
  | case5 _ hquote hstring hline hblock =>
    cases t with
    | nil => rfl
    | cons c cs =>
      rw [commentOut_false_cons, literalOrComment?.eq_5]
      · rfl
      · intro ds hds
        exact hquote cs (by rw [(List.cons.inj hds).1])
      · intro ds hds
        exact hstring cs (by rw [(List.cons.inj hds).1])
      · intro ds hds
        obtain ⟨rfl, hds⟩ := List.cons.inj hds
        obtain ⟨es, rfl, -⟩ := exists_cons_of_commentOut (by decide) hds
        exact hline es rfl
      · intro ds hds
        obtain ⟨rfl, hds⟩ := List.cons.inj hds
        obtain ⟨es, rfl, -⟩ := exists_cons_of_commentOut (by decide) hds
        exact hblock es rfl

theorem directive?_commentOut (t : Text) :
    (directive? (commentOut p false t)).map Prod.snd =
      (directive? t).map (commentOut p false ·.2) := by
  have hwhole := List.takeWhile_append_dropWhile (p := isInnerBlank) (l := t)
  have hblanks : ∀ c ∈ t.takeWhile isInnerBlank, isInnerBlank c = true := fun c hc =>
    List.mem_takeWhile_imp hc
  have hnewline : '\n' ∉ t.takeWhile isInnerBlank := fun hmem =>
    absurd (hblanks _ hmem) (by decide)
  have hhead := List.head?_dropWhile_not isInnerBlank t
  generalize t.takeWhile isInnerBlank = blanks at hwhole hblanks hnewline
  generalize t.dropWhile isInnerBlank = u at hwhole hhead
  subst hwhole
  rw [commentOut_false_append hnewline]
  cases u with
  | nil =>
    have hnone : blanks.dropWhile isInnerBlank = [] := List.dropWhile_eq_nil_iff.2 hblanks
    simp [directive?, hnone, commentOut]
  | cons c cs =>
    have hc : isInnerBlank c = false := by simpa using hhead
    have hline := logicalLine_commentOut (p := p) (c :: cs)
    rw [commentOut_false_cons] at hline ⊢
    by_cases hhash : c = '#'
    · subst hhash
      simpa [directive?, List.dropWhile_append_of_pos hblanks, hc] using hline
    · simp [directive?, List.dropWhile_append_of_pos hblanks, hc, hhash]

/-! ### Scanning -/

theorem first?_map_snd (b : Bool) (t : Text) :
    (first? b t).map Prod.snd = ((if b then directive? t else none).map Prod.snd).or
      ((literalOrComment? t).map Prod.snd) := by
  unfold first?
  split
  · next split hsplit => rw [hsplit]; rfl
  · next hnone => rw [hnone]; rfl

variable (hp : ∀ line, '\n' ∉ line → p line = true → IsDirectiveLine line)
include hp

/-- **One step.** Where the scanner finds a token, it finds one in the text with comments as well,
and the same text is left behind it. -/
theorem first?_commentOut (b : Bool) (t : Text) :
    (first? b (commentOut p b t)).map Prod.snd = (first? b t).map (commentOut p false ·.2) := by
  rcases commentOut_cases p b t with hsame | ⟨⟨rfl, hline⟩, hslashes⟩
  · have hrest : (first? b t).map (commentOut p false ·.2) =
        ((first? b t).map Prod.snd).map (commentOut p false) := by
      rw [Option.map_map]
      rfl
    rw [hsame, hrest, first?_map_snd, first?_map_snd, Option.map_or, Option.map_map,
      Option.map_map, literalOrComment?_commentOut]
    cases b with
    | false => rfl
    | true =>
      simp only [if_true, directive?_commentOut]
      rfl
  · -- The comment ends where the directive ends, as the directive is not continued.
    have hnewline := not_mem_lineTail t
    have htoken := (hp _ hnewline hline).isToken hnewline (atLineEnd_lineTail t)
    have hdirective : first? true t = some (⟨.directive, (lineTail t).1⟩, (lineTail t).2) :=
      first?_eq_some_iff.2 ⟨(lineTail_append t).symm, htoken, fun _ => rfl⟩
    rw [hslashes, hdirective]
    exact congrArg some (lineTail_commentOut t)

/-- **The whole scan.** The text with comments has the redacted text that it had before. -/
theorem redacted_scanFrom_commentOut (b : Bool) (t : Text) :
    (scanFrom b (commentOut p b t)).flatMap redacted = (scanFrom b t).flatMap redacted := by
  fun_induction scanFrom b t with
  | case1 => rw [commentOut, scanFrom_nil]
  | case2 b c cs region rest hfirst ih =>
    have hstep := first?_commentOut hp b (c :: cs)
    rw [hfirst, Option.map_some] at hstep
    obtain ⟨⟨region', rest'⟩, hfirst', rfl⟩ := Option.map_eq_some_iff.1 hstep
    rw [scanFrom_of_first? hfirst', List.flatMap_cons, List.flatMap_cons,
      redacted_of_first? hfirst, redacted_of_first? hfirst', ih]
  | case3 b c cs hfirst ih =>
    have hstep := first?_commentOut hp b (c :: cs)
    rw [hfirst, Option.map_none, Option.map_eq_none_iff] at hstep
    rcases commentOut_cases p b (c :: cs) with hsame | ⟨⟨rfl, hline⟩, hslashes⟩
    · rw [hsame, commentOut_false_cons] at hstep ⊢
      rw [scanFrom_cons_of_first?_eq_none hstep, redacted_consCode, redacted_consCode, ih]
    · rw [hslashes] at hstep
      cases hstep

theorem redact_commentOut (t : Text) : redact (commentOut p true t) = redact t :=
  redacted_scanFrom_commentOut hp true t

end SketchBuild.Region
