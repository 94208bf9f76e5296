import SketchBuild.Depfile.Augment
import SketchBuild.Proofs.Depfile.Reading

/-!
# Words and items

A text of make rules consists of words; spaces stand between them, and backslashes that continue a
line on the next one.

* `itemsOf_append_space`: the items of a line are those of its parts, cut at a space.
* `words`: the words of a text over all its lines.
* `flatMap_itemsOf_lines`: words that look neither like a comment nor like a continuation are read
  as they are, however they are laid out.
* `read_closed`: it makes no difference whether the last line has come to its end.
-/

namespace SketchBuild.Depfile

open Text (isBlank)

/-! ### Comments and items by their parts -/

theorem isComment_cons_of_blank {c : Char} (h : isBlank c = true) (t : Text) :
    isComment (c :: t) = isComment t := by
  rw [isComment, isComment, Text.trimStart, List.dropWhile_cons_of_pos h, ← Text.trimStart]

theorem isComment_cons_of_not_blank {c : Char} (h : isBlank c = false) (t : Text) :
    isComment (c :: t) = decide (c = '#') := by
  have hc : ¬ isBlank c = true := by simp [h]
  rw [isComment, Text.trimStart, List.dropWhile_cons_of_neg hc]
  simp

theorem isComment_append_newline (t : Text) : isComment (t ++ ['\n']) = isComment t := by
  induction t with
  | nil => rfl
  | cons c t ih =>
    cases hc : isBlank c with
    | true => rw [List.cons_append, isComment_cons_of_blank hc, isComment_cons_of_blank hc, ih]
    | false => rw [List.cons_append, isComment_cons_of_not_blank hc, isComment_cons_of_not_blank hc]

@[simp] theorem itemsOf_nil : itemsOf [] = [] := rfl

@[simp] theorem itemsOf_newline : itemsOf ['\n'] = [] := by decide

theorem itemsOf_append_space (s t : Text) : itemsOf (s ++ ' ' :: t) = itemsOf s ++ itemsOf t := by
  rw [itemsOf, Text.split_append_cons, List.map_append, List.filter_append]
  rfl

theorem itemsOf_of_not_mem {piece : Text} (h : ' ' ∉ piece) :
    itemsOf piece = [cleanItem piece].filter (· ≠ []) := by
  rw [itemsOf, Text.split_eq_singleton h]
  rfl

/-! ### Plain words -/

/-- A word that is left as it is: it has no white space and looks neither like a comment nor like a
continued line. -/
structure IsPlain (word : Text) : Prop where
  visible : ∀ c ∈ word, isBlank c = false
  no_comment : word.head? ≠ some '#'
  no_continuation : word.getLast? ≠ some '\\'

instance (word : Text) : Decidable (IsPlain word) :=
  decidable_of_iff (word.all (!isBlank ·) ∧ word.head? ≠ some '#' ∧ word.getLast? ≠ some '\\')
    ⟨fun ⟨h₁, h₂, h₃⟩ => ⟨by simpa using h₁, h₂, h₃⟩,
      fun h => ⟨by simpa using h.visible, h.no_comment, h.no_continuation⟩⟩

/-- What may stand behind the last word of a line. -/
def IsEnding (ending : Text) : Prop :=
  ending = [] ∨ ending = ['\n'] ∨ ending = ['\\', '\n']

theorem isPlain_nil : IsPlain [] :=
  ⟨by simp, by simp, by simp⟩

theorem IsPlain.newline_not_mem {word : Text} (h : IsPlain word) : '\n' ∉ word := by
  intro hmem
  have hblank := h.visible _ hmem
  cases hblank

theorem IsPlain.isComment {word : Text} (h : IsPlain word) {ending : Text}
    (hending : IsEnding ending) : isComment (word ++ ending) = false := by
  cases word with
  | nil => rcases hending with rfl | rfl | rfl <;> decide
  | cons c word =>
    rw [List.cons_append, isComment_cons_of_not_blank (h.visible c List.mem_cons_self)]
    simpa using h.no_comment

theorem IsPlain.cleanItem {word : Text} (h : IsPlain word) {ending : Text}
    (hending : IsEnding ending) : cleanItem (word ++ ending) = word := by
  have hcomment := h.isComment hending
  have hlast : ∀ c ∈ word.getLast?, isBlank c = false := fun c hc =>
    h.visible c (List.mem_of_getLast? hc)
  refine cleanItem_of_cleansTo ?_
  rcases hending with rfl | rfl | rfl
  · rw [List.append_nil] at hcomment ⊢
    exact .inner hcomment fun hc => h.newline_not_mem (List.mem_of_getLast? hc)
  · simpa using @CleansTo.last word [] (by simpa using hcomment) hlast (by simp)
      (by simpa using h.no_continuation)
  · simpa using @CleansTo.continued word [] (by simpa using hcomment) hlast (by simp)

/-- A line of plain words is no comment, and its items are its words. -/
theorem itemsOf_line {line ending : Text} (hline : ∀ piece ∈ Text.split ' ' line, IsPlain piece)
    (hending : IsEnding ending) :
    isComment (line ++ ending) = false ∧
      itemsOf (line ++ ending) = (Text.split ' ' line).filter (· ≠ []) := by
  induction line using Text.split_induction ' ' with
  | piece word hspace =>
    rw [Text.split_eq_singleton hspace] at hline ⊢
    have hword := hline word List.mem_cons_self
    have hnone : ' ' ∉ word ++ ending := by
      rcases hending with rfl | rfl | rfl <;> simp [hspace]
    rw [itemsOf_of_not_mem hnone, hword.cleanItem hending]
    exact ⟨hword.isComment hending, rfl⟩
  | cons word line hspace ih =>
    rw [Text.split_append_cons, Text.split_eq_singleton hspace, List.singleton_append] at hline ⊢
    obtain ⟨hword, hline⟩ := List.forall_mem_cons.1 hline
    obtain ⟨hcomment, hitems⟩ := ih hline
    have hplain : cleanItem word = word := by
      simpa using hword.cleanItem (Or.inl rfl : IsEnding [])
    rw [List.append_assoc, List.cons_append]
    constructor
    · cases word with
      | nil => rw [List.nil_append, isComment_cons_of_blank rfl, hcomment]
      | cons c word =>
        rw [List.cons_append, isComment_cons_of_not_blank (hword.visible c List.mem_cons_self)]
        simpa using hword.no_comment
    · rw [itemsOf_append_space, itemsOf_of_not_mem hspace, hplain, hitems,
        ← List.filter_append, List.singleton_append]

/-! ### Words over several lines -/

/-- The text with a space in place of every backslash that continues a line. -/
def joinLines : Text → Text
  | '\\' :: '\n' :: t => ' ' :: joinLines t
  | c :: t => c :: joinLines t
  | [] => []

/-- The words of a text. A space ends a word, and so does a backslash that continues the line. -/
def words (t : Text) : List Text :=
  (Text.split ' ' (joinLines t)).filter (· ≠ [])

/-- A newline that no backslash announces stays. -/
theorem joinLines_append_cons {c : Char} {s : Text} (hc : c = '\n' → s.getLast? ≠ some '\\')
    (t : Text) : joinLines (s ++ c :: t) = joinLines s ++ joinLines (c :: t) := by
  fun_induction joinLines s with
  | case1 s ih =>
    have hs : c = '\n' → s.getLast? ≠ some '\\' := by
      intro hnewline hlast
      exact hc hnewline (by simp [List.getLast?_cons, hlast])
    simp only [List.cons_append, joinLines, ih hs]
  | case2 d s hpair ih =>
    have hs : c = '\n' → s.getLast? ≠ some '\\' := by
      intro hnewline hlast
      exact hc hnewline (by simp [List.getLast?_cons, hlast])
    rw [List.cons_append, joinLines, ih hs, List.cons_append]
    -- The first character is no backslash in front of a newline.
    rintro rest rfl hrest
    cases s with
    | nil =>
      obtain ⟨rfl, rfl⟩ := List.cons.inj hrest
      exact hc rfl rfl
    | cons e s =>
      obtain ⟨rfl, -⟩ := List.cons.inj hrest
      exact hpair s rfl rfl
  | case3 => rfl

theorem joinLines_cons_of_ne {c : Char} (hc : c ≠ '\\') (t : Text) :
    joinLines (c :: t) = c :: joinLines t := by
  rw [joinLines]
  intro rest hbackslash
  exact absurd hbackslash hc

theorem joinLines_of_not_mem {t : Text} (h : '\n' ∉ t) : joinLines t = t := by
  induction t with
  | nil => rfl
  | cons c t ih =>
    obtain ⟨-, ht⟩ := not_or.1 (mt List.mem_cons.2 h)
    rw [joinLines, ih ht]
    rintro rest - rfl
    exact ht List.mem_cons_self

/-- What holds of the empty text and of all words holds of all pieces between spaces. -/
theorem forall_mem_split_of_words {p : Text → Prop} (hempty : p []) {t : Text}
    (h : ∀ word ∈ words t, p word) : ∀ piece ∈ Text.split ' ' (joinLines t), p piece := by
  intro piece hpiece
  by_cases hnil : piece = []
  · exact hnil ▸ hempty
  · exact h piece (List.mem_filter.2 ⟨hpiece, by simpa using hnil⟩)

theorem words_of_not_mem {t : Text} (h : '\n' ∉ t) :
    words t = (Text.split ' ' t).filter (· ≠ []) := by
  rw [words, joinLines_of_not_mem h]

theorem words_append_continuation {line : Text} (h : '\n' ∉ line) (t : Text) :
    words (line ++ '\\' :: '\n' :: t) = words line ++ words t := by
  have hjoin : joinLines (line ++ '\\' :: '\n' :: t) = line ++ ' ' :: joinLines t := by
    rw [joinLines_append_cons (by simp), joinLines_of_not_mem h]
    rfl
  rw [words, hjoin, Text.split_append_cons, List.filter_append, ← words_of_not_mem h, ← words]

/-- A character other than a space stands in a word. -/
theorem exists_mem_words {c : Char} {t : Text} (hspace : c ≠ ' ') (hmem : c ∈ joinLines t) :
    ∃ word ∈ words t, c ∈ word := by
  obtain ⟨before, after, hjoin⟩ := List.append_of_mem hmem
  obtain ⟨pieces, first, second, others, -, -, hsplit⟩ :=
    Text.split_append_cons_of_ne hspace before after
  refine ⟨first ++ c :: second, ?_, by simp⟩
  rw [words, hjoin, hsplit]
  simp

theorem mem_joinLines {c : Char} {t : Text} (hbackslash : c ≠ '\\') (hnewline : c ≠ '\n')
    (h : c ∈ t) : c ∈ joinLines t := by
  fun_induction joinLines t with
  | case1 t ih =>
    rw [List.mem_cons, List.mem_cons] at h
    exact List.mem_cons_of_mem _ (ih ((h.resolve_left hbackslash).resolve_left hnewline))
  | case2 d t _ ih =>
    rcases List.mem_cons.1 h with rfl | h
    · exact List.mem_cons_self
    · exact List.mem_cons_of_mem _ (ih h)
  | case3 => exact h

/-- In plain words a newline is announced by a backslash. -/
theorem exists_backslash {line t : Text} (h : ∀ word ∈ words (line ++ '\n' :: t), IsPlain word) :
    ∃ body, line = body ++ ['\\'] := by
  by_contra hline
  have hlast : line.getLast? ≠ some '\\' := fun hlast =>
    hline (List.getLast?_eq_some_iff.1 hlast)
  have hmem : '\n' ∈ joinLines (line ++ '\n' :: t) := by
    rw [joinLines_append_cons fun _ => hlast, joinLines_cons_of_ne (by decide)]
    simp
  obtain ⟨word, hword, hnewline⟩ := exists_mem_words (by decide) hmem
  exact (h word hword).newline_not_mem hnewline

/-- **Plain words are the items of the lines they stand in,** and none of the lines is a comment. -/
theorem flatMap_itemsOf_lines {t : Text} (h : ∀ word ∈ words t, IsPlain word) :
    (∀ line ∈ Text.linesWithEnds (t ++ ['\n']), isComment line = false) ∧
      (Text.linesWithEnds (t ++ ['\n'])).flatMap itemsOf = words t := by
  have hpieces : ∀ {line : Text}, '\n' ∉ line → (∀ word ∈ words line, IsPlain word) →
      ∀ piece ∈ Text.split ' ' line, IsPlain piece := by
    intro line hline hwords
    have hsplit := forall_mem_split_of_words isPlain_nil hwords
    rwa [joinLines_of_not_mem hline] at hsplit
  induction t using Text.split_induction '\n' with
  | piece line hline =>
    obtain ⟨hcomment, hitems⟩ := itemsOf_line (hpieces hline h) (Or.inr (Or.inl rfl))
    rw [Text.linesWithEnds_append_newline hline, words_of_not_mem hline]
    exact ⟨by simpa [Text.linesWithEnds] using hcomment, by simpa [Text.linesWithEnds] using hitems⟩
  | cons line t hline ih =>
    obtain ⟨body, rfl⟩ := exists_backslash h
    have hbody : '\n' ∉ body := fun hmem => hline (List.mem_append_left _ hmem)
    have hwords : words (body ++ ['\\'] ++ '\n' :: t) = words body ++ words t := by
      rw [List.append_assoc]
      exact words_append_continuation hbody t
    rw [hwords] at h ⊢
    obtain ⟨hfirst, hrest⟩ := List.forall_mem_append.1 h
    obtain ⟨hcomment, hitems⟩ := itemsOf_line (hpieces hbody hfirst) (Or.inr (Or.inr rfl))
    obtain ⟨hcomments, hlater⟩ := ih hrest
    rw [List.append_assoc, List.cons_append, Text.linesWithEnds_append_newline hline,
      List.flatMap_cons, List.append_assoc body, hlater, words_of_not_mem hbody]
    exact ⟨List.forall_mem_cons.2 ⟨hcomment, hcomments⟩, congrArg (· ++ words t) hitems⟩

/-- The same for lines that have come to their end. -/
theorem flatMap_itemsOf_isLines {t : Text} (hlines : Text.IsLines t)
    (h : ∀ word ∈ words t, IsPlain word) :
    (∀ line ∈ Text.linesWithEnds t, isComment line = false) ∧
      (Text.linesWithEnds t).flatMap itemsOf = words t := by
  obtain ⟨hcomment, hitems⟩ := flatMap_itemsOf_lines h
  have hend : Text.linesWithEnds (t ++ ['\n']) = Text.linesWithEnds t ++ [['\n']] :=
    Text.linesWithEnds_append hlines ['\n']
  rw [hend] at hcomment hitems
  exact ⟨(List.forall_mem_append.1 hcomment).1, by simpa using hitems⟩

/-! ### The end of the last line -/

/-- What can end a last line without being taken off as its end: a space, or a visible character
other than a backslash. -/
def IsFinal (c : Char) : Prop :=
  c = ' ' ∨ isBlank c = false ∧ c ≠ '\\'

/-- Lines of plain words come to an end in this way. -/
theorem isFinal_of_mem_getLast? {t : Text} (h : ∀ word ∈ words t, IsPlain word) {c : Char}
    (hc : c ∈ t.getLast?) : c = '\n' ∨ IsFinal c := by
  obtain ⟨s, rfl⟩ := List.getLast?_eq_some_iff.1 hc
  by_cases hnewline : c = '\n'
  · exact Or.inl hnewline
  by_cases hspace : c = ' '
  · exact Or.inr (Or.inl hspace)
  -- The character ends the last word.
  obtain ⟨before, first, second, after, -, hnil, hsplit⟩ :=
    Text.split_append_cons_of_ne hspace (joinLines s) []
  obtain ⟨rfl, rfl⟩ := List.cons.inj hnil
  have hlast : joinLines [c] = [c] := joinLines_of_not_mem (by simpa using Ne.symm hnewline)
  have hjoin : joinLines (s ++ [c]) = joinLines s ++ [c] := by
    rw [joinLines_append_cons (absurd · hnewline), hlast]
  have hword := h (first ++ [c]) (by simp [words, hjoin, hsplit])
  exact Or.inr (Or.inr ⟨hword.visible c (by simp), by simpa using hword.no_continuation⟩)

theorem itemsOf_append_newline {line : Text} (h : ∀ c ∈ line.getLast?, IsFinal c) :
    itemsOf (line ++ ['\n']) = itemsOf line := by
  induction line using Text.split_induction ' ' with
  | piece word hspace =>
    rw [itemsOf_of_not_mem (by simpa using hspace), itemsOf_of_not_mem hspace]
    cases hcomment : isComment word with
    | true => simp [cleanItem, isComment_append_newline, hcomment]
    | false =>
      cases hlast : word.getLast? with
      | none =>
        obtain rfl := List.getLast?_eq_none_iff.1 hlast
        rfl
      | some c =>
        rcases h c hlast with rfl | ⟨hvisible, hmark⟩
        · exact absurd (List.mem_of_getLast? hlast) hspace
        · have hends : c ≠ '\n' := by
            rintro rfl
            cases hvisible
          have hinner : CleansTo word word := .inner hcomment (by simpa [hlast] using hends)
          have hline : CleansTo (word ++ [] ++ ['\n']) word :=
            .last (by simpa [isComment_append_newline] using hcomment) (by simpa [hlast]) (by simp)
              (by simpa [hlast] using hmark)
          rw [List.append_nil] at hline
          rw [cleanItem_of_cleansTo hline, cleanItem_of_cleansTo hinner]
  | cons word line _ ih =>
    have hline : ∀ c ∈ line.getLast?, IsFinal c := fun c hc =>
      h c (Text.mem_getLast?_append_cons hc word)
    rw [List.append_assoc, List.cons_append, itemsOf_append_space, itemsOf_append_space, ih hline]

theorem ofLines_append_newline {line : Text} (h : ∀ c ∈ line.getLast?, IsFinal c)
    (lines : List Text) : ofLines (lines ++ [line ++ ['\n']]) = ofLines (lines ++ [line]) := by
  induction lines with
  | nil =>
    by_cases hcount : line.count ':' = 1
    · obtain ⟨target, prerequisites, rfl, htarget, hprerequisites⟩ :=
        Text.exists_pair_of_count hcount
      have hlast : ∀ c ∈ prerequisites.getLast?, IsFinal c := fun c hc =>
        h c (Text.mem_getLast?_append_cons hc target)
      rw [List.nil_append, List.nil_append, List.append_assoc, List.cons_append,
        ofLines_cons_rule htarget (by simpa using hprerequisites),
        ofLines_cons_rule htarget hprerequisites, List.flatMap_singleton, List.flatMap_singleton,
        itemsOf_append_newline hlast]
    · rw [List.nil_append, List.nil_append, ofLines_cons (by simpa using hcount),
        ofLines_cons hcount, itemsOf_append_newline h]
  | cons first lines ih =>
    rw [List.cons_append, List.cons_append, ofLines, ofLines, ih]
    simp only [List.flatMap_append, List.flatMap_singleton, itemsOf_append_newline h]

/-- A newline at the end is not missed. -/
theorem read_closed {content : Text} (h : ∀ c ∈ content.getLast?, c = '\n' ∨ IsFinal c) :
    read (closed content) = read content := by
  rw [closed]
  split_ifs with hend
  · rfl
  · obtain ⟨hne, hlast⟩ := not_or.1 hend
    obtain ⟨lines, line, rfl, hlines, hline⟩ := Text.exists_isLines_append content
    have hnonempty : line ≠ [] := by
      rintro rfl
      rw [List.append_nil] at hne hlast
      exact hlines.elim hne hlast
    have hfinal : ∀ c ∈ line.getLast?, IsFinal c := by
      intro c hc
      have hcontent : (lines ++ line).getLast? = some c := by
        rw [List.getLast?_append, Option.mem_def.1 hc]
        rfl
      refine (h c hcontent).resolve_left ?_
      rintro rfl
      exact hlast hcontent
    rw [read, read, List.append_assoc, Text.linesWithEnds_append hlines,
      Text.linesWithEnds_append hlines, Text.linesWithEnds_append_newline hline,
      Text.linesWithEnds_of_not_mem hnonempty hline, List.filter_append, List.filter_append]
    cases hcomment : isComment line with
    | true => simp [Text.linesWithEnds, isComment_append_newline, hcomment]
    | false =>
      simp [Text.linesWithEnds, isComment_append_newline, hcomment, ofLines_append_newline hfinal]

end SketchBuild.Depfile
