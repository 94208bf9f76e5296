import SketchBuild.Proofs.Depfile.Rules
import SketchBuild.Proofs.Depfile.Words

/-!
# Dependency files of several rules

A compiler can be told to write more than one rule, and a rule can be continued over lines. Reading
looks for one target only, the first:

* the first rule is read as it should be, apart from targets on lines above its colon, which count
  as items;
* of every later rule all words count as items, the target with its colon among them.

So the empty rules that are added name nothing but prerequisites exactly if there is no later rule
and the targets above the first colon are prerequisites too (`items_of_rules`).
-/

namespace SketchBuild.Depfile

/-- A name of a file as it can stand in a rule. -/
structure IsName (word : Text) : Prop extends IsPlain word where
  no_colon : ':' ∉ word

instance (word : Text) : Decidable (IsName word) :=
  decidable_of_iff (IsPlain word ∧ ':' ∉ word)
    ⟨fun ⟨hplain, hcolon⟩ => ⟨hplain, hcolon⟩, fun h => ⟨h.toIsPlain, h.no_colon⟩⟩

/-- A rule as it is written: targets, a colon and prerequisites, with spaces and continued lines
between the names. -/
structure MakeRule where
  /-- The lines of targets above the one with the colon. -/
  above : Text
  /-- What stands before the colon in its line. -/
  target : Text
  /-- Everything behind the colon. -/
  listing : Text
  /-- The number of empty lines behind the rule. -/
  gap : Nat
  above_lines : Text.IsLines above
  target_line : '\n' ∉ target
  has_target : words above ++ words target ≠ []
  above_names : ∀ word ∈ words above, IsName word
  target_names : ∀ word ∈ words target, IsName word
  listing_names : ∀ word ∈ words listing, IsName word

namespace MakeRule

variable (rule : MakeRule)

/-- The prerequisites of a rule. -/
def prerequisites : List Text :=
  words rule.listing

/-- The rule as a text. -/
def text : Text :=
  rule.above ++ (rule.target ++ ':' :: rule.listing ++ ['\n']) ++ List.replicate rule.gap '\n'

/-- The words of a rule when the colon is a character like any other. -/
def unreadWords : List Text :=
  words rule.above ++ words (rule.target ++ ':' :: rule.listing)

end MakeRule

/-! ### Names and the colon -/

theorem isName_nil : IsName [] :=
  ⟨isPlain_nil, List.not_mem_nil⟩

theorem colon_not_mem {t : Text} (h : ∀ word ∈ words t, IsName word) : ':' ∉ t := by
  intro hcolon
  obtain ⟨word, hword, hmem⟩ :=
    exists_mem_words (by decide) (mem_joinLines (by decide) (by decide) hcolon)
  exact (h word hword).no_colon hmem

theorem IsName.append_colon {first second : Text} (hfirst : IsName first)
    (hsecond : IsName second) : IsPlain (first ++ ':' :: second) where
  visible := by
    intro c hc
    rcases List.mem_append.1 hc with hc | hc
    · exact hfirst.visible c hc
    · rcases List.mem_cons.1 hc with rfl | hc
      · rfl
      · exact hsecond.visible c hc
  no_comment := by
    cases first with
    | nil => simp
    | cons c first => exact hfirst.no_comment
  no_continuation := by
    cases hlast : second.getLast? with
    | none => simp [List.getLast?_append, List.getLast?_cons, hlast]
    | some c =>
      rw [Text.mem_getLast?_append_cons hlast first, ← hlast]
      exact hsecond.no_continuation

namespace MakeRule

variable (rule : MakeRule)

/-- Without a meaning of its own the colon joins the last target to the first prerequisite, as far
as they touch it. -/
theorem exists_words_colon :
    ∃ before first second after, (∀ word ∈ before, IsName word) ∧ IsName first ∧ IsName second ∧
      (∀ word ∈ after, IsName word) ∧
      words (rule.target ++ ':' :: rule.listing) =
        before ++ (first ++ ':' :: second) :: after := by
  have htarget := forall_mem_split_of_words isName_nil rule.target_names
  have hlisting := forall_mem_split_of_words isName_nil rule.listing_names
  obtain ⟨before, first, second, after, hleft, hright, hsplit⟩ :=
    @Text.split_append_cons_of_ne ' ' ':' (by decide) (joinLines rule.target)
      (joinLines rule.listing)
  rw [hleft] at htarget
  rw [hright] at hlisting
  obtain ⟨hbefore, hfirst⟩ := List.forall_mem_append.1 htarget
  obtain ⟨hsecond, hafter⟩ := List.forall_mem_cons.1 hlisting
  refine ⟨before.filter (· ≠ []), first, second, after.filter (· ≠ []),
    fun word hword => hbefore word (List.mem_of_mem_filter hword), hfirst first (by simp), hsecond,
    fun word hword => hafter word (List.mem_of_mem_filter hword), ?_⟩
  rw [words, joinLines_append_cons (by simp), joinLines_cons_of_ne (by decide), hsplit]
  simp

theorem isPlain_of_mem_words_colon :
    ∀ word ∈ words (rule.target ++ ':' :: rule.listing), IsPlain word := by
  obtain ⟨before, first, second, after, hbefore, hfirst, hsecond, hafter, hwords⟩ :=
    rule.exists_words_colon
  intro word hword
  rw [hwords, List.mem_append, List.mem_cons] at hword
  rcases hword with hword | rfl | hword
  · exact (hbefore word hword).toIsPlain
  · exact hfirst.append_colon hsecond
  · exact (hafter word hword).toIsPlain

theorem countP_colon_eq_zero {names : List Text} (h : ∀ word ∈ names, IsName word) :
    names.countP (':' ∈ ·) = 0 :=
  List.countP_eq_zero.2 fun word hword => by simpa using (h word hword).no_colon

/-- One word of a rule holds the colon. -/
theorem countP_unreadWords : rule.unreadWords.countP (':' ∈ ·) = 1 := by
  obtain ⟨before, first, second, after, hbefore, -, -, hafter, hwords⟩ := rule.exists_words_colon
  rw [unreadWords, hwords, List.countP_append, List.countP_append, List.countP_cons,
    countP_colon_eq_zero rule.above_names, countP_colon_eq_zero hbefore,
    countP_colon_eq_zero hafter]
  simp

/-! ### Lines of a rule -/

theorem isLines_text : Text.IsLines rule.text :=
  (rule.above_lines.append (Text.isLines_concat _)).append (Text.isLines_newlines rule.gap)

theorem linesWithEnds_text :
    Text.linesWithEnds rule.text = Text.linesWithEnds rule.above ++
      Text.linesWithEnds (rule.target ++ ':' :: rule.listing ++ ['\n']) ++
        List.replicate rule.gap ['\n'] := by
  rw [text, Text.linesWithEnds_append (rule.above_lines.append (Text.isLines_concat _)),
    Text.linesWithEnds_append rule.above_lines, Text.linesWithEnds_newlines]

theorem flatMap_itemsOf_above :
    (∀ line ∈ Text.linesWithEnds rule.above, isComment line = false) ∧
      (Text.linesWithEnds rule.above).flatMap itemsOf = words rule.above :=
  flatMap_itemsOf_isLines rule.above_lines fun word hword =>
    (rule.above_names word hword).toIsPlain

theorem flatMap_itemsOf_gap : (List.replicate rule.gap ['\n']).flatMap itemsOf = [] := by
  rw [List.flatMap_replicate, itemsOf_newline]
  simp

/-- No line of a rule is a comment. -/
theorem isComment_of_mem_linesWithEnds :
    ∀ line ∈ Text.linesWithEnds rule.text, isComment line = false := by
  intro line hline
  rw [linesWithEnds_text, List.mem_append, List.mem_append] at hline
  rcases hline with (hline | hline) | hline
  · exact rule.flatMap_itemsOf_above.1 line hline
  · exact (flatMap_itemsOf_lines rule.isPlain_of_mem_words_colon).1 line hline
  · rw [List.eq_of_mem_replicate hline]
    rfl

/-- A rule that is not read as one gives all its words as items. -/
theorem flatMap_itemsOf_text :
    (Text.linesWithEnds rule.text).flatMap itemsOf = rule.unreadWords := by
  rw [linesWithEnds_text, List.flatMap_append, List.flatMap_append, rule.flatMap_itemsOf_above.2,
    (flatMap_itemsOf_lines rule.isPlain_of_mem_words_colon).2, flatMap_itemsOf_gap,
    List.append_nil, unreadWords]

/-- The first rule is read as one: its target is what stands before the colon in its line. -/
theorem read_text_append {rest : Text}
    (hrest : ∀ line ∈ Text.linesWithEnds rest, isComment line = false) :
    read (rule.text ++ rest) =
      ⟨some rule.target, words rule.above ++ rule.prerequisites ++
        (Text.linesWithEnds rest).flatMap itemsOf⟩ := by
  have hcomments : (Text.linesWithEnds (rule.text ++ rest)).filter (!isComment ·) =
      Text.linesWithEnds rule.text ++ Text.linesWithEnds rest := by
    rw [Text.linesWithEnds_append rule.isLines_text, List.filter_eq_self]
    intro line hline
    rcases List.mem_append.1 hline with hline | hline
    · simp [rule.isComment_of_mem_linesWithEnds line hline]
    · simp [hrest line hline]
  -- The line with the colon, and the same line without the target.
  have hleft : '\n' ∉ rule.target ++ [':'] := by simp [rule.target_line]
  have hne : rule.listing ++ ['\n'] ≠ [] := by simp
  obtain ⟨first, lines, hlisting, hrule⟩ := Text.linesWithEnds_prepend hleft hne
  have hfirst : ':' ∉ first := by
    intro hcolon
    have hmem := Text.mem_of_mem_linesWithEnds (hlisting ▸ List.mem_cons_self) hcolon
    exact colon_not_mem rule.listing_names (by simpa using hmem)
  have habove : ∀ line ∈ Text.linesWithEnds rule.above, line.count ':' ≠ 1 := by
    intro line hline hcount
    have hcolon : ':' ∈ line := List.count_pos_iff.1 (by omega)
    exact colon_not_mem rule.above_names (Text.mem_of_mem_linesWithEnds hline hcolon)
  have hitems := (flatMap_itemsOf_lines fun word hword =>
    (rule.listing_names word hword).toIsPlain).2
  have htakes := @TakesTarget.found _ (lines ++ List.replicate rule.gap ['\n'] ++
    Text.linesWithEnds rest) _ _ habove (colon_not_mem rule.target_names) hfirst
  have hread := ofLines_of_takesTarget htakes
  rw [hlisting, List.flatMap_cons] at hitems
  rw [read, hcomments, linesWithEnds_text]
  simp only [List.append_assoc, List.cons_append, List.nil_append] at hrule hread ⊢
  rw [hrule, List.cons_append, hread]
  simp [rule.flatMap_itemsOf_above.2, rule.flatMap_itemsOf_gap, prerequisites, ← hitems]

end MakeRule

/-! ### Several rules -/

theorem flatMap_itemsOf_rules (rules : List MakeRule) :
    (∀ line ∈ Text.linesWithEnds (rules.flatMap MakeRule.text), isComment line = false) ∧
      (Text.linesWithEnds (rules.flatMap MakeRule.text)).flatMap itemsOf =
        rules.flatMap MakeRule.unreadWords := by
  induction rules with
  | nil => simp [Text.linesWithEnds]
  | cons rule rules ih =>
    rw [List.flatMap_cons, Text.linesWithEnds_append rule.isLines_text, List.flatMap_append,
      List.flatMap_cons, rule.flatMap_itemsOf_text, ih.2]
    exact ⟨List.forall_mem_append.2 ⟨rule.isComment_of_mem_linesWithEnds, ih.1⟩, rfl⟩

/-- Before its last newline a rule ends with nothing that would be taken off. -/
theorem MakeRule.exists_text_eq (rule : MakeRule) :
    ∃ body c, rule.text = body ++ ['\n'] ∧ body.getLast? = some c ∧ (c = '\n' ∨ IsFinal c) := by
  rw [text]
  cases rule.gap with
  | zero =>
    refine ⟨rule.above ++ (rule.target ++ ':' :: rule.listing), ?_⟩
    cases hlast : rule.listing.getLast? with
    | none =>
      obtain hnil := List.getLast?_eq_none_iff.1 hlast
      exact ⟨':', by simp, by simp [hnil], Or.inr (Or.inr ⟨rfl, by decide⟩)⟩
    | some c =>
      have hfinal := isFinal_of_mem_getLast?
        (fun word hword => (rule.listing_names word hword).toIsPlain) hlast
      exact ⟨c, by simp, by simp [List.getLast?_append, List.getLast?_cons, hlast], hfinal⟩
  | succ gap =>
    have hlines := (rule.above_lines.append
      (Text.isLines_concat (rule.target ++ ':' :: rule.listing))).append
      (Text.isLines_newlines gap)
    refine ⟨_, '\n', ?_, hlines.resolve_left (by simp), Or.inl rfl⟩
    rw [List.replicate_succ', ← List.append_assoc]

/-- Rules are read alike with and without the newline at the end. -/
theorem read_of_closed_eq_rules {content : Text} {rules : List MakeRule}
    (h : closed content = rules.flatMap MakeRule.text) :
    read content = read (rules.flatMap MakeRule.text) := by
  rw [← h]
  refine (read_closed fun c hc => ?_).symm
  rw [closed] at h
  split_ifs at h with hend
  · refine Or.inl ?_
    rcases hend with rfl | hend
    · cases hc
    · exact Option.some.inj (hc.symm.trans hend)
  · cases rules using List.reverseRecOn with
    | nil => simp at h
    | append_singleton rules rule =>
      obtain ⟨body, d, htext, hlast, hd⟩ := rule.exists_text_eq
      rw [List.flatMap_append, List.flatMap_singleton, htext, ← List.append_assoc] at h
      obtain rfl := List.append_cancel_right h
      rw [List.getLast?_append, hlast] at hc
      obtain rfl := Option.some.inj hc
      exact hd

/-- **Only the first rule of a dependency file is read as a rule.** The items are the prerequisites
of the first rule, after the targets above its colon, and all words of the later rules, of which
one in each rule holds the colon. Hence the empty rules name nothing but prerequisites exactly if
there is one rule and the targets above its colon are prerequisites as well. -/
theorem items_of_rules (first : MakeRule) (later : List MakeRule) (content : Text)
    (h : closed content = (first :: later).flatMap MakeRule.text) :
    ∃ items, Reads content (some first.target) items ∧
      (∀ registry used augmented, augment registry used content = .ok augmented →
        ∃ stamps, augmented = closed content ++ items.flatMap phonyRule ++ stamps) ∧
      items = words first.above ++ first.prerequisites ++ later.flatMap MakeRule.unreadWords ∧
      items.countP (':' ∈ ·) = later.length ∧
      ((∀ item ∈ items, ∃ rule ∈ first :: later, item ∈ rule.prerequisites) ↔
        later = [] ∧ ∀ word ∈ words first.above, word ∈ first.prerequisites) := by
  obtain ⟨hcomments, hlater⟩ := flatMap_itemsOf_rules later
  have hread : read content = ⟨some first.target,
      words first.above ++ first.prerequisites ++ later.flatMap MakeRule.unreadWords⟩ := by
    rw [read_of_closed_eq_rules h, List.flatMap_cons, first.read_text_append hcomments, hlater]
  have hcount : (words first.above ++ first.prerequisites ++
      later.flatMap MakeRule.unreadWords).countP (':' ∈ ·) = later.length := by
    rw [List.countP_append, List.countP_append, MakeRule.countP_colon_eq_zero first.above_names,
      MakeRule.prerequisites, MakeRule.countP_colon_eq_zero first.listing_names,
      List.countP_flatMap]
    simp [Function.comp_def, MakeRule.countP_unreadWords]
  refine ⟨_, reads_iff.2 hread, fun registry used augmented haugment => ?_, rfl, hcount, ?_⟩
  · obtain ⟨rules, -, htext⟩ := augment_eq_ok.1 haugment
    exact ⟨rules.flatten, by rw [htext, hread]⟩
  · constructor
    · intro hitems
      have hnone : later = [] := by
        rw [← List.length_eq_zero_iff, ← hcount]
        refine MakeRule.countP_colon_eq_zero fun item hitem => ?_
        obtain ⟨rule, -, hmem⟩ := hitems item hitem
        exact rule.listing_names item hmem
      subst hnone
      refine ⟨rfl, fun word hword => ?_⟩
      simpa using hitems word (by simp [hword])
    · rintro ⟨rfl, habove⟩ item hitem
      refine ⟨first, List.mem_cons_self, ?_⟩
      rw [List.flatMap_nil, List.append_nil] at hitem
      exact (List.mem_append.1 hitem).elim (habove item) id

/-- The rule of an object with two headers, continued on a second line. -/
def objectRule : MakeRule where
  above := []
  target := "a.o".toList
  listing := " b.h \\\n c.h".toList
  gap := 1
  above_lines := Text.isLines_nil
  target_line := by decide +kernel
  has_target := by decide +kernel
  above_names := by decide +kernel
  target_names := by decide +kernel
  listing_names := by decide +kernel

/-- The rule of a header that depends on nothing. -/
def headerRule : MakeRule where
  above := []
  target := "b.h".toList
  listing := []
  gap := 0
  above_lines := Text.isLines_nil
  target_line := by decide +kernel
  has_target := by decide +kernel
  above_names := by decide +kernel
  target_names := by decide +kernel
  listing_names := by decide +kernel

/-- An object and a header, the last line without its end. -/
theorem items_of_object_and_header :
    closed "a.o: b.h \\\n c.h\n\nb.h:".toList =
        [objectRule, headerRule].flatMap MakeRule.text ∧
      ∃ items, Reads "a.o: b.h \\\n c.h\n\nb.h:".toList (some objectRule.target) items ∧
        items.countP (':' ∈ ·) = 1 := by
  have h : closed "a.o: b.h \\\n c.h\n\nb.h:".toList =
      [objectRule, headerRule].flatMap MakeRule.text := by decide +kernel
  obtain ⟨items, hreads, -, -, hcount, -⟩ := items_of_rules objectRule [headerRule] _ h
  exact ⟨h, items, hreads, hcount⟩

/-- The target of a later rule gets an empty rule of its own, with a second colon, although no rule
has it for a prerequisite. -/
theorem later_target_clashes :
    let content := "a.o: b.h \\\n c.h\n\nb.h:\n".toList
    [objectRule, headerRule].flatMap MakeRule.text = content ∧
      objectRule.prerequisites ++ headerRule.prerequisites = ["b.h".toList, "c.h".toList] ∧
      augment ∅ (usedIn (fun header => directoryName ⟨header⟩) content) content =
        .ok (content ++ "b.h:\nc.h:\nb.h::\n".toList) := by
  decide +kernel

end SketchBuild.Depfile
