import SketchBuild.Proofs.Depfile.Comments
import SketchBuild.Proofs.Depfile.MakeRules

/-!
# Dependency files of one rule

A compiler writes one rule for an object, and may break its lines wherever names end. The layout
leaves no trace: whatever the gaps between the names, reading gives the target and the
prerequisites.

* `IsGap`, `LaidOut`: the layouts of a list of names.
* `LaidOut.words_eq`: the names are the words of their layout.
* `read_rule`: a rule whose first line holds the colon is read as one.
* `OneRule.read_exactly`: the target and the prerequisites of every layout are found.
-/

namespace SketchBuild.Depfile

open Text (isBlank)

/-! ### Layouts -/

/-- What separates names: spaces, and backslashes that continue the line. -/
inductive IsGap : Text → Prop
  | nil : IsGap []
  | space {gap : Text} (h : IsGap gap) : IsGap (' ' :: gap)
  | lineBreak {gap : Text} (h : IsGap gap) : IsGap ('\\' :: '\n' :: gap)

/-- The names stand in the text one after the other, each with a gap behind it. Only behind the last
of them there may be none. -/
inductive LaidOut : List Text → Text → Prop
  | nil : LaidOut [] []
  | last (name : Text) : LaidOut [name] name
  | cons {name gap t : Text} {names : List Text} (hgap : IsGap gap) (hne : gap ≠ [])
      (h : LaidOut names t) : LaidOut (name :: names) (name ++ (gap ++ t))

/-- A dependency file of one rule, in any layout. -/
structure OneRule where
  target : Text
  prerequisites : List Text
  /-- What stands between the colon and the first prerequisite. -/
  lead : Text
  /-- The prerequisites and the gaps behind them. -/
  listing : Text
  ending : Text
  target_line : '\n' ∉ target
  target_colon : ':' ∉ target
  target_comment : isComment target = false
  names : ∀ name ∈ prerequisites, name ≠ [] ∧ IsName name
  lead_gap : IsGap lead
  laidOut : LaidOut prerequisites listing
  ending_newline : ending = [] ∨ ending = ['\n']

/-- The rule as a text. -/
def OneRule.text (rule : OneRule) : Text :=
  rule.target ++ ':' :: (rule.lead ++ rule.listing ++ rule.ending)

/-! ### Words of a layout -/

theorem words_append_space (s t : Text) : words (s ++ ' ' :: t) = words s ++ words t := by
  have hjoin : joinLines (s ++ ' ' :: t) = joinLines s ++ ' ' :: joinLines t := by
    rw [joinLines_append_cons (by simp), joinLines_cons_of_ne (by decide)]
  rw [words, hjoin, Text.split_append_cons, List.filter_append, ← words, ← words]

theorem words_name {name : Text} (hne : name ≠ []) (h : IsName name) : words name = [name] := by
  have hspace : ' ' ∉ name := fun hmem => by cases h.visible _ hmem
  rw [words_of_not_mem h.newline_not_mem, Text.split_eq_singleton hspace]
  simp [hne]

namespace IsGap

variable {gap : Text}

theorem words_append (h : IsGap gap) (t : Text) : words (gap ++ t) = words t := by
  induction h with
  | nil => rfl
  | space _ ih => exact (words_append_space [] _).trans ih
  | lineBreak _ ih => exact (words_append_continuation List.not_mem_nil _).trans ih

/-- A gap ends the words before it. -/
theorem words_append_append (h : IsGap gap) (hne : gap ≠ []) {line : Text} (hline : '\n' ∉ line)
    (t : Text) : words (line ++ (gap ++ t)) = words line ++ words t := by
  cases h with
  | nil => exact absurd rfl hne
  | space h => rw [List.cons_append, words_append_space, h.words_append]
  | lineBreak h =>
    rw [List.cons_append, List.cons_append, words_append_continuation hline, h.words_append]

end IsGap

/-- The names are the words of their layout. -/
theorem LaidOut.words_eq {names : List Text} {t : Text} (h : LaidOut names t)
    (hnames : ∀ name ∈ names, name ≠ [] ∧ IsName name) : words t = names := by
  induction h with
  | nil => rfl
  | last name =>
    obtain ⟨hne, hname⟩ := hnames name List.mem_cons_self
    exact words_name hne hname
  | cons hgap hgapne _ ih =>
    obtain ⟨⟨hne, hname⟩, hothers⟩ := List.forall_mem_cons.1 hnames
    rw [hgap.words_append_append hgapne hname.newline_not_mem, words_name hne hname, ih hothers,
      List.singleton_append]

/-! ### One rule -/

section Rule

variable {target listing : Text} (hline : '\n' ∉ target) (hcolon : ':' ∉ target)
  (hcomment : isComment target = false)

include hline hcolon hcomment

/-- A rule whose first line holds the colon is read as one. -/
theorem read_rule (hlisting : ':' ∉ listing)
    (hcomments : ∀ line ∈ Text.linesWithEnds listing, isComment line = false) :
    read (target ++ ':' :: listing) =
      ⟨some target, (Text.linesWithEnds listing).flatMap itemsOf⟩ := by
  have htarget : ∀ rest, isComment (target ++ ':' :: rest) = false := by
    intro rest
    rw [isComment_append]
    split
    · rfl
    · exact hcomment
  have hleft : '\n' ∉ target ++ [':'] := by simp [hline]
  by_cases hne : listing = []
  · subst hne
    rw [read, Text.linesWithEnds_of_not_mem (by simp) hleft, List.filter_cons_of_pos
      (by simp [htarget]), List.filter_nil, ofLines_cons_rule hcolon hlisting]
    rfl
  · obtain ⟨first, lines, hlines, hrule⟩ := Text.linesWithEnds_prepend hleft hne
    rw [hlines] at hcomments
    have hfirst : ':' ∉ first := fun hmem =>
      hlisting (Text.mem_of_mem_linesWithEnds (hlines ▸ List.mem_cons_self) hmem)
    have hfilter : ((target ++ ':' :: first) :: lines).filter (!isComment ·) =
        (target ++ ':' :: first) :: lines := by
      rw [List.filter_eq_self, List.forall_mem_cons]
      refine ⟨by simp [htarget], fun line hmem => ?_⟩
      simp [hcomments line (List.mem_cons_of_mem _ hmem)]
    rw [List.append_assoc, List.append_assoc] at hrule
    rw [read, ← List.singleton_append, hrule, List.singleton_append, hfilter,
      ofLines_cons_rule hcolon hfirst, hlines]

/-- The items of a rule are the words behind its colon, with and without a newline at the end. -/
theorem read_rule_words (hnames : ∀ word ∈ words listing, IsName word) :
    read (target ++ ':' :: (listing ++ ['\n'])) = ⟨some target, words listing⟩ ∧
      read (target ++ ':' :: listing) = ⟨some target, words listing⟩ := by
  have hplain : ∀ word ∈ words listing, IsPlain word := fun word hword =>
    (hnames word hword).toIsPlain
  have hlisting : ':' ∉ listing := colon_not_mem hnames
  obtain ⟨hcomments, hitems⟩ := flatMap_itemsOf_lines hplain
  have hclosed : read (target ++ ':' :: (listing ++ ['\n'])) = ⟨some target, words listing⟩ := by
    rw [read_rule hline hcolon hcomment (by simp [hlisting]) hcomments, hitems]
  refine ⟨hclosed, ?_⟩
  by_cases hlines : Text.IsLines listing
  · obtain ⟨hcomments, hitems⟩ := flatMap_itemsOf_isLines hlines hplain
    rw [read_rule hline hcolon hcomment hlisting hcomments, hitems]
  · obtain ⟨hne, hopen⟩ := not_or.1 hlines
    have hlast : (target ++ ':' :: listing).getLast? = listing.getLast? := by
      rw [List.getLast?_append_of_ne_nil _ (List.cons_ne_nil _ _), List.getLast?_cons_of_ne_nil hne]
    have hends : closed (target ++ ':' :: listing) = target ++ ':' :: (listing ++ ['\n']) := by
      rw [closed, if_neg (by simp [hlast, hopen]), List.append_assoc, List.cons_append]
    rw [← read_closed fun c hc => isFinal_of_mem_getLast? hplain (hlast ▸ hc), hends, hclosed]

end Rule

/-- **A dependency file of one rule is read exactly.** Whatever the layout, its target and its
prerequisites are found, every prerequisite as often as it is written and in order. So the stamp
rules and a conflict are about this target, and the empty rules are those of the prerequisites. -/
theorem OneRule.read_exactly (rule : OneRule) :
    read rule.text = ⟨some rule.target, rule.prerequisites⟩ ∧
      ∀ (registry : Registry) (used : List LibraryId),
        augment registry used rule.text =
          (stampRules rule.target used registry.toList).map fun stamps =>
            closed rule.text ++ rule.prerequisites.flatMap phonyRule ++ stamps.flatten := by
  have hwords : words (rule.lead ++ rule.listing) = rule.prerequisites := by
    rw [rule.lead_gap.words_append, rule.laidOut.words_eq rule.names]
  have hread : read rule.text = ⟨some rule.target, rule.prerequisites⟩ := by
    obtain ⟨hended, hopen⟩ := read_rule_words rule.target_line rule.target_colon
      rule.target_comment (hwords.symm ▸ fun word hword => (rule.names word hword).2)
    rw [hwords] at hended hopen
    rw [text]
    rcases rule.ending_newline with hending | hending
    · rw [hending, List.append_nil, hopen]
    · rw [hending, hended]
  refine ⟨hread, fun registry used => ?_⟩
  rw [augment_eq_map_verdict, hread]
  rfl

/-- A rule whose first line and whose third line hold no prerequisite, with names that touch what
continues their line and without a newline at its end. -/
def OneRule.overLines : OneRule where
  target := "build/a.o".toList
  prerequisites := ["a.cpp".toList, "b\\c.h".toList, "a.cpp".toList]
  lead := " \\\n ".toList
  listing := "a.cpp\\\n \\\nb\\c.h  a.cpp".toList
  ending := []
  target_line := by decide +kernel
  target_colon := by decide +kernel
  target_comment := by decide +kernel
  names := by decide +kernel
  lead_gap := .space (.lineBreak (.space .nil))
  laidOut := .cons (.lineBreak (.space (.lineBreak .nil))) (by simp)
    (.cons (.space (.space .nil)) (by simp) (.last _))
  ending_newline := Or.inl rfl

/-- The backslash inside a name stays, and the name that is written twice gets two empty rules. -/
theorem OneRule.read_exactly_overLines :
    OneRule.overLines.text = "build/a.o: \\\n a.cpp\\\n \\\nb\\c.h  a.cpp".toList ∧
      read OneRule.overLines.text =
        ⟨some "build/a.o".toList, ["a.cpp".toList, "b\\c.h".toList, "a.cpp".toList]⟩ ∧
      augment ∅ [] OneRule.overLines.text =
        .ok ("build/a.o: \\\n a.cpp\\\n \\\nb\\c.h  a.cpp\n".toList ++
          "a.cpp:\nb\\c.h:\na.cpp:\n".toList) := by
  obtain ⟨hread, haugment⟩ := OneRule.overLines.read_exactly
  refine ⟨by decide +kernel, hread, ?_⟩
  rw [haugment]
  decide +kernel

end SketchBuild.Depfile
