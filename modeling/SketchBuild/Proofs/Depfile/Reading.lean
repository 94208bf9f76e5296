import Mathlib.Data.List.Forall2
import SketchBuild.Depfile.Basic
import SketchBuild.Proofs.Text

/-!
# What a dependency file says

The rules for reading a dependency file, as relations that do not mention how it is read:

* `CleansTo`: what is left of a piece of a line as an item;
* `TakesTarget`: the target of a list of lines, and the lines without it;
* `Reads`: the target and the items of a content.

Reading follows these rules and nothing else (`reads_iff`). An item is never empty and never goes
beyond its line (`Reads.item`).
-/

namespace SketchBuild.Depfile

open Text (isBlank)

/-! ### Items -/

/-- What is left, as an item, of a piece of a line between two spaces. -/
inductive CleansTo : Text → Text → Prop
  /-- Nothing is left of a comment. -/
  | comment {piece : Text} (h : isComment piece = true) : CleansTo piece []
  /-- A piece that does not end its line is left whole. -/
  | inner {item : Text} (h : isComment item = false) (hend : item.getLast? ≠ some '\n') :
      CleansTo item item
  /-- A line that goes on ends with a backslash, and blanks may stand before it. -/
  | continued {item blanks : Text} (h : isComment (item ++ blanks ++ ['\\'] ++ ['\n']) = false)
      (hitem : ∀ c ∈ item.getLast?, isBlank c = false) (hblanks : ∀ c ∈ blanks, isBlank c = true) :
      CleansTo (item ++ blanks ++ ['\\'] ++ ['\n']) item
  /-- A line that does not go on may end with blanks. -/
  | last {item blanks : Text} (h : isComment (item ++ blanks ++ ['\n']) = false)
      (hitem : ∀ c ∈ item.getLast?, isBlank c = false) (hblanks : ∀ c ∈ blanks, isBlank c = true)
      (hmark : (item ++ blanks).getLast? ≠ some '\\') :
      CleansTo (item ++ blanks ++ ['\n']) item

theorem cleanItem_concat {line : Text} (h : isComment (line ++ ['\n']) = false) :
    cleanItem (line ++ ['\n']) = Text.trimEnd (dropContinuation line) := by
  simp [cleanItem, h]

theorem cleanItem_of_cleansTo {piece item : Text} (h : CleansTo piece item) :
    cleanItem piece = item := by
  cases h with
  | comment h => simp [cleanItem, h]
  | inner h hend => simp [cleanItem, h, hend]
  | continued h hitem hblanks =>
    rw [cleanItem_concat h, dropContinuation, if_pos List.getLast?_concat, List.dropLast_concat]
    exact Text.trimEnd_eq_iff.2 ⟨_, rfl, hitem, hblanks⟩
  | last h hitem hblanks hmark =>
    rw [cleanItem_concat h, dropContinuation, if_neg hmark]
    exact Text.trimEnd_eq_iff.2 ⟨_, rfl, hitem, hblanks⟩

theorem cleansTo_of_cleanItem {piece item : Text} (h : cleanItem piece = item) :
    CleansTo piece item := by
  unfold cleanItem at h
  split at h
  · next hcomment =>
    subst h
    exact .comment hcomment
  · next hcomment =>
    rw [Bool.not_eq_true] at hcomment
    split at h
    · next hend =>
      obtain ⟨line, rfl⟩ := List.getLast?_eq_some_iff.1 hend
      rw [List.dropLast_concat, dropContinuation] at h
      split at h
      · next hmark =>
        obtain ⟨body, rfl⟩ := List.getLast?_eq_some_iff.1 hmark
        rw [List.dropLast_concat] at h
        obtain ⟨blanks, rfl, hitem, hblanks⟩ := Text.trimEnd_eq_iff.1 h
        exact .continued hcomment hitem hblanks
      · next hmark =>
        obtain ⟨blanks, rfl, hitem, hblanks⟩ := Text.trimEnd_eq_iff.1 h
        exact .last hcomment hitem hblanks hmark
    · next hend =>
      subst h
      exact .inner hcomment hend

theorem cleansTo_iff {piece item : Text} : CleansTo piece item ↔ cleanItem piece = item :=
  ⟨cleanItem_of_cleansTo, cleansTo_of_cleanItem⟩

/-- An item does not go beyond its line. -/
theorem CleansTo.newline_not_mem {piece item : Text} (h : CleansTo piece item)
    (hline : Text.IsLine piece) : '\n' ∉ item := by
  cases h with
  | comment => exact List.not_mem_nil
  | inner _ hend =>
    intro hmem
    obtain ⟨before, after, rfl⟩ := List.append_of_mem hmem
    obtain rfl := hline before after rfl
    exact hend List.getLast?_concat
  | continued =>
    rw [List.append_assoc, List.append_assoc] at hline
    exact hline.newline_not_mem (by simp)
  | last =>
    rw [List.append_assoc] at hline
    exact hline.newline_not_mem (by simp)

/-- The items of lines are what is left of their pieces, where anything is. -/
def HasItems (lines items : List Text) : Prop :=
  ∃ cleaned, List.Forall₂ CleansTo (lines.flatMap (Text.split ' ')) cleaned ∧
    items = cleaned.filter (· ≠ [])

theorem forall₂_cleansTo_iff {pieces cleaned : List Text} :
    List.Forall₂ CleansTo pieces cleaned ↔ cleaned = pieces.map cleanItem := by
  have hclean : CleansTo = fun piece item => cleanItem piece = item := by
    funext piece item
    exact propext cleansTo_iff
  rw [hclean, ← List.forall₂_map_left_iff, List.forall₂_eq_eq_eq, eq_comm]

theorem hasItems_iff {lines items : List Text} :
    HasItems lines items ↔ items = lines.flatMap itemsOf := by
  have hitems : lines.flatMap itemsOf =
      ((lines.flatMap (Text.split ' ')).map cleanItem).filter (· ≠ []) := by
    rw [List.map_flatMap, List.filter_flatMap]
    rfl
  simp only [HasItems, forall₂_cleansTo_iff, exists_eq_left, hitems]

/-- An item is never empty and never goes beyond its line. -/
theorem HasItems.item {lines items : List Text} (h : HasItems lines items)
    (hlines : ∀ line ∈ lines, Text.IsLine line) {item : Text} (hitem : item ∈ items) :
    item ≠ [] ∧ '\n' ∉ item := by
  obtain ⟨cleaned, hcleaned, rfl⟩ := h
  obtain ⟨hmem, hne⟩ := List.mem_filter.1 hitem
  rw [forall₂_cleansTo_iff.1 hcleaned] at hmem
  obtain ⟨piece, hpiece, rfl⟩ := List.mem_map.1 hmem
  obtain ⟨line, hline, hpiece⟩ := List.mem_flatMap.1 hpiece
  have hend := (hlines line hline).of_isInfix (Text.infix_of_mem_split hpiece)
  exact ⟨by simpa using hne, (cleansTo_of_cleanItem rfl).newline_not_mem hend⟩

/-! ### The target -/

/-- The target that lines name, if any, and the lines without it and its colon: the first line
with exactly one colon names it. -/
inductive TakesTarget : List Text → Option Text → List Text → Prop
  | absent {lines : List Text} (h : ∀ line ∈ lines, line.count ':' ≠ 1) :
      TakesTarget lines none lines
  | found {before after : List Text} {target prerequisites : Text}
      (hbefore : ∀ line ∈ before, line.count ':' ≠ 1)
      (htarget : ':' ∉ target) (hprerequisites : ':' ∉ prerequisites) :
      TakesTarget (before ++ (target ++ ':' :: prerequisites) :: after) (some target)
        (before ++ prerequisites :: after)

theorem ofLines_cons_rule {target prerequisites : Text} (htarget : ':' ∉ target)
    (hprerequisites : ':' ∉ prerequisites) (lines : List Text) :
    ofLines ((target ++ ':' :: prerequisites) :: lines) =
      ⟨some target, (prerequisites :: lines).flatMap itemsOf⟩ := by
  have hsplit := Text.split_eq_pair_iff.2 ⟨rfl, htarget, hprerequisites⟩
  rw [ofLines, hsplit, List.flatMap_cons]

theorem ofLines_cons {line : Text} (h : line.count ':' ≠ 1) (lines : List Text) :
    ofLines (line :: lines) =
      ⟨(ofLines lines).target?, itemsOf line ++ (ofLines lines).items⟩ := by
  rw [ofLines]
  split
  · next target prerequisites hsplit =>
    have hlength := Text.length_split ':' line
    rw [hsplit] at hlength
    exact absurd (Nat.succ.inj hlength).symm h
  · rfl

theorem ofLines_of_takesTarget {lines rest : List Text} {target? : Option Text}
    (h : TakesTarget lines target? rest) : ofLines lines = ⟨target?, rest.flatMap itemsOf⟩ := by
  cases h with
  | absent h =>
    induction lines with
    | nil => rfl
    | cons line lines ih =>
      rw [ofLines_cons (h line List.mem_cons_self),
        ih fun other hother => h other (List.mem_cons_of_mem line hother), List.flatMap_cons]
  | @found before _ _ _ hbefore htarget hprerequisites =>
    induction before with
    | nil => exact ofLines_cons_rule htarget hprerequisites _
    | cons line before ih =>
      rw [List.cons_append, ofLines_cons (hbefore line List.mem_cons_self),
        ih fun other hother => hbefore other (List.mem_cons_of_mem line hother),
        List.cons_append, List.flatMap_cons]

theorem TakesTarget.cons {lines rest : List Text} {target? : Option Text} {line : Text}
    (hline : line.count ':' ≠ 1) (h : TakesTarget lines target? rest) :
    TakesTarget (line :: lines) target? (line :: rest) := by
  cases h with
  | absent h => exact .absent (List.forall_mem_cons.2 ⟨hline, h⟩)
  | @found before _ _ _ hbefore htarget hprerequisites =>
    exact @found (line :: before) _ _ _ (List.forall_mem_cons.2 ⟨hline, hbefore⟩) htarget
      hprerequisites

theorem exists_takesTarget (lines : List Text) :
    ∃ rest, TakesTarget lines (ofLines lines).target? rest := by
  induction lines with
  | nil => exact ⟨[], .absent (by simp)⟩
  | cons line lines ih =>
    by_cases hcount : line.count ':' = 1
    · obtain ⟨target, prerequisites, rfl, htarget, hprerequisites⟩ :=
        Text.exists_pair_of_count hcount
      rw [ofLines_cons_rule htarget hprerequisites]
      exact ⟨_, @TakesTarget.found [] _ _ _ (by simp) htarget hprerequisites⟩
    · obtain ⟨rest, hrest⟩ := ih
      rw [ofLines_cons hcount]
      exact ⟨line :: rest, hrest.cons hcount⟩

/-- A line is taken as it is, except for the one that names the target. -/
theorem TakesTarget.exists_line {lines rest : List Text} {target? : Option Text}
    (h : TakesTarget lines target? rest) {text : Text} (htext : text ∈ rest) :
    ∃ line ∈ lines, text <:+: line := by
  cases h with
  | absent => exact ⟨text, htext, List.infix_rfl⟩
  | found =>
    rcases List.mem_append.1 htext with hbefore | hafter
    · exact ⟨text, List.mem_append_left _ hbefore, List.infix_rfl⟩
    · rcases List.mem_cons.1 hafter with rfl | hafter
      · exact ⟨_, List.mem_append_right _ List.mem_cons_self,
          ((List.suffix_cons _ _).trans (List.suffix_append _ _)).isInfix⟩
      · exact ⟨text, List.mem_append_right _ (List.mem_cons_of_mem _ hafter), List.infix_rfl⟩

/-! ### The whole content -/

/-- The target and the items of a content: of the lines that are no comments, the target is taken
out, and what is left gives the items. -/
def Reads (content : Text) (target? : Option Text) (items : List Text) : Prop :=
  ∃ lines, TakesTarget ((Text.linesWithEnds content).filter (!isComment ·)) target? lines ∧
    HasItems lines items

theorem reads_iff {content : Text} {target? : Option Text} {items : List Text} :
    Reads content target? items ↔ read content = ⟨target?, items⟩ := by
  constructor
  · rintro ⟨lines, htarget, hitems⟩
    rw [read, ofLines_of_takesTarget htarget, hasItems_iff.1 hitems]
  · intro h
    obtain ⟨lines, htarget⟩ :=
      exists_takesTarget ((Text.linesWithEnds content).filter (!isComment ·))
    have hread := ofLines_of_takesTarget htarget
    rw [← read, h] at htarget hread
    exact ⟨lines, htarget, hasItems_iff.2 (Depfile.mk.inj hread).2⟩

/-- An item is never empty and never goes beyond its line. -/
theorem Reads.item {content : Text} {target? : Option Text} {items : List Text}
    (h : Reads content target? items) {item : Text} (hitem : item ∈ items) :
    item ≠ [] ∧ '\n' ∉ item := by
  obtain ⟨lines, htarget, hitems⟩ := h
  refine hitems.item (fun text htext => ?_) hitem
  obtain ⟨line, hline, hpart⟩ := htarget.exists_line htext
  exact (Text.isLine_of_mem_linesWithEnds (List.mem_filter.1 hline).1).of_isInfix hpart

end SketchBuild.Depfile
