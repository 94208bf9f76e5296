import SketchBuild.Proofs.Depfile.Conflicts
import SketchBuild.Proofs.Depfile.Words

/-!
# Comments in a dependency file

A hash sign at the start of a line or behind a space begins a comment that goes up to the end of
the line. Reading skips a line that is a comment as a whole. In other lines it leaves out only the
word with the hash sign:

* the words of the comment that follow count as items, and
* a colon in the comment counts when the target is looked for.

`comment_inert_iff` says when a comment makes no difference. In a line with other content, and as
far as the colons in the comment do not decide about the target, that is so exactly if every later
word of the comment is empty or starts with a hash sign itself.
-/

namespace SketchBuild.Depfile

open Text (isBlank)

/-! ### A line among other lines -/

/-- What a line counts for: a comment counts for nothing. -/
def kept (line : Text) : Text :=
  if isComment line then [] else line

theorem ofLines_nil_cons (lines : List Text) : ofLines ([] :: lines) = ofLines lines := by
  rw [ofLines_cons (by simp)]
  rfl

theorem flatMap_itemsOf_filter (lines : List Text) :
    (lines.filter (!isComment ·)).flatMap itemsOf = (lines.map kept).flatMap itemsOf := by
  induction lines with
  | nil => rfl
  | cons line lines ih => cases hcomment : isComment line <;> simp [kept, hcomment, ih]

theorem ofLines_filter (lines : List Text) :
    ofLines (lines.filter (!isComment ·)) = ofLines (lines.map kept) := by
  induction lines with
  | nil => rfl
  | cons line lines ih =>
    rw [List.map_cons, kept]
    cases hcomment : isComment line with
    | true => simp [hcomment, ofLines_nil_cons, ih]
    | false => simp [hcomment, ofLines, ih, flatMap_itemsOf_filter]

/-- The lines above settle the target, or leave it to the lines below. -/
theorem ofLines_append (above below : List Text) :
    ofLines (above ++ below) =
      if (ofLines above).target? = none then
        ⟨(ofLines below).target?, (ofLines above).items ++ (ofLines below).items⟩
      else ⟨(ofLines above).target?, (ofLines above).items ++ below.flatMap itemsOf⟩ := by
  induction above with
  | nil => simp [ofLines]
  | cons line above ih =>
    by_cases hcount : line.count ':' = 1
    · obtain ⟨target, prerequisites, rfl, htarget, hprerequisites⟩ :=
        Text.exists_pair_of_count hcount
      rw [List.cons_append, ofLines_cons_rule htarget hprerequisites,
        ofLines_cons_rule htarget hprerequisites]
      simp
    · rw [List.cons_append, ofLines_cons hcount, ofLines_cons hcount, ih]
      split_ifs <;> simp

theorem ofLines_insert_nil (above below : List Text) :
    ofLines (above ++ [] :: below) = ofLines (above ++ below) := by
  rw [ofLines_append, ofLines_append, ofLines_nil_cons, List.flatMap_cons, itemsOf_nil,
    List.nil_append]

/-- The second dependency file has the same target and, in one place, these items more. -/
structure Inserts (added : List Text) (depfile more : Depfile) : Prop where
  target : more.target? = depfile.target?
  items : ∃ front back, depfile.items = front ++ back ∧ more.items = front ++ added ++ back

theorem Inserts.eq_iff {added : List Text} {depfile more : Depfile}
    (h : Inserts added depfile more) : more = depfile ↔ added = [] := by
  obtain ⟨target?, items⟩ := depfile
  obtain ⟨moreTarget?, moreItems⟩ := more
  obtain ⟨rfl, front, back, rfl, rfl⟩ := h
  simp

/-- A line that has more items than another adds them, if the two settle the target alike. -/
theorem Inserts.of_line {added : List Text} {line more : Text} {above : List Text}
    (hitems : itemsOf more = itemsOf line ++ added) (below : List Text)
    (h : (ofLines above).target? = none →
      Inserts added (ofLines (line :: below)) (ofLines (more :: below))) :
    Inserts added (ofLines (above ++ line :: below)) (ofLines (above ++ more :: below)) := by
  rw [ofLines_append, ofLines_append]
  split_ifs with htarget
  · obtain ⟨hsame, front, back, hless, hmore⟩ := h htarget
    exact ⟨hsame, (ofLines above).items ++ front, back, by simp [hless], by simp [hmore]⟩
  · exact ⟨rfl, (ofLines above).items ++ itemsOf line, below.flatMap itemsOf, by simp,
      by simp [hitems]⟩

/-- Behind a space, a text whose colons make no difference adds its items to the line. -/
theorem inserts_behind_space {lead text rest : Text} (hrest : itemsOf rest = [])
    (hcolon : ':' ∉ rest)
    (hsame : lead.count ':' = 1 ↔ lead.count ':' + text.count ':' = 1) (below : List Text) :
    Inserts (itemsOf text) (ofLines ((lead ++ ' ' :: rest) :: below))
      (ofLines ((lead ++ ' ' :: text) :: below)) := by
  have hcount : (lead ++ ' ' :: rest).count ':' = lead.count ':' := by
    simp [List.count_eq_zero.2 hcolon]
  have hmore : (lead ++ ' ' :: text).count ':' = lead.count ':' + text.count ':' := by simp
  by_cases hone : lead.count ':' = 1
  · have htext : ':' ∉ text := List.count_eq_zero.1 (by omega)
    obtain ⟨target, prerequisites, rfl, htarget, hprerequisites⟩ :=
      Text.exists_pair_of_count hone
    rw [List.append_assoc, List.append_assoc, List.cons_append, List.cons_append,
      ofLines_cons_rule htarget (by simp [hprerequisites, hcolon]),
      ofLines_cons_rule htarget (by simp [hprerequisites, htext])]
    exact ⟨rfl, itemsOf prerequisites, below.flatMap itemsOf,
      by simp [itemsOf_append_space, hrest], by simp [itemsOf_append_space]⟩
  · rw [ofLines_cons (by omega), ofLines_cons (by omega)]
    exact ⟨rfl, itemsOf lead, (ofLines below).items, by simp [itemsOf_append_space, hrest],
      by simp [itemsOf_append_space]⟩

/-! ### Hash signs and blanks -/

/-- Blanks in front do not tell whether a text is a comment; what is visible does. -/
theorem isComment_append (s t : Text) :
    isComment (s ++ t) = if s.all isBlank then isComment t else isComment s := by
  induction s with
  | nil => rfl
  | cons c s ih =>
    cases hc : isBlank c with
    | true =>
      rw [List.cons_append, isComment_cons_of_blank hc, isComment_cons_of_blank hc, ih]
      simp [hc]
    | false =>
      rw [List.cons_append, isComment_cons_of_not_blank hc, isComment_cons_of_not_blank hc]
      simp [hc]

theorem isComment_of_blank {t : Text} (h : ∀ c ∈ t, isBlank c = true) : isComment t = false := by
  have hblank := isComment_append t []
  rw [List.append_nil, if_pos (List.all_eq_true.2 h)] at hblank
  exact hblank

instance (piece item : Text) : Decidable (CleansTo piece item) :=
  decidable_of_iff _ cleansTo_iff.symm

/-- Of a text that starts with a hash sign only the first word is left out. -/
theorem itemsOf_hash_eq_nil_iff (t : Text) :
    itemsOf ('#' :: t) = [] ↔ ∀ piece ∈ (Text.split ' ' t).tail, CleansTo piece [] := by
  cases hsplit : Text.split ' ' t with
  | nil => exact absurd hsplit (Text.split_ne_nil ' ' t)
  | cons first pieces =>
    have hfirst : cleanItem ('#' :: first) = [] := cleanItem_of_cleansTo (.comment rfl)
    have hitems : itemsOf ('#' :: t) = (pieces.map cleanItem).filter (· ≠ []) := by
      rw [itemsOf, Text.split, if_neg (by decide), hsplit]
      simp [hfirst]
    simp [hitems, cleansTo_iff]

theorem itemsOf_blank_piece {piece : Text} (hspace : ' ' ∉ piece)
    (hblank : ∀ c ∈ piece, isBlank c = true) (hnewline : '\n' ∉ piece) :
    itemsOf piece = [] ↔ ∀ c ∈ piece, c = ' ' := by
  have hclean : cleanItem piece = piece := cleanItem_of_cleansTo
    (.inner (isComment_of_blank hblank) fun hlast => hnewline (List.mem_of_getLast? hlast))
  rw [itemsOf_of_not_mem hspace, hclean]
  cases piece with
  | nil => simp
  | cons c piece =>
    obtain ⟨hc, -⟩ := not_or.1 (mt List.mem_cons.2 hspace)
    simp [Ne.symm hc]

/-- Blanks other than spaces are items. -/
theorem itemsOf_blank_eq_nil_iff {t : Text} (hblank : ∀ c ∈ t, isBlank c = true)
    (hnewline : '\n' ∉ t) : itemsOf t = [] ↔ ∀ c ∈ t, c = ' ' := by
  induction t using Text.split_induction ' ' with
  | piece piece hspace => exact itemsOf_blank_piece hspace hblank hnewline
  | cons piece t hspace ih =>
    simp only [List.mem_append, List.mem_cons, not_or, or_imp, forall_and] at hblank hnewline
    rw [itemsOf_append_space, List.append_eq_nil_iff,
      itemsOf_blank_piece hspace hblank.1 hnewline.1, ih hblank.2.2 hnewline.2.2]
    simp [or_imp, forall_and]

/-! ### Contents that say the same -/

/-- Two contents have the same target and the same items, and so the same empty rules, and lead to
the same stamp rules or the same conflict. -/
structure Agree (content content' : Text) : Prop where
  target : (read content).target? = (read content').target?
  items : (read content).items = (read content').items
  verdict : ∀ registry directoryOf,
    verdict registry (usedIn directoryOf content) (read content).target? =
      verdict registry (usedIn directoryOf content') (read content').target?

theorem agree_iff {content content' : Text} : Agree content content' ↔
    read content = read content' := by
  constructor
  · rintro ⟨htarget, hitems, -⟩
    cases hread : read content
    cases hread' : read content'
    simp_all
  · intro h
    exact ⟨by rw [h], by rw [h], fun _ _ => by rw [usedIn, usedIn, h]⟩

/-! ### A comment -/

/-- A comment in a dependency file. -/
structure CommentPlace where
  /-- The lines above the one with the comment. -/
  above : Text
  /-- What stands before the comment in its line. -/
  lead : Text
  /-- The comment, from behind its hash sign to the end of the line. -/
  comment : Text
  /-- The lines below, if the line with the comment has come to its end. -/
  below? : Option Text
  above_lines : Text.IsLines above
  lead_line : '\n' ∉ lead
  comment_line : '\n' ∉ comment
  lead_space : lead = [] ∨ lead.getLast? = some ' '

namespace CommentPlace

variable (place : CommentPlace)

/-- The end of the line with the comment. -/
def lineEnd : Text :=
  if place.below?.isSome then ['\n'] else []

/-- The content with the comment. -/
def text : Text :=
  place.above ++ (place.lead ++ '#' :: place.comment ++ place.lineEnd) ++ place.below?.getD []

/-- The content without the comment; the line keeps its end. -/
def erased : Text :=
  place.above ++ (place.lead ++ place.lineEnd) ++ place.below?.getD []

/-- The colons in the comment do not decide about the target: it stands above, or the line names it
either with and without the comment or not at all. -/
def KeepsTarget : Prop :=
  (read place.above).target? ≠ none ∨
    (place.lead.count ':' = 1 ↔ place.lead.count ':' + place.comment.count ':' = 1)

theorem itemsOf_lineEnd : itemsOf place.lineEnd = [] := by
  rw [lineEnd]
  split_ifs <;> simp

theorem read_line {line : Text} (hline : '\n' ∉ line) :
    read (place.above ++ (line ++ place.lineEnd) ++ place.below?.getD []) =
      ofLines ((Text.linesWithEnds place.above).map kept ++ kept (line ++ place.lineEnd) ::
        (Text.linesWithEnds (place.below?.getD [])).map kept) := by
  rw [read, ofLines_filter, lineEnd]
  cases place.below? with
  | none =>
    -- An empty line at the end of the text is no line, and it counts for nothing.
    by_cases hempty : line = []
    · simp [hempty, kept, Text.linesWithEnds, ofLines_insert_nil]
    · simp [Text.linesWithEnds_append place.above_lines,
        Text.linesWithEnds_of_not_mem hempty hline, Text.linesWithEnds]
  | some below =>
    simp [Text.linesWithEnds_append place.above_lines, Text.linesWithEnds_append_newline hline]

theorem read_text :
    read place.text =
      ofLines ((Text.linesWithEnds place.above).map kept ++
        kept (place.lead ++ '#' :: place.comment ++ place.lineEnd) ::
          (Text.linesWithEnds (place.below?.getD [])).map kept) :=
  place.read_line (by simp [place.lead_line, place.comment_line])

theorem read_erased :
    read place.erased =
      ofLines ((Text.linesWithEnds place.above).map kept ++ kept (place.lead ++ place.lineEnd) ::
        (Text.linesWithEnds (place.below?.getD [])).map kept) :=
  place.read_line place.lead_line

theorem isComment_lineEnd : isComment place.lineEnd = false := by
  rw [lineEnd]
  split_ifs <;> rfl

theorem colon_not_mem_lineEnd : ':' ∉ place.lineEnd := by
  rw [lineEnd]
  split_ifs <;> simp

/-- A comment that follows another one is not seen. -/
theorem read_erased_of_isComment (h : isComment place.lead = true) :
    read place.erased = read place.text := by
  have hvisible : ¬ place.lead.all isBlank = true := fun hblank => by
    rw [isComment_of_blank (List.all_eq_true.1 hblank)] at h
    cases h
  rw [read_erased, read_text, kept, kept, List.append_assoc, isComment_append, isComment_append,
    if_neg hvisible, if_neg hvisible, h]
  rfl

/-- A line that is a comment as a whole counts for nothing; what is left of it when the comment is
erased are the blanks before it. -/
theorem inserts_of_blank (h : ∀ c ∈ place.lead, isBlank c = true) :
    Inserts (itemsOf (place.lead ++ place.lineEnd)) (read place.text) (read place.erased) := by
  have hcomment : isComment (place.lead ++ '#' :: place.comment ++ place.lineEnd) = true := by
    rw [List.append_assoc, isComment_append, if_pos (List.all_eq_true.2 h)]
    rfl
  have herased : isComment (place.lead ++ place.lineEnd) = false := by
    rw [isComment_append, if_pos (List.all_eq_true.2 h), isComment_lineEnd]
  have hcolon : ':' ∉ place.lead := fun hmem => by cases h _ hmem
  rw [read_text, read_erased, kept, kept, hcomment, herased]
  refine .of_line rfl _ fun _ => ?_
  rw [if_pos rfl, if_neg (by decide), ofLines_nil_cons, ofLines_cons]
  · exact ⟨rfl, [], _, rfl, by simp⟩
  · rw [List.count_eq_zero.2 (by simp [hcolon, place.colon_not_mem_lineEnd])]
    decide

theorem itemsOf_lead_eq_nil_iff (h : ∀ c ∈ place.lead, isBlank c = true) :
    itemsOf (place.lead ++ place.lineEnd) = [] ↔ ∀ c ∈ place.lead, c = ' ' := by
  rcases place.lead_space with hempty | hspace
  · simp [hempty, place.itemsOf_lineEnd]
  · obtain ⟨blanks, hlead⟩ := List.getLast?_eq_some_iff.1 hspace
    have hnewline := place.lead_line
    rw [hlead] at h hnewline ⊢
    rw [List.append_assoc, List.singleton_append, itemsOf_append_space, place.itemsOf_lineEnd,
      List.append_nil, itemsOf_blank_eq_nil_iff (fun c hc => h c (List.mem_append_left _ hc))
        fun hmem => hnewline (List.mem_append_left _ hmem)]
    simp [or_imp]

/-- In a line with other content the comment adds its items. -/
theorem inserts_of_visible (hcomment : isComment place.lead = false)
    (hvisible : ∃ c ∈ place.lead, isBlank c = false) (hkeeps : place.KeepsTarget) :
    Inserts (itemsOf ('#' :: (place.comment ++ place.lineEnd))) (read place.erased)
      (read place.text) := by
  have hblank : ¬ place.lead.all isBlank = true := by simpa using hvisible
  have hkept : ∀ rest, kept (place.lead ++ rest) = place.lead ++ rest := by
    intro rest
    rw [kept, isComment_append, if_neg hblank, hcomment]
    rfl
  have hne : place.lead ≠ [] := by
    rintro hempty
    simp [hempty] at hvisible
  obtain ⟨lead, hlead⟩ := List.getLast?_eq_some_iff.1 (place.lead_space.resolve_left hne)
  rw [read_text, read_erased, List.append_assoc, List.cons_append, hkept, hkept, hlead,
    List.append_assoc, List.append_assoc]
  refine .of_line ?_ _ fun hnone => ?_
  · simp [itemsOf_append_space, place.itemsOf_lineEnd]
  · have htarget : (read place.above).target? = none := by
      rw [read, ofLines_filter, hnone]
    have hsame := hkeeps.resolve_left (not_not_intro htarget)
    have hcolon := List.count_eq_zero.2 place.colon_not_mem_lineEnd
    refine inserts_behind_space place.itemsOf_lineEnd place.colon_not_mem_lineEnd ?_ _
    simpa [hlead, hcolon] using hsame

end CommentPlace

/-- **When a comment makes no difference.** A comment behind another one makes none. In a line that
holds nothing else it makes none exactly if only spaces stand before it. In any other line, as far
as its colons do not decide about the target, it makes none exactly if its words but the first are
empty or start with a hash sign. -/
theorem comment_inert_iff (place : CommentPlace) :
    (isComment place.lead = true → Agree place.erased place.text) ∧
    ((∀ c ∈ place.lead, isBlank c = true) →
      (Agree place.erased place.text ↔ ∀ c ∈ place.lead, c = ' ')) ∧
    (isComment place.lead = false → (∃ c ∈ place.lead, isBlank c = false) → place.KeepsTarget →
      (Agree place.erased place.text ↔
        ∀ piece ∈ (Text.split ' ' (place.comment ++ place.lineEnd)).tail, CleansTo piece [])) := by
  refine ⟨fun h => agree_iff.2 (place.read_erased_of_isComment h), fun h => ?_, fun h₁ h₂ h₃ => ?_⟩
  · rw [agree_iff, (place.inserts_of_blank h).eq_iff, place.itemsOf_lead_eq_nil_iff h]
  · rw [agree_iff, eq_comm, (place.inserts_of_visible h₁ h₂ h₃).eq_iff, itemsOf_hash_eq_nil_iff]

/-- A comment in a content of one line. -/
def CommentPlace.ofLine (lead comment : Text) (hlead : '\n' ∉ lead) (hcomment : '\n' ∉ comment)
    (hspace : lead = [] ∨ lead.getLast? = some ' ') : CommentPlace :=
  ⟨[], lead, comment, some [], Text.isLines_nil, hlead, hcomment, hspace⟩

/-- A comment behind another one, a line that is a comment, and two short comments behind an
item. -/
theorem comments_without_effect :
    Agree "# b.h \n".toList "# b.h # c.h\n".toList ∧
      Agree "  \n".toList "  # c.h: d.h\n".toList ∧
      Agree "a.o: b.h \n".toList "a.o: b.h #old #c.h\n".toList := by
  have h₁ := (comment_inert_iff (.ofLine "# b.h ".toList " c.h".toList (by decide +kernel)
    (by decide +kernel) (by decide +kernel))).1 (by decide +kernel)
  have h₂ := (comment_inert_iff (.ofLine "  ".toList " c.h: d.h".toList (by decide +kernel)
    (by decide +kernel) (by decide +kernel))).2.1 (List.all_eq_true.1 (by decide +kernel))
  have h₃ := (comment_inert_iff (.ofLine "a.o: b.h ".toList "old #c.h".toList (by decide +kernel)
    (by decide +kernel) (by decide +kernel))).2.2 (by decide +kernel)
    ⟨'a', by decide +kernel, by decide +kernel⟩ (Or.inr (by decide +kernel))
  exact ⟨h₁, h₂.2 (by simp [CommentPlace.ofLine]), h₃.2 (by decide +kernel)⟩

/-- A header that is only mentioned in a comment gets an empty rule and makes a conflict. -/
theorem comment_makes_conflict :
    let registry : Registry := Std.ExtTreeMap.ofList [("L".toList, ({} : Library))]
    let directoryOf := fun header => directoryName ⟨header⟩
    let place := CommentPlace.ofLine "a.o: L-1/x.h ".toList " not L-2/x.h".toList
      (by decide +kernel) (by decide +kernel) (by decide +kernel)
    place.text = "a.o: L-1/x.h # not L-2/x.h\n".toList ∧
      place.erased = "a.o: L-1/x.h \n".toList ∧
      (read place.text).items = ["L-1/x.h".toList, "not".toList, "L-2/x.h".toList] ∧
      (read place.erased).items = ["L-1/x.h".toList] ∧
      augment registry (usedIn directoryOf place.text) place.text =
        .error ⟨"a.o".toList, 2, "L".toList⟩ ∧
      augment registry (usedIn directoryOf place.erased) place.erased =
        .ok (place.erased ++ "L-1/x.h:\na.o : L-1.alib\n".toList) := by
  decide +kernel

end SketchBuild.Depfile
