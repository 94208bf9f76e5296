import SketchBuild.Proofs.Json.Tokens

/-!
# The grammar of JSON

Which texts spell which values (`Spells`): strings and numbers, and what is put together from them
with white space in between. The reader takes every text that holds a value for that value
(`read?_of_isText`).

`Reads` is what the readers do with a phrase, with enough calls left, in front of anything that may
follow. It is shown by induction on the way in which the phrase is spelled (`reads_of_spells`).
-/

namespace SketchBuild.Json

variable {t u before after rest : Text} {json item value : Json} {items : List Json}
  {key : JsonString} {members : List (JsonString × Json)}

/-- What a piece of text can stand for. -/
inductive Phrase
  | value (json : Json)
  | items (items : List Json)
  | member (key : JsonString) (value : Json)
  | members (members : List (JsonString × Json))

/-- The text spells a phrase. White space may stand around the items and members, but not at the
two ends of a value, nor in front of the first item or member. -/
inductive Spells : Phrase → Text → Prop
  | null : Spells (.value .null) "null".toList
  | true : Spells (.value (.bool true)) "true".toList
  | false : Spells (.value (.bool false)) "false".toList
  | number {t : Text} (h : IsNumber t) : Spells (.value (.number t)) t
  | string {s : JsonString} {t : Text} (h : SpellsString s t) : Spells (.value (.string s)) t
  | emptyArray {space : Text} (hspace : IsSpace space) :
      Spells (.value (.array [])) ('[' :: (space ++ [']']))
  | array {items : List Json} {before t : Text} (hbefore : IsSpace before)
      (hitems : Spells (.items items) t) :
      Spells (.value (.array items)) ('[' :: (before ++ (t ++ [']'])))
  | lastItem {item : Json} {t after : Text} (hitem : Spells (.value item) t)
      (hafter : IsSpace after) : Spells (.items [item]) (t ++ after)
  | item {item : Json} {items : List Json} {t after before u : Text}
      (hitem : Spells (.value item) t) (hafter : IsSpace after) (hbefore : IsSpace before)
      (hitems : Spells (.items items) u) :
      Spells (.items (item :: items)) (t ++ (after ++ ',' :: (before ++ u)))
  | emptyObject {space : Text} (hspace : IsSpace space) :
      Spells (.value (.object [])) ('\x7b' :: (space ++ ['\x7d']))
  | object {members : List (JsonString × Json)} {before t : Text} (hbefore : IsSpace before)
      (hmembers : Spells (.members members) t) :
      Spells (.value (.object members)) ('\x7b' :: (before ++ (t ++ ['\x7d'])))
  | member {key : JsonString} {value : Json} {k after before t : Text} (hkey : SpellsString key k)
      (hafter : IsSpace after) (hbefore : IsSpace before) (hvalue : Spells (.value value) t) :
      Spells (.member key value) (k ++ (after ++ ':' :: (before ++ t)))
  | lastMember {key : JsonString} {value : Json} {t after : Text}
      (hmember : Spells (.member key value) t) (hafter : IsSpace after) :
      Spells (.members [(key, value)]) (t ++ after)
  | members {key : JsonString} {value : Json} {members : List (JsonString × Json)}
      {t after before u : Text} (hmember : Spells (.member key value) t) (hafter : IsSpace after)
      (hbefore : IsSpace before) (hmembers : Spells (.members members) u) :
      Spells (.members ((key, value) :: members)) (t ++ (after ++ ',' :: (before ++ u)))

/-- A whole text that holds a value: there may be white space on both sides. -/
inductive IsText : Json → Text → Prop
  | spaced {json : Json} {before t after : Text} (hbefore : IsSpace before)
      (h : Spells (.value json) t) (hafter : IsSpace after) : IsText json (before ++ (t ++ after))

/-- What the readers make of a phrase with the given text, behind white space and in front of
something that does not change it. -/
def Reads (t : Text) : Phrase → Prop
  | .value json => ∀ calls before rest, 2 * t.length < calls → IsSpace before → Ends rest →
      readValue? calls (before ++ (t ++ rest)) = some (json, rest)
  | .items items => ∀ calls before rest, 2 * t.length + 1 < calls → IsSpace before →
      readItems? calls (before ++ (t ++ ']' :: rest)) = some (items, rest)
  | .member key value => ∀ calls before rest, 2 * t.length < calls → IsSpace before → Ends rest →
      readMembers? (calls + 1) (before ++ (t ++ rest)) =
        match skipSpace rest with
        | ',' :: rest =>
          (readMembers? calls rest).map fun (members, rest) => ((key, value) :: members, rest)
        | '\x7d' :: rest => some ([(key, value)], rest)
        | _ => none
  | .members members => ∀ calls before rest, 2 * t.length + 1 < calls → IsSpace before →
      readMembers? calls (before ++ (t ++ '\x7d' :: rest)) = some (members, rest)

theorem ends_cons {c : Char} (h : c.isDigit = false ∧ c ≠ '.' ∧ c ≠ 'e' ∧ c ≠ 'E') (t : Text) :
    Ends (c :: t) := by
  rintro _ ⟨⟩
  exact h

theorem ends_append (h : IsSpace after) (hrest : Ends rest) : Ends (after ++ rest) := by
  cases after with
  | nil => exact hrest
  | cons c after =>
    refine ends_cons ?_ _
    rcases isSpace_iff.1 (h c List.mem_cons_self) with rfl | rfl | rfl | rfl
    all_goals decide

/-- A character that no white space and no closing bracket is. -/
structure Opens (c : Char) : Prop where
  not_space : isSpace c = false
  ne_bracket : c ≠ ']'
  ne_brace : c ≠ '\x7d'

theorem opens_number {c : Char} (hc : c = '-' ∨ c.isDigit = true) : Opens c := by
  refine ⟨?_, ?_, ?_⟩
  · rw [← Bool.not_eq_true, isSpace_iff]
    rintro (rfl | rfl | rfl | rfl)
    all_goals exact absurd hc (by decide)
  · rintro rfl
    exact absurd hc (by decide)
  · rintro rfl
    exact absurd hc (by decide)

theorem Spells.exists_cons {phrase : Phrase} (h : Spells phrase t) :
    ∃ c u, t = c :: u ∧ Opens c := by
  induction h with
  | null | true | false | emptyArray | array | emptyObject | object =>
    exact ⟨_, _, rfl, by decide, by decide, by decide⟩
  | number h =>
    obtain ⟨c, u, rfl, hc⟩ := h.exists_cons
    exact ⟨c, u, rfl, opens_number hc⟩
  | string h =>
    obtain ⟨u, rfl, -⟩ := readString?_of_spells h
    exact ⟨_, _, rfl, by decide, by decide, by decide⟩
  | member hkey =>
    obtain ⟨u, rfl, -⟩ := readString?_of_spells hkey
    exact ⟨_, _, rfl, by decide, by decide, by decide⟩
  | lastItem _ _ ih | lastMember _ _ ih | item _ _ _ _ ih | members _ _ _ _ ih =>
    obtain ⟨c, u, rfl, hc⟩ := ih
    exact ⟨c, _, rfl, hc⟩

/-! ### Values -/

theorem reads_number (h : IsNumber t) : Reads t (.value (.number t)) := by
  intro calls before rest hcalls hbefore hrest
  obtain ⟨calls, rfl⟩ : ∃ left, calls = left + 1 := ⟨calls - 1, by omega⟩
  have hread := readNumber?_of_isNumber h hrest
  obtain ⟨c, u, rfl, hc⟩ := h.exists_cons
  rw [readValue?, skipSpace_append hbefore, List.cons_append,
    skipSpace_cons (opens_number hc).not_space]
  split
  case h_7 =>
    rw [← List.cons_append, hread]
    rfl
  all_goals
    next heq =>
      rw [(List.cons.inj heq).1] at hc
      exact absurd hc (by decide)

theorem reads_string {s : JsonString} (h : SpellsString s t) : Reads t (.value (.string s)) := by
  intro calls before rest hcalls hbefore _
  obtain ⟨calls, rfl⟩ : ∃ left, calls = left + 1 := ⟨calls - 1, by omega⟩
  obtain ⟨u, rfl, hread⟩ := readString?_of_spells h
  rw [readValue?, skipSpace_append hbefore, List.cons_append, skipSpace_cons (by decide)]
  simp only [hread]
  rfl

theorem readValue?_bracket (hbefore : IsSpace before) (calls : Nat) (t : Text) :
    readValue? (calls + 1) (before ++ '[' :: t) =
      match skipSpace t with
      | ']' :: rest => some (.array [], rest)
      | rest => (readItems? calls rest).map fun (items, rest) => (.array items, rest) := by
  rw [readValue?, skipSpace_append hbefore, skipSpace_cons (by decide)]
  rfl

theorem readValue?_brace (hbefore : IsSpace before) (calls : Nat) (t : Text) :
    readValue? (calls + 1) (before ++ '\x7b' :: t) =
      match skipSpace t with
      | '\x7d' :: rest => some (.object [], rest)
      | rest => (readMembers? calls rest).map fun (members, rest) => (.object members, rest) := by
  rw [readValue?, skipSpace_append hbefore, skipSpace_cons (by decide)]
  rfl

theorem reads_emptyArray (h : IsSpace t) : Reads ('[' :: (t ++ [']'])) (.value (.array [])) := by
  intro calls before rest hcalls hbefore _
  obtain ⟨calls, rfl⟩ : ∃ left, calls = left + 1 := ⟨calls - 1, by omega⟩
  rw [List.cons_append, readValue?_bracket hbefore, List.append_assoc, skipSpace_append h,
    List.singleton_append, skipSpace_cons (by decide)]
  rfl

theorem reads_emptyObject (h : IsSpace t) :
    Reads ('\x7b' :: (t ++ ['\x7d'])) (.value (.object [])) := by
  intro calls before rest hcalls hbefore _
  obtain ⟨calls, rfl⟩ : ∃ left, calls = left + 1 := ⟨calls - 1, by omega⟩
  rw [List.cons_append, readValue?_brace hbefore, List.append_assoc, skipSpace_append h,
    List.singleton_append, skipSpace_cons (by decide)]
  rfl

theorem reads_array (hafter : IsSpace after) (hitems : Spells (.items items) t)
    (h : Reads t (.items items)) :
    Reads ('[' :: (after ++ (t ++ [']']))) (.value (.array items)) := by
  intro calls before rest hcalls hbefore _
  obtain ⟨calls, rfl⟩ : ∃ left, calls = left + 1 := ⟨calls - 1, by omega⟩
  have hread := h calls [] rest (by simp at hcalls; omega) isSpace_nil
  obtain ⟨c, u, rfl, hc⟩ := hitems.exists_cons
  rw [List.cons_append, readValue?_bracket hbefore, List.append_assoc, skipSpace_append hafter,
    List.append_assoc, List.singleton_append, List.cons_append, skipSpace_cons hc.not_space]
  split
  · next heq => exact absurd (List.cons.inj heq).1 hc.ne_bracket
  · exact congrArg (Option.map _) hread

theorem reads_object (hafter : IsSpace after) (hmembers : Spells (.members members) t)
    (h : Reads t (.members members)) :
    Reads ('\x7b' :: (after ++ (t ++ ['\x7d']))) (.value (.object members)) := by
  intro calls before rest hcalls hbefore _
  obtain ⟨calls, rfl⟩ : ∃ left, calls = left + 1 := ⟨calls - 1, by omega⟩
  have hread := h calls [] rest (by simp at hcalls; omega) isSpace_nil
  obtain ⟨c, u, rfl, hc⟩ := hmembers.exists_cons
  rw [List.cons_append, readValue?_brace hbefore, List.append_assoc, skipSpace_append hafter,
    List.append_assoc, List.singleton_append, List.cons_append, skipSpace_cons hc.not_space]
  split
  · next heq => exact absurd (List.cons.inj heq).1 hc.ne_brace
  · exact congrArg (Option.map _) hread

/-! ### Items and members -/

theorem reads_lastItem (h : Reads t (.value item)) (hafter : IsSpace after) :
    Reads (t ++ after) (.items [item]) := by
  intro calls before rest hcalls hbefore
  obtain ⟨calls, rfl⟩ : ∃ left, calls = left + 1 := ⟨calls - 1, by omega⟩
  have hread := h calls before (after ++ ']' :: rest) (by simp at hcalls; omega) hbefore
    (ends_append hafter (ends_cons (by decide) rest))
  rw [readItems?, List.append_assoc, hread]
  simp only [bind, Option.bind, skipSpace_append hafter]
  rw [skipSpace_cons (by decide)]
  rfl

theorem reads_item (h : Reads t (.value item)) (hafter : IsSpace after) (hspace : IsSpace before)
    (hitems : Reads u (.items items)) :
    Reads (t ++ (after ++ ',' :: (before ++ u))) (.items (item :: items)) := by
  intro calls before' rest hcalls hbefore'
  obtain ⟨calls, rfl⟩ : ∃ left, calls = left + 1 := ⟨calls - 1, by omega⟩
  have hread := h calls before' (after ++ ',' :: (before ++ (u ++ ']' :: rest)))
    (by simp at hcalls; omega) hbefore' (ends_append hafter (ends_cons (by decide) _))
  have hread' := hitems calls before rest (by simp at hcalls; omega) hspace
  simp only [List.append_assoc, List.cons_append]
  rw [readItems?, hread]
  simp only [bind, Option.bind, skipSpace_append hafter]
  rw [skipSpace_cons (by decide)]
  exact congrArg (Option.map _) hread'

theorem reads_member {k : Text} (hkey : SpellsString key k) (hafter : IsSpace after)
    (hspace : IsSpace before) (h : Reads t (.value value)) :
    Reads (k ++ (after ++ ':' :: (before ++ t))) (.member key value) := by
  intro calls before' rest hcalls hbefore' hrest
  obtain ⟨u, rfl, hreadKey⟩ := readString?_of_spells hkey
  have hread := h calls before rest (by simp at hcalls; omega) hspace hrest
  simp only [List.append_assoc, List.cons_append]
  have hcolon : isSpace ':' = false := by decide
  rw [readMembers?, skipSpace_append hbefore', skipSpace_cons (by decide)]
  simp only [bind, Option.bind, hreadKey, skipSpace_append hafter, skipSpace_cons hcolon]
  rewrite [hread]
  rfl

theorem reads_lastMember (h : Reads t (.member key value)) (hafter : IsSpace after) :
    Reads (t ++ after) (.members [(key, value)]) := by
  intro calls before rest hcalls hbefore
  obtain ⟨calls, rfl⟩ : ∃ left, calls = left + 1 := ⟨calls - 1, by omega⟩
  rw [List.append_assoc, h calls before _ (by simp at hcalls; omega) hbefore
    (ends_append hafter (ends_cons (by decide) rest)), skipSpace_append hafter,
    skipSpace_cons (by decide)]
  rfl

theorem reads_members (h : Reads t (.member key value)) (hafter : IsSpace after)
    (hspace : IsSpace before) (hmembers : Reads u (.members members)) :
    Reads (t ++ (after ++ ',' :: (before ++ u))) (.members ((key, value) :: members)) := by
  intro calls before' rest hcalls hbefore'
  obtain ⟨calls, rfl⟩ : ∃ left, calls = left + 1 := ⟨calls - 1, by omega⟩
  have hread := hmembers calls before rest (by simp at hcalls; omega) hspace
  simp only [List.append_assoc, List.cons_append]
  rw [h calls before' _ (by simp at hcalls; omega) hbefore'
    (ends_append hafter (ends_cons (by decide) _)), skipSpace_append hafter,
    skipSpace_cons (by decide)]
  exact congrArg (Option.map _) hread

theorem reads_of_spells {phrase : Phrase} (h : Spells phrase t) : Reads t phrase := by
  induction h with
  | null | true | false =>
    intro calls before rest hcalls hbefore _
    obtain ⟨calls, rfl⟩ : ∃ left, calls = left + 1 := ⟨calls - 1, by omega⟩
    rw [readValue?, skipSpace_append hbefore]
    rfl
  | number h => exact reads_number h
  | string h => exact reads_string h
  | emptyArray h => exact reads_emptyArray h
  | array hbefore hitems ih => exact reads_array hbefore hitems ih
  | lastItem _ hafter ih => exact reads_lastItem ih hafter
  | item _ hafter hbefore _ ih ihitems => exact reads_item ih hafter hbefore ihitems
  | emptyObject h => exact reads_emptyObject h
  | object hbefore hmembers ih => exact reads_object hbefore hmembers ih
  | member hkey hafter hbefore _ ih => exact reads_member hkey hafter hbefore ih
  | lastMember _ hafter ih => exact reads_lastMember ih hafter
  | members _ hafter hbefore _ ih ihmembers => exact reads_members ih hafter hbefore ihmembers

/-- The reader takes a text that holds a value for that value. -/
theorem read?_of_isText (h : IsText json t) : read? t = some json := by
  cases h with
  | @spaced before t after hbefore h hafter =>
    have hends : Ends after := by
      rw [← List.append_nil after]
      exact ends_append hafter (by simp [Ends])
    rw [read?, reads_of_spells h _ before after (by simp; omega) hbefore hends]
    simp [skipSpace_of_isSpace hafter]

end SketchBuild.Json
