import Mathlib.Data.List.Nodup
import SketchBuild.Json.Decode
import SketchBuild.Proofs.Json.Writing

/-!
# Records with missing fields

An object may hold only some of the fields of a record, in any order and among keys that mean
nothing (`Contains`). The decoders find those fields and no others (`fields?_of_contains`), so that
every field is the one that was meant, or missing (`optional_of_lookup`).

Which fields an object holds is said by a `Selection`. It is about the keys that lead to a field, so
that one selection covers the records inside a record.
-/

namespace SketchBuild.Json

variable {α : Type} {members known unknown : List (Text × Json)} {json value : Json}

/-- Which fields are kept, by the keys that lead to them. -/
abbrev Selection := List Text → Bool

namespace Selection

/-- All fields are kept. -/
def all : Selection := fun _ => true

/-- The selection inside a field. -/
def under (kept : Selection) (key : Text) : Selection := fun path => kept (key :: path)

/-- A field that is kept, or else its default. -/
def pick (kept : Selection) (key : String) (value default : α) : α :=
  if kept [key.toList] then value else default

end Selection

/-- The fields that are kept. -/
def keptFields (kept : Selection) (fields : List (String × Json)) : List (Text × Json) :=
  (fields.map fun (key, value) => (key.toList, value)).filter fun field => kept [field.1]

/-- The keys of some fields. -/
def keysOf (fields : List (String × Json)) : List Text :=
  fields.map (·.1.toList)

/-- The object holds the fields that are kept, in any order, and further members under keys that are
none of the record. -/
inductive Contains (kept : Selection) (fields : List (String × Json)) : Json → Prop
  | object {members unknown : List (Text × Json)}
      (horder : members.Perm (keptFields kept fields ++ unknown))
      (hunknown : ∀ member ∈ unknown, member.1 ∉ keysOf fields) :
      Contains kept fields (objectOf members)

theorem ofMembers_eq (fields : List (String × Json)) :
    ofMembers fields = objectOf (keptFields .all fields) := by
  simp [ofMembers, objectOf, withTextKeys, keptFields, Selection.all]

/-- The form in which a record is written holds all fields. -/
theorem contains_ofMembers (fields : List (String × Json)) :
    Contains .all fields (ofMembers fields) := by
  rw [ofMembers_eq]
  exact .object (by rw [List.append_nil]) (by simp)

theorem spells_ofMembers {fields : List (String × Json)}
    (h : ∀ field ∈ fields, Spells (.value field.2) (write field.2)) :
    Spells (.value (ofMembers fields)) (write (ofMembers fields)) := by
  rw [ofMembers_eq]
  refine spells_objectOf fun member hmember => ?_
  obtain ⟨field, hfield, rfl⟩ := List.mem_map.1 (List.mem_filter.1 hmember).1
  exact h field hfield

/-! ### Members of an object -/

theorem members?_objectOf (members : List (Text × Json)) :
    (objectOf members).members? = some members := by
  induction members with
  | nil => rfl
  | cons m members ih =>
    rw [objectOf, withTextKeys, members?] at ih ⊢
    rw [List.map_cons, List.mapM_cons, ih]
    simp

theorem lookup_eq_some_iff_mem {key : Text} (hnodup : (members.map Prod.fst).Nodup) :
    members.lookup key = some value ↔ (key, value) ∈ members := by
  rw [List.lookup_eq_some_iff]
  constructor
  · rintro ⟨front, back, rfl, -⟩
    simp
  · intro hmem
    obtain ⟨front, back, rfl⟩ := List.append_of_mem hmem
    refine ⟨front, back, rfl, fun other hother => bne_iff_ne.2 fun heq => ?_⟩
    rw [List.map_append, List.map_cons] at hnodup
    exact List.disjoint_of_nodup_append hnodup (List.mem_map_of_mem hother) (by simp [heq])

theorem map_fst_keptFields (kept : Selection) (fields : List (String × Json)) :
    (keptFields kept fields).map Prod.fst = (keysOf fields).filter fun key => kept [key] := by
  simp [keptFields, keysOf, List.filter_map, Function.comp_def]

theorem mem_keptFields {kept : Selection} {fields : List (String × Json)} {key : Text} :
    (key, value) ∈ keptFields kept fields ↔
      (∃ field ∈ fields, field.1.toList = key ∧ field.2 = value) ∧ kept [key] = true := by
  simp [keptFields]

theorem fields?_objectOf (keys : List Text) (members : List (Text × Json)) :
    (objectOf members).fields? keys =
      if ((members.filter (·.1 ∈ keys)).map (·.1)).Nodup then some (members.filter (·.1 ∈ keys))
      else none := by
  have hmembers := members?_objectOf members
  rw [objectOf] at hmembers ⊢
  rw [fields?, hmembers]
  · rfl
  · intro items heq
    cases heq

/-- The decoder finds the fields that are there. -/
theorem fields?_of_contains {kept : Selection} {fields : List (String × Json)}
    (hkeys : (keysOf fields).Nodup) (h : Contains kept fields json) :
    ∃ given, json.fields? (keysOf fields) = some given ∧
      ∀ field ∈ fields, given.lookup field.1.toList =
        if kept [field.1.toList] then some field.2 else none := by
  cases h with
  | @object members unknown horder hunknown =>
    have hkept : ∀ member ∈ keptFields kept fields, member.1 ∈ keysOf fields := by
      intro member hmember
      have hkey := List.mem_map_of_mem hmember (f := Prod.fst)
      rw [map_fst_keptFields] at hkey
      exact (List.mem_filter.1 hkey).1
    have hperm : (members.filter (·.1 ∈ keysOf fields)).Perm (keptFields kept fields) := by
      refine (horder.filter _).trans ?_
      rw [List.filter_append, List.filter_eq_self.2 (by simpa using hkept),
        List.filter_eq_nil_iff.2 (by simpa using hunknown), List.append_nil]
    have hnodup : ((members.filter (·.1 ∈ keysOf fields)).map Prod.fst).Nodup := by
      rw [(hperm.map Prod.fst).nodup_iff, map_fst_keptFields]
      exact hkeys.filter _
    refine ⟨_, (fields?_objectOf _ members).trans (if_pos hnodup), fun field hfield => ?_⟩
    split
    · next hkeep =>
      rw [lookup_eq_some_iff_mem hnodup, hperm.mem_iff, mem_keptFields]
      exact ⟨⟨field, hfield, rfl, rfl⟩, hkeep⟩
    · next hdrop =>
      rw [List.lookup_eq_none_iff]
      intro member hmember
      refine bne_iff_ne.2 fun heq => hdrop ?_
      have hkey := List.mem_map_of_mem (hperm.mem_iff.1 hmember) (f := Prod.fst)
      rw [map_fst_keptFields] at hkey
      rw [heq]
      exact (List.mem_filter.1 hkey).2

theorem fields?_ofMembers (keys : List Text) (fields : List (String × Json))
    (hkeys : keysOf fields = keys) (hnodup : keys.Nodup) :
    ∃ given, (ofMembers fields).fields? keys = some given ∧
      ∀ field ∈ fields, given.lookup field.1.toList = some field.2 := by
  subst hkeys
  exact fields?_of_contains hnodup (contains_ofMembers fields)

/-! ### Fields -/

/-- A field that is found is decoded, and one that is missing has its default. -/
theorem Fields.optional_of_lookup {given : Fields} {kept : Selection} {key : String}
    (hlookup : given.lookup key.toList = if kept [key.toList] then some value else none)
    {decode : Json → Option α} {a : α} (hdecode : decode value = some a) (default : α) :
    given.optional key decode default = some (kept.pick key a default) := by
  rw [optional, hlookup, Selection.pick]
  by_cases hkeep : kept [key.toList] = true
  · rw [if_pos hkeep, if_pos hkeep]
    exact hdecode
  · rw [if_neg hkeep, if_neg hkeep]

theorem Fields.required_of_lookup {given : Fields} {key : String}
    (hlookup : given.lookup key.toList = some value) {decode : Json → Option α} {a : α}
    (hdecode : decode value = some a) : given.required key decode = some a := by
  rw [required, hlookup]
  exact hdecode

end SketchBuild.Json
