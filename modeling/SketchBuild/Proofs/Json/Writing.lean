import Mathlib.Data.List.Basic
import SketchBuild.Json.Writer
import SketchBuild.Proofs.Json.Grammar

/-!
# Written values

What is written spells the value that was meant, for the values that this library writes: texts,
truth values and natural numbers, and arrays and objects of such values. Of a value in general this
is not so: two lone halves that make a pair would be read as one character.
-/

namespace SketchBuild.Json

variable {items : List Json} {members : List (Text × Json)}

/-- Members with texts for their keys. -/
def withTextKeys (members : List (Text × Json)) : List (JsonString × Json) :=
  members.map fun (key, value) => (.ofText key, value)

/-- The object with the given members. -/
def objectOf (members : List (Text × Json)) : Json :=
  .object (withTextKeys members)

/-! ### Texts -/

/-- The escape of a control character. -/
theorem hex4_of_control : ∀ n < 0x20,
    hex4 n = ['0', '0', Nat.digitChar (n / 16), Nat.digitChar (n % 16)] ∧
      hexCode? '0' '0' (Nat.digitChar (n / 16)) (Nat.digitChar (n % 16)) = some n := by
  decide

theorem spellsUnit_writeChar (c : Char) : SpellsUnit (.char c) (writeChar c) := by
  unfold writeChar
  split_ifs with hself hnewline hreturn htab hback hfeed hcontrol
  · rcases hself with rfl | rfl
    · exact .letter (by decide)
    · exact .letter (by decide)
  · subst hnewline
    exact .letter (by decide)
  · subst hreturn
    exact .letter (by decide)
  · subst htab
    exact .letter (by decide)
  · subst hback
    exact .letter (by decide)
  · subst hfeed
    exact .letter (by decide)
  · obtain ⟨hhex, hcode⟩ := hex4_of_control c.toNat hcontrol
    rw [escapeCode, hhex]
    exact .code hcode
  · exact .plain (by omega) (fun h => hself (.inl h)) fun h => hself (.inr h)

theorem spellsUnits_ofText (t : Text) :
    SpellsUnits (.ofText t) ((JsonString.ofText t).flatMap writeUnit) := by
  induction t with
  | nil => exact .nil
  | cons c t ih => exact .cons (spellsUnit_writeChar c) ih

theorem joinPairs_ofText (t : Text) : joinPairs (.ofText t) = .ofText t := by
  induction t with
  | nil => rfl
  | cons c t ih =>
    rw [JsonString.ofText, List.map_cons, joinPairs]
    · exact congrArg (JsonUnit.char c :: ·) ih
    · intro high low units heq
      cases heq

theorem spellsString_ofText (t : Text) : SpellsString (.ofText t) (writeString (.ofText t)) := by
  have h := SpellsString.quoted (spellsUnits_ofText t)
  rwa [joinPairs_ofText] at h

theorem spells_ofText (t : Text) : Spells (.value (.ofText t)) (write (.ofText t)) := by
  rw [ofText, write]
  exact .string (spellsString_ofText t)

/-! ### Numbers and truth values -/

/-- Only zero starts with a zero. -/
theorem head?_ofNat {n : Nat} (hn : n ≠ 0) : (Text.ofNat n).head? ≠ some '0' := by
  induction n using Nat.strongRecOn with
  | ind n ih =>
    rw [Text.ofNat, Nat.toDigits_eq_if (by decide)]
    split
    · next hlt =>
      have hdigit : ∀ n < 10, n ≠ 0 → Nat.digitChar n ≠ '0' := by decide
      simpa using hdigit n hlt hn
    · next hge =>
      rw [List.head?_append_of_ne_nil _ Nat.toDigits_ne_nil]
      exact ih (n / 10) (by omega) (by omega)

theorem isNumber_ofNat (n : Nat) : IsNumber (Text.ofNat n) := by
  have hdigits : IsDigits (Text.ofNat n) :=
    ⟨Nat.toDigits_ne_nil, fun c => Nat.isDigit_of_mem_toDigits (by decide) (by decide)⟩
  have hwhole : IsWhole (Text.ofNat n) := by
    by_cases hn : n = 0
    · subst hn
      exact .zero
    · exact .digits hdigits (head?_ofNat hn)
  have h := IsUnsigned.parts hwhole .none .none
  rw [List.append_nil, List.append_nil] at h
  exact .positive h

theorem spells_ofNat (n : Nat) : Spells (.value (.ofNat n)) (write (.ofNat n)) := by
  rw [ofNat, write]
  exact .number (isNumber_ofNat n)

theorem spells_bool (b : Bool) : Spells (.value (.bool b)) (write (.bool b)) := by
  cases b with
  | true => exact .true
  | false => exact .false

/-! ### Arrays and objects -/

theorem spells_writeItems (h : ∀ item ∈ items, Spells (.value item) (write item))
    (hne : items ≠ []) : Spells (.items items) (writeItems items) := by
  induction items with
  | nil => exact absurd rfl hne
  | cons item items ih =>
    have hitem := h item List.mem_cons_self
    cases items with
    | nil =>
      rw [writeItems, ← List.append_nil (write item)]
      exact .lastItem hitem isSpace_nil
    | cons next items =>
      rw [writeItems]
      exact .item hitem isSpace_nil isSpace_nil
        (ih (fun other hother => h other (List.mem_cons_of_mem item hother)) (by simp))

theorem spells_array (h : ∀ item ∈ items, Spells (.value item) (write item)) :
    Spells (.value (.array items)) (write (.array items)) := by
  rw [write]
  cases items with
  | nil => exact .emptyArray isSpace_nil
  | cons item items => exact .array isSpace_nil (spells_writeItems h (by simp))

theorem spells_member (key : Text) {value : Json} (h : Spells (.value value) (write value)) :
    Spells (.member (.ofText key) value) (writeString (.ofText key) ++ ':' :: write value) :=
  .member (spellsString_ofText key) isSpace_nil isSpace_nil h

theorem spells_writeMembers (h : ∀ m ∈ members, Spells (.value m.2) (write m.2))
    (hne : members ≠ []) :
    Spells (.members (withTextKeys members)) (writeMembers (withTextKeys members)) := by
  induction members with
  | nil => exact absurd rfl hne
  | cons m members ih =>
    have hmember := spells_member m.1 (h m List.mem_cons_self)
    cases members with
    | nil =>
      rw [withTextKeys, List.map_singleton, writeMembers, ← List.append_nil (_ ++ _)]
      exact .lastMember hmember isSpace_nil
    | cons next members =>
      have hrest := ih (fun other hother => h other (List.mem_cons_of_mem m hother)) (by simp)
      have htext := Spells.members hmember isSpace_nil isSpace_nil hrest
      simpa [withTextKeys, writeMembers] using htext

theorem spells_objectOf (h : ∀ m ∈ members, Spells (.value m.2) (write m.2)) :
    Spells (.value (objectOf members)) (write (objectOf members)) := by
  rw [objectOf, write]
  cases members with
  | nil => exact .emptyObject isSpace_nil
  | cons m members => exact .object isSpace_nil (spells_writeMembers h (by simp))

/-- A value that is written so as to spell it is read back. -/
theorem read?_write {json : Json} (h : Spells (.value json) (write json)) :
    read? (write json) = some json := by
  refine read?_of_isText ?_
  have htext := IsText.spaced isSpace_nil h isSpace_nil
  rwa [List.nil_append, List.append_nil] at htext

end SketchBuild.Json
