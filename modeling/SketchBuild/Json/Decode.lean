import SketchBuild.Json.Basic

/-!
# Typed values in JSON

Decoders from JSON values to the values they stand for. `null` never stands for anything.

A record is written as an object, in which unknown keys are ignored and no known key may be
repeated, or as an array of its fields in their order, which may stop early. Either way it becomes
a list of known keys with their values; what a missing field means is up to the record.
-/

namespace SketchBuild.Json

/-- A string. -/
def text? : Json → Option Text
  | .string s => s.text?
  | _ => none

/-- A truth value. -/
def bool? : Json → Option Bool
  | .bool b => some b
  | _ => none

/-- The largest number of 64 bits. -/
def maxNat64 : Nat := 18446744073709551615

/-- A natural number of at most 64 bits, written without sign, fraction and exponent. -/
def nat64? : Json → Option Nat
  | .number spelling =>
    let n := Nat.ofDigitChars 10 spelling 0
    if spelling.all Char.isDigit ∧ n ≤ maxNat64 then some n else none
  | _ => none

/-- An array, item by item. -/
def list? {α : Type} (decode : Json → Option α) : Json → Option (List α)
  | .array items => items.mapM decode
  | _ => none

/-- The members of an object by the texts of their keys. -/
def members? : Json → Option (List (Text × Json))
  | .object members => members.mapM fun (key, value) => key.text?.map (·, value)
  | _ => none

/-- The fields of a record. -/
abbrev Fields := List (Text × Json)

/-- The fields of a record with the given keys. -/
def fields? (keys : List Text) : Json → Option Fields
  | .array items => if items.length ≤ keys.length then some (keys.zip items) else none
  | json => do
    let known := (← json.members?).filter (·.1 ∈ keys)
    if (known.map (·.1)).Nodup then some known else none

/-- A field that has to be there. -/
def Fields.required {α : Type} (fields : Fields) (key : String) (decode : Json → Option α) :
    Option α :=
  (fields.lookup key.toList).bind decode

/-- A field with a default. -/
def Fields.optional {α : Type} (fields : Fields) (key : String) (decode : Json → Option α)
    (default : α) : Option α :=
  match fields.lookup key.toList with
  | none => some default
  | some json => decode json

end SketchBuild.Json
