/-
  Reading records out of JSON values.

  A record is written as an object, whose members are named after the fields,
  or as an array of the fields' values in order. An object may have members
  that are no fields, which are skipped, and an array may end early; a field
  without a default must be there, and no field may be given twice.
-/

import NaturalDeduction.Json.Reader

namespace NaturalDeduction.Json

/-- Why a value does not have the shape that is asked for. -/
inductive DecodeError where
  | noValue
  | expected (shape : String)
  | missing (field : String)
  | repeated (field : String)
  | surplus (fields : Nat)
  deriving DecidableEq, Repr

/-- The wording of each reason. -/
def DecodeError.message : DecodeError → String
  | noValue => "not a JSON value"
  | expected shape => "expected " ++ shape
  | missing field => "missing field '" ++ field ++ "'"
  | repeated field => "repeated field '" ++ field ++ "'"
  | surplus fields => "more than " ++ toString fields ++ " fields"

/-- What comes of reading something out of a value. -/
abbrev Decoded := Except DecodeError

/-! ## Plain values -/

/-- The text that a value is. -/
def asText : Json → Decoded String
  | string text => .ok text
  | _ => .error (.expected "a string")

/-- The truth value that a value is. -/
def asBool : Json → Decoded Bool
  | bool value => .ok value
  | _ => .error (.expected "a truth value")

/-- The whole number below a limit that a value is. -/
def asNatural (limit : Nat) : Json → Decoded Nat
  | number (.natural n) => if n < limit then .ok n else .error (.expected "a smaller number")
  | _ => .error (.expected "a whole number")

/-- The items of an array, each read by `decode`. -/
def asList {α : Type} (decode : Json → Decoded α) : Json → Decoded (List α)
  | array items => items.mapM decode
  | _ => .error (.expected "an array")

/-- Nothing for `null`, and what `decode` reads for any other value. -/
def asOption {α : Type} (decode : Json → Decoded α) : Json → Decoded (Option α)
  | null => .ok none
  | value => some <$> decode value

/-! ## Records -/

/-- The fields of a record that are given, by name. -/
abbrev Fields := List (String × Json)

/-- The first name that stands in the list again. -/
def firstRepeated? : List String → Option String
  | [] => none
  | name :: names => if names.contains name then some name else firstRepeated? names

/-- The fields of a record, given the names of all its fields in order. -/
def asRecord (names : List String) : Json → Decoded Fields
  | object members =>
    let given := members.filter fun (key, _) => names.contains key
    match firstRepeated? (given.map Prod.fst) with
    | some name => .error (.repeated name)
    | none => .ok given
  | array items =>
    if items.length ≤ names.length then .ok (names.zip items) else .error (.surplus names.length)
  | _ => .error (.expected "a record")

/-- The value of a field that must be given. -/
def Fields.required {α : Type} (fields : Fields) (name : String) (decode : Json → Decoded α) :
    Decoded α :=
  match fields.lookup name with
  | some value => decode value
  | none => .error (.missing name)

/-- The value of a field, or its default when it is not given. -/
def Fields.optional {α : Type} (fields : Fields) (name : String) (default : α)
    (decode : Json → Decoded α) : Decoded α :=
  match fields.lookup name with
  | some value => decode value
  | none => .ok default

/-! ## Texts -/

/-- Reads a text and decodes its value. -/
def decodeText {α : Type} (decode : Json → Decoded α) (text : String) : Decoded α :=
  match read? text with
  | some value => decode value
  | none => .error .noValue

end NaturalDeduction.Json
