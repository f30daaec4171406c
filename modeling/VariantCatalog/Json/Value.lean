/-
# JSON values

The values that requests and answers are made of, and the readers by which a
field of an object is taken out of them.  A reader answers nothing when the
value does not have the type asked for; whether a field may be missing or null
is decided field by field.
-/

import VariantCatalog.Double
import VariantCatalog.Text.Numeral

namespace VariantCatalog

open VariantCatalog.Text

/-- A JSON value. A number written without fraction and exponent is an integer
if sixty-four bits hold it; any other number is a double. -/
inductive Json where
  | null
  | bool (value : Bool)
  | integer (value : Int)
  | real (value : Double)
  | text (value : String)
  | list (items : List Json)
  | object (fields : List (String × Json))

namespace Json

/-- A text if there is one, and null otherwise. -/
def ofOption {α : Type} (encode : α → Json) : Option α → Json
  | none => .null
  | some value => encode value

/-- A list whose items are encoded in order. -/
def ofList {α : Type} (encode : α → Json) (items : List α) : Json :=
  .list (items.map encode)

/-- A natural number. -/
def ofNat (n : Nat) : Json := .integer n

/-! ## Readers of one value -/

/-- A text. -/
def asText? : Json → Option String
  | .text value => some value
  | _ => none

/-- A truth value. -/
def asBool? : Json → Option Bool
  | .bool value => some value
  | _ => none

/-- An integer of a range. -/
def asInteger? (range : IntegerRange) : Json → Option Int
  | .integer value => if range.holds value then some value else none
  | _ => none

/-- An integer of 64 bits. -/
def asInt64? : Json → Option Int := asInteger? .signed64

/-- An integer of 32 bits. -/
def asInt32? : Json → Option Int := asInteger? .signed32

/-- A count of 64 bits. -/
def asCount? (value : Json) : Option Nat := (value.asInteger? .unsigned64).map Int.toNat

/-- A double; an integer counts as the double nearest to it. -/
def asDouble? : Json → Option Double
  | .real value => some value
  | .integer value => some (.ofInt value)
  | _ => none

/-- A list, each item of which is read. -/
def asList? {α : Type} (read : Json → Option α) : Json → Option (List α)
  | .list items => items.mapM read
  | _ => none

/-- The fields of an object. -/
def asObject? : Json → Option (List (String × Json))
  | .object fields => some fields
  | _ => none

/-- Null, or a value that is read. -/
def orNull {α : Type} (read : Json → Option α) : Json → Option (Option α)
  | .null => some none
  | value => (read value).map some

end Json

/-- The fields of a JSON object. -/
abbrev Fields := List (String × Json)

namespace Fields

/-- The value of a field, if the object has it. -/
def find? (fields : Fields) (name : String) : Option Json :=
  fields.lookup name

/-- The value of a field, a missing one counting as null. -/
def get (fields : Fields) (name : String) : Json :=
  (fields.find? name).getD .null

/-- A field that must be there. -/
def required {α : Type} (fields : Fields) (name : String) (read : Json → Option α) : Option α :=
  (fields.find? name).bind read

/-- A field that may be missing or null. -/
def optional {α : Type} (fields : Fields) (name : String) (read : Json → Option α) :
    Option (Option α) :=
  (fields.get name).orNull read

/-- A field that may be missing, but not null. -/
def defaulted {α : Type} (fields : Fields) (name : String) (default : α)
    (read : Json → Option α) : Option α :=
  match fields.find? name with
  | none => some default
  | some value => read value

end Fields

end VariantCatalog
