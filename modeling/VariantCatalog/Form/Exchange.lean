/-
# Exchanges with a database as JSON

A command is written as its text with its parameters, and a prepared reply is read
from the records, the number of rows, or the refusal that it consists of.  The
columns of a reply are those of its first record in the order of their names, and
each holds data of the type that the schema gives it.
-/

import VariantCatalog.Form.Row
import VariantCatalog.Sql.Script

namespace VariantCatalog.Sql

/-! ## Commands -/

/-- The form of a datum. A moment that carrying a leap second takes behind the last
year has no form. -/
def Datum.toJson : Datum → Json
  | null => .null
  | bool value => .bool value
  | smallInteger value => .integer value
  | integer value => .integer value
  | real value => .real value
  | text value => .text value
  | moment value => if value.isInRange then .ofMoment value else .null
  | integers values => .ofList .integer values

/-- The form of a command. -/
def Command.toJson (command : Command) : Json :=
  .object [
    ("sql", .text command.statement.text),
    ("params", .ofList Datum.toJson command.parameters)]

/-! ## Replies -/

/-- The datum of a column. -/
def Datum.ofJson? (column : String) : Json → Option Datum
  | .null => some .null
  | .bool value => some (.bool value)
  | .integer value =>
    if measurementColumns.contains column then some (.real (.ofInt value))
    else if smallIntegerColumns.contains column then some (.smallInteger value)
    else some (.integer value)
  | .real value => some (.real value)
  | .text value =>
    if momentColumns.contains column then (Calendar.Moment.ofText? value).map .ofMoment
    else some (.text value)
  | _ => none

/-- The record with the given columns, those that it lacks being null. -/
def Record.ofFields? (columns : List String) (fields : Fields) : Option Record :=
  columns.mapM fun column => (Datum.ofJson? column (fields.get column)).map (column, ·)

/-- The columns of a first record, in the order of their names. -/
def columnsOf (fields : Fields) : List String :=
  (fields.map (·.1)).mergeSort fun first second => first ≤ second

/-- Records that have the columns of the first of them. -/
def recordsOfJson? : List Json → Option (List Record)
  | [] => some []
  | first :: rest => do
    let columns := columnsOf (← first.asObject?)
    (first :: rest).mapM (Json.readFields (Record.ofFields? columns))

/-- A refusal from its form. -/
def Refusal.ofJson? : Json → Option Refusal :=
  Json.readFields fun fields => do
    let code ← fields.required "code" Json.asText?
    let message ← fields.required "message" Json.asText?
    let constraint ← fields.optional "constraint" Json.asText?
    return { code, message, constraint }

/-- A reply from the fields of its form: a refusal, a number of rows, or records.
Without any of these it is a success that returns nothing. -/
def Reply.ofFields? (fields : Fields) : Option Reply :=
  if let some refusal := fields.find? "error" then (Refusal.ofJson? refusal).map .refused
  else if let some count := fields.find? "affected" then count.asCount?.map .affected
  else if let some rows := fields.find? "rows" then
    (rows.asList? some).bind fun rows => (recordsOfJson? rows).map .records
  else if let some (.bool true) := fields.find? "idle" then some .idle
  else some (.records [])

/-- A reply from its form. Null stands for a success. -/
def Reply.ofJson? : Json → Option Reply
  | .null => some Script.success
  | value => Json.readFields Reply.ofFields? value

end VariantCatalog.Sql
