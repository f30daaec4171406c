/-
# Data that a database exchanges

A `Datum` is a value that is sent as a parameter of a statement or comes back in a
column of a record.  A `Failure` is why an exchange with a database gave nothing
usable; it becomes the error of the store, which names the step that failed.
Only a key that is taken and a reference that leads nowhere are told apart from
all other refusals.
-/

import VariantCatalog.Calendar.Instant
import VariantCatalog.Double
import VariantCatalog.Error

namespace VariantCatalog.Sql

open VariantCatalog.Calendar

/-- A value of a database. Integers are kept in four bytes or in eight. -/
inductive Datum where
  | null
  | bool (value : Bool)
  | smallInteger (value : Int)
  | integer (value : Int)
  | real (value : Double)
  | text (value : String)
  | moment (value : Moment)
  | integers (values : List Int)
  deriving DecidableEq

namespace Datum

/-- A text, or null. -/
def ofText? (value : Option String) : Datum :=
  (value.map .text).getD .null

/-- An integer, or null. -/
def ofInteger? (value : Option Int) : Datum :=
  (value.map .integer).getD .null

/-- A moment. A database keeps it to the microsecond. -/
def ofMoment (value : Moment) : Datum := .moment value.toMicrosecond

/-- A moment, or null. -/
def ofMoment? (value : Option Moment) : Datum :=
  (value.map ofMoment).getD .null

/-- The name of the type of a column that holds a datum. A null by itself has a
type that is not known. -/
def typeName : Datum → String
  | null => "UNKNOWN"
  | bool _ => "BOOL"
  | smallInteger _ => "INT4"
  | integer _ => "INT8"
  | real _ => "FLOAT8"
  | text _ => "TEXT"
  | moment _ => "TIMESTAMPTZ"
  | integers _ => "INT8[]"

/-- A truth value. -/
def asBool? : Datum → Option Bool
  | .bool value => some value
  | _ => none

/-- An integer of four bytes. -/
def asSmallInteger? : Datum → Option Int
  | .smallInteger value => some value
  | _ => none

/-- An integer of eight bytes. -/
def asInteger? : Datum → Option Int
  | .integer value => some value
  | _ => none

/-- A number of double precision. -/
def asReal? : Datum → Option Double
  | .real value => some value
  | _ => none

/-- A text. -/
def asText? : Datum → Option String
  | .text value => some value
  | _ => none

/-- A moment. -/
def asMoment? : Datum → Option Moment
  | .moment value => some value
  | _ => none

end Datum

/-- A record: its columns in order, each with its name. -/
abbrev Record := List (String × Datum)

/-- The refusal of a statement, as a database reports it. -/
structure Refusal where
  code : String
  message : String
  constraint : Option String
  deriving DecidableEq

/-- Why an exchange gave nothing usable. -/
inductive Failure where
  | refused (refusal : Refusal)
  | noRecord
  | poolClosed
  | outsideTransaction
  | addressWithoutScheme
  | noColumn (name : String)
  | nullColumn (name : String)
  | mistypedColumn (name : String)
  | noFirstColumn
  | nullFirstColumn
  | noTruthInFirstColumn (found : Datum)
  deriving DecidableEq

namespace Failure

/-- The wording of a failure. -/
def message : Failure → String
  | refused refusal => refusal.message
  | noRecord => "no record returned by a statement that must return one"
  | poolClosed => "pool closed"
  | outsideTransaction =>
    "got unexpected connection status after attempting to begin transaction"
  | addressWithoutScheme => "error with configuration: relative URL without a base"
  | noColumn name => "no column found for name: " ++ name
  | nullColumn name =>
    "error occurred while decoding column \"" ++ name ++
      "\": unexpected null; try decoding as an `Option`"
  | mistypedColumn name =>
    "error occurred while decoding column \"" ++ name ++ "\": mismatched types"
  | noFirstColumn => "column index out of bounds: the len is 0, but the index is 0"
  | nullFirstColumn =>
    "error occurred while decoding column 0: unexpected null; try decoding as an `Option`"
  | noTruthInFirstColumn found =>
    "error occurred while decoding column 0: mismatched types; Rust type `bool` (as SQL type " ++
      "`BOOL`) is not compatible with SQL type `" ++ found.typeName ++ "`"

/-- The code of a refusal because a unique key is taken. -/
def uniqueViolationCode : String := "23505"

/-- The code of a refusal because a reference leads nowhere. -/
def foreignKeyViolationCode : String := "23503"

/-- The error of a store whose step met a refusal. A key that is taken is named
where the database names it. -/
def ofRefusal (step : String) (refusal : Refusal) : StoreError :=
  let detail := "database error in " ++ step ++ ": " ++ refusal.message
  if refusal.code = uniqueViolationCode then .uniqueViolation (refusal.constraint.getD detail)
  else if refusal.code = foreignKeyViolationCode then .foreignKeyViolation detail
  else .database detail

/-- The error of a store whose step failed. -/
def inStep (step : String) : Failure → StoreError
  | refused refusal => ofRefusal step refusal
  | noRecord => .rowNotFound ("unexpected row not found in " ++ step)
  | poolClosed => .database ("connection pool closed in " ++ step)
  | failure => .database ("sqlx error in " ++ step ++ ": " ++ failure.message)

/-- The error of a store that cannot make a row of a record. -/
def inRow (failure : Failure) : StoreError :=
  .database ("failed to decode row: " ++ failure.message)

end Failure

namespace Record

variable {α : Type}

/-- Read a column that may be null. -/
def readNullable (record : Record) (name : String) (take : Datum → Option α) :
    Except Failure (Option α) :=
  match record.lookup name with
  | none => .error (.noColumn name)
  | some .null => .ok none
  | some datum =>
    match take datum with
    | none => .error (.mistypedColumn name)
    | some value => .ok (some value)

/-- Read a column that is not null. -/
def read (record : Record) (name : String) (take : Datum → Option α) : Except Failure α :=
  match record.readNullable name take with
  | .error failure => .error failure
  | .ok none => .error (.nullColumn name)
  | .ok (some value) => .ok value

/-- Read the first column, whatever its name, as a truth value. -/
def readTruth : Record → Except Failure Bool
  | [] => .error .noFirstColumn
  | (_, .null) :: _ => .error .nullFirstColumn
  | (_, .bool value) :: _ => .ok value
  | (_, datum) :: _ => .error (.noTruthInFirstColumn datum)

end Record

end VariantCatalog.Sql
