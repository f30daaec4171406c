/-
# Statements

The few forms of statements that a catalog needs, and the text of each.  A
statement refers to its parameters by their places, counted from one.  A layout
says whether a list in parentheses keeps lines of its own, which shows in the text
as a blank inside of each parenthesis.
-/

import VariantCatalog.Text.Numeral

namespace VariantCatalog.Sql

open VariantCatalog.Text

/-- What a statement writes into a column. -/
inductive Expression where
  /-- The parameter at a place. -/
  | parameter (place : Nat)
  /-- The parameter at a place, or the present moment if that is null. -/
  | parameterOrNow (place : Nat)
  /-- The present moment. -/
  | now
  deriving DecidableEq

/-- What a statement demands of the rows that it is about. -/
inductive Condition where
  /-- A column equals the parameter at a place. -/
  | equals (column : String) (place : Nat)
  /-- A column is null. -/
  | isNull (column : String)
  deriving DecidableEq

/-- How a list in parentheses is laid out. -/
inductive Layout where
  | compact
  | spread
  deriving DecidableEq

/-- A statement. -/
inductive Statement where
  | begin
  | commit
  | rollback
  /-- Is there a row of a table that meets the conditions? -/
  | test (layout : Layout) (table : String) (conditions : List Condition)
  /-- Columns of the rows of a table that meet the conditions, ordered by
  identifier if that is asked for. -/
  | select (columns : List String) (table : String) (conditions : List Condition)
      (isOrdered : Bool)
  /-- The values that some variants are made of, by their live bridges. -/
  | selectBridgedValues
  /-- New rows of a table, one for each group, and columns of what was stored. -/
  | insert (layout : Layout) (table : String) (columns : List String)
      (groups : List (List Expression)) (returning : List String)
  /-- New contents of columns of the rows of a table that meet the conditions, and
  columns of what was stored. -/
  | update (table : String) (assignments : List (String × Expression))
      (conditions : List Condition) (returning : List String)
  /-- A text that is run as it stands. -/
  | script (text : String)
  deriving DecidableEq

/-! ## Text -/

/-- A parameter by its place. -/
def placeholder (place : Nat) : String := "$" ++ integerText place

/-- Texts in a row, with commas between them. -/
def commaSeparated (texts : List String) : String := ", ".intercalate texts

/-- A text in parentheses. -/
def parenthesized (layout : Layout) (text : String) : String :=
  match layout with
  | .compact => "(" ++ text ++ ")"
  | .spread => "( " ++ text ++ " )"

/-- The text of an expression. -/
def Expression.text : Expression → String
  | parameter place => placeholder place
  | parameterOrNow place => "COALESCE(" ++ placeholder place ++ ", NOW())"
  | now => "NOW()"

/-- The text of a condition. -/
def Condition.text : Condition → String
  | equals column place => column ++ " = " ++ placeholder place
  | isNull column => column ++ " IS NULL"

/-- The text of conditions that must all be met. -/
def whereText (conditions : List Condition) : String :=
  " WHERE " ++ " AND ".intercalate (conditions.map Condition.text)

/-- The text of the columns that come back, if any do. -/
def returningText : List String → String
  | [] => ""
  | columns => " RETURNING " ++ commaSeparated columns

namespace Statement

/-- The text that selects the values of variants by their live bridges. -/
def bridgedValuesText : String :=
  "SELECT b.product_id, v.id, v.product_option_id, v.value, " ++
  "v.created_on, v.updated_on, v.archived_on " ++
  "FROM product_variant_bridge b " ++
  "JOIN product_option_values v ON v.id = b.product_option_value_id " ++
  "WHERE b.product_id = ANY($1) AND b.archived_on IS NULL " ++
  "ORDER BY b.id"

/-- The text of a statement. -/
def text : Statement → String
  | begin => "BEGIN"
  | commit => "COMMIT"
  | rollback => "ROLLBACK"
  | test layout table conditions =>
    "SELECT EXISTS" ++
      parenthesized layout ("SELECT 1 FROM " ++ table ++ whereText conditions)
  | select columns table conditions isOrdered =>
    "SELECT " ++ commaSeparated columns ++ " FROM " ++ table ++ whereText conditions ++
      if isOrdered then " ORDER BY id" else ""
  | selectBridgedValues => bridgedValuesText
  | insert layout table columns groups returning =>
    "INSERT INTO " ++ table ++ " " ++ parenthesized layout (commaSeparated columns) ++
      " VALUES " ++
      commaSeparated (groups.map fun group =>
        parenthesized .compact (commaSeparated (group.map Expression.text))) ++
      returningText returning
  | update table assignments conditions returning =>
    "UPDATE " ++ table ++ " SET " ++
      commaSeparated (assignments.map fun assignment =>
        assignment.1 ++ " = " ++ assignment.2.text) ++
      whereText conditions ++ returningText returning
  | script text => text

end Statement

end VariantCatalog.Sql
