/-
# Kinds of rows and their identifiers

A catalog has five kinds of rows.  An identifier is a number that belongs to one
kind, so that the identifier of an option cannot be taken for that of a variant.
Stores hand identifiers out; a caller that writes one as text must write a
positive number.
-/

import VariantCatalog.Text.Numeral

namespace VariantCatalog

open VariantCatalog.Text

/-- What a row of the catalog is: the thing that is sold, a dimension in which it
varies, a choice in such a dimension, a variant that can be bought, or the link
from a variant to one of the choices that it was made of. -/
inductive EntityKind where
  | root
  | option
  | value
  | product
  | bridge
  deriving DecidableEq

namespace EntityKind

/-- All kinds, parents before children. -/
def all : List EntityKind := [.root, .option, .value, .product, .bridge]

/-- The name of a kind. -/
def name : EntityKind → String
  | .root => "ProductRoot"
  | .option => "ProductOption"
  | .value => "ProductOptionValue"
  | .product => "Product"
  | .bridge => "VariantBridge"

/-- The kind of a name. -/
def ofName? (name : String) : Option EntityKind :=
  all.find? (·.name = name)

/-- The words by which a message speaks of a row. -/
def words : EntityKind → String
  | .root => "product root"
  | .option => "product option"
  | .value => "product option value"
  | .product => "product"
  | .bridge => "variant bridge"

end EntityKind

/-- The identifier of a row of one kind. -/
structure Id (kind : EntityKind) where
  number : Int
  deriving DecidableEq

namespace Id

variable {kind : EntityKind}

/-- An identifier as text. -/
def text (id : Id kind) : String := integerText id.number

/-- Why a text is no identifier. -/
inductive TextError where
  | notNumeral (problem : NumeralError)
  | notPositive (number : Int)
  deriving DecidableEq

/-- The wording of the problem with the text of an identifier. -/
def TextError.message (kind : EntityKind) : TextError → String
  | .notNumeral problem => kind.name ++ "Id: " ++ problem.message
  | .notPositive number => kind.name ++ "Id: must be positive, got " ++ integerText number

/-- Read an identifier: a numeral of 64 bits that is positive. -/
def ofText (kind : EntityKind) (text : String) : Except TextError (Id kind) :=
  match readNumeral .signed64 text.toList with
  | .error problem => .error (.notNumeral problem)
  | .ok number => if 0 < number then .ok ⟨number⟩ else .error (.notPositive number)

end Id

end VariantCatalog
