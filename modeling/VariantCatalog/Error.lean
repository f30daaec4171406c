/-
# What can go wrong

A `Flaw` is a cause for which a request is rejected before anything is stored.
The rules of the domain, a store, and a catalog operation each report an error of
their own: a store's error becomes a conflict or a missing row where it says so,
and otherwise stays an error of the storage.
-/

import VariantCatalog.Entity.Id

namespace VariantCatalog

open VariantCatalog.Text

/-- Why a request is malformed. -/
inductive Flaw where
  | blankName
  | invalidSku (sku : String)
  | blankOptionName
  | optionWithoutValues (option : String)
  | blankValueOfOption (option : String)
  | blankValue
  | tooManyVariants (requested limit : Nat)
  | uncountableVariants (limit : Nat)
  | emptyPatch
  | emptyPackage
  deriving DecidableEq

/-- The wording of each flaw. -/
def Flaw.message : Flaw → String
  | .blankName => "name cannot be empty"
  | .invalidSku sku => "the sku received (" ++ sku ++ ") is invalid"
  | .blankOptionName => "option name cannot be empty"
  | .optionWithoutValues option => "option '" ++ option ++ "' has no values"
  | .blankValueOfOption option => "option '" ++ option ++ "' has an empty value"
  | .blankValue => "option value cannot be empty"
  | .tooManyVariants requested limit =>
    integerText requested ++ " variants requested, at most " ++ integerText limit ++ " allowed"
  | .uncountableVariants limit =>
    "variant count overflows, at most " ++ integerText limit ++ " allowed"
  | .emptyPatch => "update contains no fields"
  | .emptyPackage => "quantity_per_package must be at least 1"

/-- A rule of the domain is broken. -/
inductive DomainError where
  | validation (detail : String)
  | invalidId (detail : String)
  | notFound (detail : String)
  | conflict (detail : String)
  deriving DecidableEq

namespace DomainError

/-- The name of the kind of error. -/
def name : DomainError → String
  | .validation _ => "Validation"
  | .invalidId _ => "InvalidId"
  | .notFound _ => "NotFound"
  | .conflict _ => "Conflict"

/-- The text of an error. -/
def message : DomainError → String
  | .validation detail => "validation failed: " ++ detail
  | .invalidId detail => "invalid identifier: " ++ detail
  | .notFound detail => "not found: " ++ detail
  | .conflict detail => "conflict: " ++ detail

/-- A malformed request breaks a rule of the domain. -/
def ofFlaw (flaw : Flaw) : DomainError := .validation flaw.message

/-- A text that is no identifier of its kind. -/
def ofIdText (kind : EntityKind) (error : Id.TextError) : DomainError :=
  .invalidId (error.message kind)

end DomainError

/-- Read an identifier. A text that is none breaks a rule of the domain. -/
def Id.parse (kind : EntityKind) (text : String) : Except DomainError (Id kind) :=
  (Id.ofText kind text).mapError (DomainError.ofIdText kind)

/-- A store could not do what it was asked. -/
inductive StoreError where
  | uniqueViolation (constraint : String)
  | foreignKeyViolation (detail : String)
  | rowNotFound (detail : String)
  | database (detail : String)
  deriving DecidableEq

namespace StoreError

/-- The name of the kind of error. -/
def name : StoreError → String
  | .uniqueViolation _ => "UniqueViolation"
  | .foreignKeyViolation _ => "ForeignKeyViolation"
  | .rowNotFound _ => "RowNotFound"
  | .database _ => "Database"

/-- The text of an error. -/
def message : StoreError → String
  | .uniqueViolation constraint => "unique constraint violated: " ++ constraint
  | .foreignKeyViolation detail => "foreign key violated: " ++ detail
  | .rowNotFound detail => "row not found: " ++ detail
  | .database detail => "database error: " ++ detail

/-- The row of an identifier is missing or not live. -/
def notLive {kind : EntityKind} (id : Id kind) : StoreError :=
  .rowNotFound (kind.words ++ " " ++ id.text ++ " does not exist or is archived")

end StoreError

/-- A catalog operation failed. -/
inductive CatalogError where
  | validation (detail : String)
  | conflict (detail : String)
  | notFound (detail : String)
  | storage (error : StoreError)
  deriving DecidableEq

namespace CatalogError

/-- The name of the kind of error. -/
def name : CatalogError → String
  | .validation _ => "Validation"
  | .conflict _ => "Conflict"
  | .notFound _ => "NotFound"
  | .storage _ => "Storage"

/-- The text of an error. -/
def message : CatalogError → String
  | .validation detail => "validation failed: " ++ detail
  | .conflict detail => "conflict: " ++ detail
  | .notFound detail => "not found: " ++ detail
  | .storage error => "storage error: " ++ error.message

/-- A broken rule fails the operation; a bad identifier is bad input. -/
def ofDomain : DomainError → CatalogError
  | .validation detail => .validation detail
  | .invalidId detail => .validation detail
  | .notFound detail => .notFound detail
  | .conflict detail => .conflict detail

/-- A malformed request fails the operation. -/
def ofFlaw (flaw : Flaw) : CatalogError := .ofDomain (.ofFlaw flaw)

/-- A store's refusal fails the operation: a key that is taken is a conflict, a
row that is gone is not found, and all else is an error of the storage. -/
def ofStore : StoreError → CatalogError
  | .uniqueViolation constraint => .conflict (constraint ++ " already taken")
  | .rowNotFound detail => .notFound detail
  | error => .storage error

/-- The target of an operation is missing or archived. -/
def absent {kind : EntityKind} (id : Id kind) : CatalogError :=
  .notFound (kind.words ++ " " ++ id.text)

/-- No live variant has the SKU. -/
def absentSku (sku : String) : CatalogError :=
  .notFound ("product with sku '" ++ sku ++ "'")

/-- A root with the SKU prefix exists. -/
def skuTaken (sku : String) : CatalogError :=
  .conflict ("product with sku '" ++ sku ++ "' already exists")

/-- A live option of the root has the name. -/
def optionNameTaken (name : String) (root : Id .root) : CatalogError :=
  .conflict ("product option '" ++ name ++ "' already exists on root " ++ root.text)

/-- A live value of the option has the text. -/
def valueTaken (value : String) (option : Id .option) : CatalogError :=
  .conflict ("product option value '" ++ value ++ "' already exists on option " ++ option.text)

end CatalogError

end VariantCatalog
