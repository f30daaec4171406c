/-
# The operations of a catalog

An operation is what a caller can ask of a catalog.  Ten of them change it, each
as one unit of work, and three only read.  `Operation.screen` is what is checked of
an operation before the store is asked for anything: a malformed request never
opens a transaction.
-/

import VariantCatalog.Request.Patch

namespace VariantCatalog

open VariantCatalog.Calendar VariantCatalog.Text

/-- What a caller can ask of a catalog. -/
inductive Operation where
  /-- Create a root with its options, their values, and a variant for each
  combination of values. -/
  | commit (creation : Creation)
  /-- Add an option with its values to a live root. No variants are made of them. -/
  | addOption (root : Id .root) (spec : OptionSpec)
  /-- Add a value to a live option. No variants are made of it. -/
  | addValue (option : Id .option) (value : String)
  /-- Archive a live root with everything below it. -/
  | archiveRoot (id : Id .root)
  /-- Archive a live variant with its bridges. -/
  | archiveVariant (id : Id .product)
  /-- Archive a live option with its values and their bridges. -/
  | archiveOption (id : Id .option)
  /-- Archive a live value with its bridges. -/
  | archiveValue (id : Id .value)
  /-- Edit the details of a live variant. -/
  | updateProduct (id : Id .product) (patch : ProductPatch)
  /-- Give a live option another name. -/
  | renameOption (id : Id .option) (name : String)
  /-- Give a live value another text. -/
  | updateValue (id : Id .value) (value : String)
  /-- Read a live root with its live options, values and variants. -/
  | rootGraph (id : Id .root)
  /-- Read the live variant with a SKU. -/
  | productBySku (sku : String)
  /-- Ask whether a SKU was ever taken. -/
  | skuExists (sku : String)
  deriving DecidableEq

namespace Operation

/-- The type of an operation's result. -/
@[reducible] def Result : Operation → Type
  | commit _ => RootGraph
  | addOption _ _ => ProductOption
  | addValue _ _ => OptionValue
  | archiveRoot _ => Moment
  | archiveVariant _ => Moment
  | archiveOption _ => Moment
  | archiveValue _ => Moment
  | updateProduct _ _ => Product
  | renameOption _ _ => ProductOption
  | updateValue _ _ => OptionValue
  | rootGraph _ => RootGraph
  | productBySku _ => Product
  | skuExists _ => Bool

/-- Whether an operation only reads. -/
def isRead : Operation → Bool
  | rootGraph _ => true
  | productBySku _ => true
  | skuExists _ => true
  | _ => false

/-- Reject a value that is blank. -/
def checkValue (value : String) : Except Flaw Unit :=
  if isBlankText value then .error .blankValue else .ok ()

/-- Reject the name of an option that is blank. -/
def checkOptionName (name : String) : Except Flaw Unit :=
  if isBlankText name then .error .blankOptionName else .ok ()

/-- Reject a malformed operation. A creation makes no more variants than the limit
allows; without a limit, any number of them. -/
def check (limit : Option Nat) : Operation → Except Flaw Unit
  | commit creation => creation.validate limit
  | addOption _ spec => spec.validate
  | addValue _ value => checkValue value
  | updateProduct _ patch => patch.validate
  | renameOption _ name => checkOptionName name
  | updateValue _ value => checkValue value
  | _ => .ok ()

/-- What is checked of an operation before it is carried out. -/
def screen (limit : Option Nat) (operation : Operation) : Except CatalogError Unit :=
  (operation.check limit).mapError .ofFlaw

end Operation

end VariantCatalog
