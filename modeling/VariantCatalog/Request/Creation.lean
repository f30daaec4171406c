/-
# Requests to create

A creation names a product, says what its variants have in common, and lists the
options in which they differ.  `Creation.validate` accepts a creation whose name
is not blank, whose SKU is restricted to the characters of a web address, whose
options all have a name and values that are not blank, and which expands to no
more variants than the caller allows.
-/

import VariantCatalog.Entity.Row
import VariantCatalog.Error
import VariantCatalog.Expansion.Count
import VariantCatalog.Text.Blank

namespace VariantCatalog

open VariantCatalog.Calendar VariantCatalog.Text

/-! ## SKUs -/

namespace Sku

/-- The bytes of a text in UTF-8. -/
def utf8Bytes (text : String) : List UInt8 :=
  text.toList.flatMap String.utf8EncodeChar

/-- The bytes of the characters `A` to `Z`, `a` to `z`, `0` to `9`, `-` and `_`. -/
def isRestrictedByte (byte : UInt8) : Bool :=
  (0x41 ≤ byte && byte ≤ 0x5A) || (0x61 ≤ byte && byte ≤ 0x7A) ||
    (0x30 ≤ byte && byte ≤ 0x39) || byte = 0x2D || byte = 0x5F

/-- SKUs go into web addresses, so they are not empty and made of restricted
bytes only. -/
def isRestricted (sku : String) : Bool :=
  !sku.isEmpty && (utf8Bytes sku).all isRestrictedByte

/-- Reject a SKU that is not restricted. -/
def validate (sku : String) : Except Flaw Unit :=
  if isRestricted sku then .ok () else .error (.invalidSku sku)

end Sku

/-! ## Options -/

/-- An option to create, with its values in display order. -/
structure OptionSpec where
  name : String
  values : List String
  deriving DecidableEq

namespace OptionSpec

/-- Reject an option that is blank, has no values, or has a blank one. -/
def validate (spec : OptionSpec) : Except Flaw Unit :=
  if isBlankText spec.name then .error .blankOptionName
  else if spec.values.isEmpty then .error (.optionWithoutValues spec.name)
  else if spec.values.any isBlankText then .error (.blankValueOfOption spec.name)
  else .ok ()

end OptionSpec

/-! ## Products -/

/-- What a new product and all of its variants have in common. The SKU is the
prefix of the variants' SKUs. Without a date of its own, the product is available
from the moment it is stored. -/
structure ProductDraft where
  sku : String
  details : ProductDetails
  availableOn : Option Moment
  deriving DecidableEq

namespace ProductDraft

/-- A package holds at least one unit. -/
def packageQuantity (draft : ProductDraft) : Int :=
  max draft.details.quantityPerPackage 1

end ProductDraft

/-- A product to create, with the options that its variants are made of. -/
structure Creation where
  product : ProductDraft
  options : List OptionSpec
  deriving DecidableEq

namespace Creation

/-- The creation of a product without options. -/
def ofDraft (product : ProductDraft) : Creation := ⟨product, []⟩

/-- The creation with one more option. -/
def withOption (creation : Creation) (name : String) (values : List String) : Creation :=
  { creation with options := creation.options ++ [⟨name, values⟩] }

/-- The number of variants that the creation makes, unless it is too great for a
count. A product without options has one. -/
def variantCount? (creation : Creation) : Option Nat :=
  (Expansion.combinationCount? (creation.options.map (·.values.length))).map (max · 1)

/-- Reject a creation with more variants than the limit. -/
def checkLimit (creation : Creation) : Option Nat → Except Flaw Unit
  | none => .ok ()
  | some limit =>
    match creation.variantCount? with
    | none => .error (.uncountableVariants limit)
    | some count => if count ≤ limit then .ok () else .error (.tooManyVariants count limit)

/-- Reject a malformed creation. Without a limit, any number of variants will
do. -/
def validate (creation : Creation) (limit : Option Nat) : Except Flaw Unit := do
  if isBlankText creation.product.details.name then throw .blankName
  Sku.validate creation.product.sku
  creation.options.forM OptionSpec.validate
  creation.checkLimit limit

end Creation

/-! ## Rows to store -/

/-- What a product says that its root says too. -/
def ProductDetails.ofRoot (details : ProductDetails) : RootDetails where
  name := details.name
  subtitle := details.subtitle
  description := details.description
  manufacturer := details.manufacturer
  brand := details.brand
  taxable := details.taxable
  cost := details.cost
  productDimensions := details.productDimensions
  packageDimensions := details.packageDimensions

/-- A root to store. -/
structure NewRoot where
  skuPrefix : String
  details : RootDetails
  availableOn : Option Moment
  deriving DecidableEq

/-- The root of a draft. -/
def NewRoot.ofDraft (draft : ProductDraft) : NewRoot where
  skuPrefix := draft.sku
  details := draft.details.ofRoot
  availableOn := draft.availableOn

/-- An option to store. -/
structure NewOption where
  root : Id .root
  name : String
  deriving DecidableEq

/-- An option value to store. -/
structure NewValue where
  option : Id .option
  value : String
  deriving DecidableEq

/-- A variant to store. -/
structure NewProduct where
  root : Id .root
  optionSummary : String
  sku : String
  details : ProductDetails
  availableOn : Option Moment
  deriving DecidableEq

end VariantCatalog
