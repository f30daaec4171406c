/-
# Edits of a variant

A patch names the details that an edit changes; what it does not name stays as it
is.  Identifiers, the SKU and the option summary are no details, so no patch can
reach them.
-/

import VariantCatalog.Request.Creation

namespace VariantCatalog

open VariantCatalog.Calendar VariantCatalog.Text

/-- The details of a variant that an edit changes. -/
structure ProductPatch where
  name : Option String
  subtitle : Option String
  description : Option String
  upc : Option String
  manufacturer : Option String
  brand : Option String
  quantity : Option Int
  quantityPerPackage : Option Int
  taxable : Option Bool
  price : Option Int
  onSale : Option Bool
  salePrice : Option Int
  cost : Option Int
  productDimensions : Option Dimensions
  packageDimensions : Option Dimensions
  availableOn : Option Moment
  deriving DecidableEq

namespace ProductPatch

/-- The patch that changes nothing. -/
def empty : ProductPatch :=
  ⟨none, none, none, none, none, none, none, none, none, none, none, none, none, none, none, none⟩

/-- Whether the patch names no detail. -/
def isEmpty (patch : ProductPatch) : Bool := patch = empty

/-- Reject a patch that names nothing, blanks the name, or empties the package. -/
def validate (patch : ProductPatch) : Except Flaw Unit :=
  if patch.isEmpty then .error .emptyPatch
  else if patch.name.any isBlankText then .error .blankName
  else if patch.quantityPerPackage.any (· < 1) then .error .emptyPackage
  else .ok ()

/-- The details after the edit. -/
def details (patch : ProductPatch) (old : ProductDetails) : ProductDetails where
  name := patch.name.getD old.name
  subtitle := patch.subtitle.or old.subtitle
  description := patch.description.getD old.description
  upc := patch.upc.or old.upc
  manufacturer := patch.manufacturer.or old.manufacturer
  brand := patch.brand.or old.brand
  quantity := patch.quantity.getD old.quantity
  quantityPerPackage := patch.quantityPerPackage.getD old.quantityPerPackage
  taxable := patch.taxable.getD old.taxable
  price := patch.price.getD old.price
  onSale := patch.onSale.getD old.onSale
  salePrice := patch.salePrice.or old.salePrice
  cost := patch.cost.getD old.cost
  productDimensions := patch.productDimensions.getD old.productDimensions
  packageDimensions := patch.packageDimensions.getD old.packageDimensions

/-- The variant after the edit. -/
def apply (patch : ProductPatch) (product : Product) : Product :=
  { product with
    details := patch.details product.details
    availableOn := patch.availableOn.getD product.availableOn }

end ProductPatch

end VariantCatalog
