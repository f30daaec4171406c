/-
# The rows of a catalog

Each kind of row is a structure of its own: its identifier, its place in the
catalog, what it says, and its lifecycle.  What an edit may change about a root
or a variant is gathered in `RootDetails` and `ProductDetails`, so that an edit
replaces exactly those; a SKU, a parent and an identifier are outside of them.

The rows of a kind are reached by the kind itself: `kind.Row` is their type, and
`Row.id` and `Row.lifecycle` read a row of whatever kind.
-/

import VariantCatalog.Double
import VariantCatalog.Entity.Id
import VariantCatalog.Entity.Lifecycle

namespace VariantCatalog

open VariantCatalog.Calendar

/-- The measurements of a product or of its package. -/
structure Dimensions where
  weight : Double
  height : Double
  width : Double
  length : Double
  deriving DecidableEq

/-- Measurements that are all zero. -/
def Dimensions.zero : Dimensions := ⟨.zero, .zero, .zero, .zero⟩

/-- What a root says of the product, whichever variant is bought. Amounts of
money are in the smallest unit of the currency. -/
structure RootDetails where
  name : String
  subtitle : Option String
  description : String
  manufacturer : Option String
  brand : Option String
  taxable : Bool
  cost : Int
  productDimensions : Dimensions
  packageDimensions : Dimensions
  deriving DecidableEq

/-- The thing that is sold. Its SKU prefix begins the SKU of each variant. -/
structure ProductRoot where
  id : Id .root
  skuPrefix : String
  details : RootDetails
  availableOn : Moment
  lifecycle : Lifecycle
  deriving DecidableEq

/-- A choice that an option offers. -/
structure OptionValue where
  id : Id .value
  option : Id .option
  value : String
  lifecycle : Lifecycle
  deriving DecidableEq

/-- A dimension in which a root varies. Its values are loaded by reads of the
whole graph only; a stored row has none. -/
structure ProductOption where
  id : Id .option
  root : Id .root
  name : String
  values : List OptionValue
  lifecycle : Lifecycle
  deriving DecidableEq

/-- What a variant says of the product, and what an edit may change. -/
structure ProductDetails where
  name : String
  subtitle : Option String
  description : String
  upc : Option String
  manufacturer : Option String
  brand : Option String
  quantity : Int
  quantityPerPackage : Int
  taxable : Bool
  price : Int
  onSale : Bool
  salePrice : Option Int
  cost : Int
  productDimensions : Dimensions
  packageDimensions : Dimensions
  deriving DecidableEq

/-- A variant that can be bought. The values that it was made of are derived from
its live bridges; a stored row has none. -/
structure Product where
  id : Id .product
  root : Id .root
  optionSummary : String
  sku : String
  details : ProductDetails
  optionValues : List OptionValue
  availableOn : Moment
  lifecycle : Lifecycle
  deriving DecidableEq

/-- The link from a variant to a value that it was made of. -/
structure VariantBridge where
  id : Id .bridge
  product : Id .product
  value : Id .value
  lifecycle : Lifecycle
  deriving DecidableEq

/-- A root with its options, their values loaded, and its variants. -/
structure RootGraph where
  root : ProductRoot
  options : List ProductOption
  products : List Product
  deriving DecidableEq

namespace RootGraph

/-- The values of all options, in the order of the options. -/
def optionValues (graph : RootGraph) : List OptionValue :=
  graph.options.flatMap (·.values)

/-- The first variant with a SKU. -/
def productBySku? (graph : RootGraph) (sku : String) : Option Product :=
  graph.products.find? (·.sku = sku)

end RootGraph

/-- The type of the rows of a kind. -/
@[reducible] def EntityKind.Row : EntityKind → Type
  | .root => ProductRoot
  | .option => ProductOption
  | .value => OptionValue
  | .product => Product
  | .bridge => VariantBridge

namespace Row

/-- The identifier of a row. -/
def id : {kind : EntityKind} → kind.Row → Id kind
  | .root, row => ProductRoot.id row
  | .option, row => ProductOption.id row
  | .value, row => OptionValue.id row
  | .product, row => Product.id row
  | .bridge, row => VariantBridge.id row

/-- The lifecycle of a row. -/
def lifecycle : {kind : EntityKind} → kind.Row → Lifecycle
  | .root, row => ProductRoot.lifecycle row
  | .option, row => ProductOption.lifecycle row
  | .value, row => OptionValue.lifecycle row
  | .product, row => Product.lifecycle row
  | .bridge, row => VariantBridge.lifecycle row

/-- The row with another lifecycle. -/
def withLifecycle : {kind : EntityKind} → kind.Row → Lifecycle → kind.Row
  | .root, row, lifecycle => { (row : ProductRoot) with lifecycle }
  | .option, row, lifecycle => { (row : ProductOption) with lifecycle }
  | .value, row, lifecycle => { (row : OptionValue) with lifecycle }
  | .product, row, lifecycle => { (row : Product) with lifecycle }
  | .bridge, row, lifecycle => { (row : VariantBridge) with lifecycle }

/-- Whether a row is live. -/
def isLive {kind : EntityKind} (row : kind.Row) : Bool := (lifecycle row).isLive

/-- The row stamped as archived, unless it is archived already. -/
def archive {kind : EntityKind} (row : kind.Row) (moment : Moment) : kind.Row :=
  withLifecycle row ((lifecycle row).archive moment)

variable {kind : EntityKind}

@[simp] theorem id_withLifecycle (row : kind.Row) (lifecycle : Lifecycle) :
    id (withLifecycle row lifecycle) = id row := by
  cases kind <;> rfl

@[simp] theorem lifecycle_withLifecycle (row : kind.Row) (new : Lifecycle) :
    lifecycle (withLifecycle row new) = new := by
  cases kind <;> rfl

@[simp] theorem id_archive (row : kind.Row) (moment : Moment) :
    id (archive row moment) = id row :=
  id_withLifecycle row _

end Row

end VariantCatalog
