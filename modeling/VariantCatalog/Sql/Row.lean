/-
# Rows out of records

Each kind of row is made of a record by the names of its columns, one after the
other; the first column that is missing, null where it may not be, or of another
type is reported.  A stored option has no values and a stored variant none either:
those are attached from the records of the bridges.
-/

import VariantCatalog.Entity.Row
import VariantCatalog.Sql.Datum

namespace VariantCatalog.Sql

open VariantCatalog.Calendar

namespace Record

variable (record : Record)

/-- An integer of eight bytes. -/
def integer (name : String) : Except Failure Int := record.read name Datum.asInteger?

/-- An integer of four bytes. -/
def smallInteger (name : String) : Except Failure Int := record.read name Datum.asSmallInteger?

/-- A text. -/
def text (name : String) : Except Failure String := record.read name Datum.asText?

/-- A text, or null. -/
def text? (name : String) : Except Failure (Option String) :=
  record.readNullable name Datum.asText?

/-- A truth value. -/
def bool (name : String) : Except Failure Bool := record.read name Datum.asBool?

/-- A moment. -/
def moment (name : String) : Except Failure Moment := record.read name Datum.asMoment?

/-- A moment, or null. -/
def moment? (name : String) : Except Failure (Option Moment) :=
  record.readNullable name Datum.asMoment?

/-- An identifier. -/
def id {kind : EntityKind} (name : String) : Except Failure (Id kind) := do
  return ⟨← record.integer name⟩

/-- The measurements of a subject. -/
def dimensions (subject : String) : Except Failure Dimensions := do
  let weight ← record.read (subject ++ "_weight") Datum.asReal?
  let height ← record.read (subject ++ "_height") Datum.asReal?
  let width ← record.read (subject ++ "_width") Datum.asReal?
  let length ← record.read (subject ++ "_length") Datum.asReal?
  return { weight, height, width, length }

/-- The lifecycle of a row. -/
def lifecycle : Except Failure Lifecycle := do
  let createdOn ← record.moment "created_on"
  let updatedOn ← record.moment? "updated_on"
  let archivedOn ← record.moment? "archived_on"
  return { createdOn, updatedOn, archivedOn }

/-- A root. -/
def root : Except Failure ProductRoot := do
  let id ← record.id "id"
  let name ← record.text "name"
  let subtitle ← record.text? "subtitle"
  let description ← record.text "description"
  let skuPrefix ← record.text "sku_prefix"
  let manufacturer ← record.text? "manufacturer"
  let brand ← record.text? "brand"
  let availableOn ← record.moment "available_on"
  let taxable ← record.bool "taxable"
  let cost ← record.integer "cost"
  let productDimensions ← record.dimensions "product"
  let packageDimensions ← record.dimensions "package"
  let lifecycle ← record.lifecycle
  return {
    id, skuPrefix, availableOn, lifecycle
    details := {
      name, subtitle, description, manufacturer, brand, taxable, cost,
      productDimensions, packageDimensions } }

/-- An option, without its values. -/
def option : Except Failure ProductOption := do
  let id ← record.id "id"
  let root ← record.id "product_root_id"
  let name ← record.text "name"
  let lifecycle ← record.lifecycle
  return { id, root, name, values := [], lifecycle }

/-- An option value. -/
def value : Except Failure OptionValue := do
  let id ← record.id "id"
  let option ← record.id "product_option_id"
  let value ← record.text "value"
  let lifecycle ← record.lifecycle
  return { id, option, value, lifecycle }

/-- A variant, without the values that it is made of. -/
def product : Except Failure Product := do
  let id ← record.id "id"
  let root ← record.id "product_root_id"
  let name ← record.text "name"
  let subtitle ← record.text? "subtitle"
  let description ← record.text "description"
  let optionSummary ← record.text "option_summary"
  let sku ← record.text "sku"
  let upc ← record.text? "upc"
  let manufacturer ← record.text? "manufacturer"
  let brand ← record.text? "brand"
  let quantity ← record.smallInteger "quantity"
  let quantityPerPackage ← record.smallInteger "quantity_per_package"
  let taxable ← record.bool "taxable"
  let price ← record.integer "price"
  let onSale ← record.bool "on_sale"
  let salePrice ← record.readNullable "sale_price" Datum.asInteger?
  let cost ← record.integer "cost"
  let productDimensions ← record.dimensions "product"
  let packageDimensions ← record.dimensions "package"
  let availableOn ← record.moment "available_on"
  let lifecycle ← record.lifecycle
  return {
    id, root, optionSummary, sku, optionValues := [], availableOn, lifecycle
    details := {
      name, subtitle, description, upc, manufacturer, brand, quantity, quantityPerPackage,
      taxable, price, onSale, salePrice, cost, productDimensions, packageDimensions } }

/-- A bridge. -/
def bridge : Except Failure VariantBridge := do
  let id ← record.id "id"
  let product ← record.id "product_id"
  let value ← record.id "product_option_value_id"
  let lifecycle ← record.lifecycle
  return { id, product, value, lifecycle }

/-- The row of a kind that a record holds. -/
def row (record : Record) : (kind : EntityKind) → Except StoreError kind.Row
  | .root => record.root.mapError Failure.inRow
  | .option => record.option.mapError Failure.inRow
  | .value => record.value.mapError Failure.inRow
  | .product => record.product.mapError Failure.inRow
  | .bridge => record.bridge.mapError Failure.inRow

end Record

/-! ## The values of variants -/

/-- The step that loads the values of variants. -/
def bridgedValuesStep : String := "load_applicable_option_values"

/-- The identifier of a variant and a value that it is made of. -/
def bridgedValue (record : Record) : Except StoreError (Id .product × OptionValue) := do
  let product ← (record.id "product_id").mapError (Failure.inStep bridgedValuesStep)
  let value ← record.row .value
  return (product, value)

/-- Add a value to the first variant that has an identifier. -/
def addValue (id : Id .product) (value : OptionValue) : List Product → List Product
  | [] => []
  | product :: rest =>
    if product.id = id then
      { product with optionValues := product.optionValues ++ [value] } :: rest
    else product :: addValue id value rest

/-- The variants with the values that some records give them, in the order of the
records. Records of other variants are passed over. -/
def attachValues (products : List Product) (records : List Record) :
    Except StoreError (List Product) := do
  let bridged ← records.mapM bridgedValue
  return bridged.foldl (fun products pair => addValue pair.1 pair.2 products) products

end VariantCatalog.Sql
