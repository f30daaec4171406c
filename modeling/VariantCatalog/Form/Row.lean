/-
# Rows as JSON

Each kind of row is written as an object with the fields of its lifecycle among its
own.  The moments of an edit and of archiving are left out while there are none.
Reading asks for the same fields and passes over all others.
-/

import VariantCatalog.Entity.Row
import VariantCatalog.Json.Value

namespace VariantCatalog

open VariantCatalog.Calendar

/-! ## Numbers and moments -/

namespace Json

/-- A moment. -/
def ofMoment (moment : Moment) : Json := .text moment.text

/-- A moment that was given as text. -/
def asMoment? (value : Json) : Option Moment :=
  value.asText?.bind Moment.ofText?

/-- An identifier. -/
def ofId {kind : EntityKind} (id : Id kind) : Json := .integer id.number

/-- An identifier of a kind. Any number of 64 bits will do. -/
def asId? {kind : EntityKind} (value : Json) : Option (Id kind) :=
  value.asInt64?.map Id.mk

/-- A text, or null. -/
def textOrNull (value : Option String) : Json := ofOption .text value

/-- An integer, or null. -/
def integerOrNull (value : Option Int) : Json := ofOption .integer value

/-- The fields of an object, from which something is read. -/
def readFields {α : Type} (read : Fields → Option α) (value : Json) : Option α :=
  value.asObject?.bind read

end Json

/-! ## Parts of rows -/

/-- The form of measurements. -/
def Dimensions.toJson (dimensions : Dimensions) : Json :=
  .object [
    ("weight", .real dimensions.weight), ("height", .real dimensions.height),
    ("width", .real dimensions.width), ("length", .real dimensions.length)]

/-- Measurements from their form. -/
def Dimensions.ofJson? : Json → Option Dimensions :=
  Json.readFields fun fields => do
    let weight ← fields.required "weight" Json.asDouble?
    let height ← fields.required "height" Json.asDouble?
    let width ← fields.required "width" Json.asDouble?
    let length ← fields.required "length" Json.asDouble?
    return { weight, height, width, length }

namespace Lifecycle

/-- A field for a moment, unless there is none. -/
def momentField (name : String) : Option Moment → Fields
  | none => []
  | some moment => [(name, .ofMoment moment)]

/-- The fields of a lifecycle. -/
def toFields (lifecycle : Lifecycle) : Fields :=
  ("created_on", .ofMoment lifecycle.createdOn) ::
    (momentField "updated_on" lifecycle.updatedOn ++
      momentField "archived_on" lifecycle.archivedOn)

/-- A lifecycle from its fields. -/
def ofFields? (fields : Fields) : Option Lifecycle := do
  let createdOn ← fields.required "created_on" Json.asMoment?
  let updatedOn ← fields.optional "updated_on" Json.asMoment?
  let archivedOn ← fields.optional "archived_on" Json.asMoment?
  return { createdOn, updatedOn, archivedOn }

end Lifecycle

/-! ## Rows -/

namespace ProductRoot

/-- The fields of a root. -/
def toFields (root : ProductRoot) : Fields :=
  [("id", .ofId root.id), ("name", .text root.details.name),
    ("subtitle", .textOrNull root.details.subtitle),
    ("description", .text root.details.description), ("sku_prefix", .text root.skuPrefix),
    ("manufacturer", .textOrNull root.details.manufacturer),
    ("brand", .textOrNull root.details.brand), ("available_on", .ofMoment root.availableOn),
    ("taxable", .bool root.details.taxable), ("cost", .integer root.details.cost),
    ("product_dimensions", root.details.productDimensions.toJson),
    ("package_dimensions", root.details.packageDimensions.toJson)] ++ root.lifecycle.toFields

/-- A root from its fields. -/
def ofFields? (fields : Fields) : Option ProductRoot := do
  let id ← fields.required "id" Json.asId?
  let name ← fields.required "name" Json.asText?
  let subtitle ← fields.optional "subtitle" Json.asText?
  let description ← fields.required "description" Json.asText?
  let skuPrefix ← fields.required "sku_prefix" Json.asText?
  let manufacturer ← fields.optional "manufacturer" Json.asText?
  let brand ← fields.optional "brand" Json.asText?
  let availableOn ← fields.required "available_on" Json.asMoment?
  let taxable ← fields.required "taxable" Json.asBool?
  let cost ← fields.required "cost" Json.asInt64?
  let productDimensions ← fields.required "product_dimensions" Dimensions.ofJson?
  let packageDimensions ← fields.required "package_dimensions" Dimensions.ofJson?
  let lifecycle ← Lifecycle.ofFields? fields
  return {
    id, skuPrefix, availableOn, lifecycle
    details := {
      name, subtitle, description, manufacturer, brand, taxable, cost,
      productDimensions, packageDimensions } }

/-- The form of a root. -/
def toJson (root : ProductRoot) : Json := .object root.toFields

/-- A root from its form. -/
def ofJson? : Json → Option ProductRoot := Json.readFields ofFields?

end ProductRoot

namespace OptionValue

/-- The form of an option value. -/
def toJson (value : OptionValue) : Json :=
  .object <|
    [("id", .ofId value.id), ("product_option_id", .ofId value.option),
      ("value", .text value.value)] ++ value.lifecycle.toFields

/-- An option value from its form. -/
def ofJson? : Json → Option OptionValue :=
  Json.readFields fun fields => do
    let id ← fields.required "id" Json.asId?
    let option ← fields.required "product_option_id" Json.asId?
    let value ← fields.required "value" Json.asText?
    let lifecycle ← Lifecycle.ofFields? fields
    return { id, option, value, lifecycle }

end OptionValue

namespace ProductOption

/-- The form of an option, with the values that are loaded. -/
def toJson (option : ProductOption) : Json :=
  .object <|
    [("id", .ofId option.id), ("product_root_id", .ofId option.root),
      ("name", .text option.name), ("values", .ofList OptionValue.toJson option.values)] ++
    option.lifecycle.toFields

/-- An option from its form. -/
def ofJson? : Json → Option ProductOption :=
  Json.readFields fun fields => do
    let id ← fields.required "id" Json.asId?
    let root ← fields.required "product_root_id" Json.asId?
    let name ← fields.required "name" Json.asText?
    let values ← fields.defaulted "values" [] (Json.asList? OptionValue.ofJson?)
    let lifecycle ← Lifecycle.ofFields? fields
    return { id, root, name, values, lifecycle }

end ProductOption

namespace ProductDetails

/-- The fields of what a variant says of the product. -/
def toFields (details : ProductDetails) : Fields :=
  [("name", .text details.name), ("subtitle", .textOrNull details.subtitle),
    ("description", .text details.description), ("upc", .textOrNull details.upc),
    ("manufacturer", .textOrNull details.manufacturer), ("brand", .textOrNull details.brand),
    ("quantity", .integer details.quantity),
    ("quantity_per_package", .integer details.quantityPerPackage),
    ("taxable", .bool details.taxable), ("price", .integer details.price),
    ("on_sale", .bool details.onSale), ("sale_price", .integerOrNull details.salePrice),
    ("cost", .integer details.cost), ("product_dimensions", details.productDimensions.toJson),
    ("package_dimensions", details.packageDimensions.toJson)]

/-- What a variant says of the product, from its fields. -/
def ofFields? (fields : Fields) : Option ProductDetails := do
  let name ← fields.required "name" Json.asText?
  let subtitle ← fields.optional "subtitle" Json.asText?
  let description ← fields.required "description" Json.asText?
  let upc ← fields.optional "upc" Json.asText?
  let manufacturer ← fields.optional "manufacturer" Json.asText?
  let brand ← fields.optional "brand" Json.asText?
  let quantity ← fields.required "quantity" Json.asInt32?
  let quantityPerPackage ← fields.required "quantity_per_package" Json.asInt32?
  let taxable ← fields.required "taxable" Json.asBool?
  let price ← fields.required "price" Json.asInt64?
  let onSale ← fields.required "on_sale" Json.asBool?
  let salePrice ← fields.optional "sale_price" Json.asInt64?
  let cost ← fields.required "cost" Json.asInt64?
  let productDimensions ← fields.required "product_dimensions" Dimensions.ofJson?
  let packageDimensions ← fields.required "package_dimensions" Dimensions.ofJson?
  return {
    name, subtitle, description, upc, manufacturer, brand, quantity, quantityPerPackage,
    taxable, price, onSale, salePrice, cost, productDimensions, packageDimensions }

end ProductDetails

namespace Product

/-- The form of a variant, with the values that are loaded. -/
def toJson (product : Product) : Json :=
  .object <|
    [("id", .ofId product.id), ("product_root_id", .ofId product.root),
      ("option_summary", .text product.optionSummary), ("sku", .text product.sku)] ++
    product.details.toFields ++
    [("applicable_option_values", .ofList OptionValue.toJson product.optionValues),
      ("available_on", .ofMoment product.availableOn)] ++ product.lifecycle.toFields

/-- A variant from its form. -/
def ofJson? : Json → Option Product :=
  Json.readFields fun fields => do
    let id ← fields.required "id" Json.asId?
    let root ← fields.required "product_root_id" Json.asId?
    let optionSummary ← fields.required "option_summary" Json.asText?
    let sku ← fields.required "sku" Json.asText?
    let details ← ProductDetails.ofFields? fields
    let optionValues ←
      fields.defaulted "applicable_option_values" [] (Json.asList? OptionValue.ofJson?)
    let availableOn ← fields.required "available_on" Json.asMoment?
    let lifecycle ← Lifecycle.ofFields? fields
    return { id, root, optionSummary, sku, details, optionValues, availableOn, lifecycle }

end Product

namespace VariantBridge

/-- The form of a bridge. -/
def toJson (bridge : VariantBridge) : Json :=
  .object <|
    [("id", .ofId bridge.id), ("product_id", .ofId bridge.product),
      ("product_option_value_id", .ofId bridge.value)] ++ bridge.lifecycle.toFields

/-- A bridge from its form. -/
def ofJson? : Json → Option VariantBridge :=
  Json.readFields fun fields => do
    let id ← fields.required "id" Json.asId?
    let product ← fields.required "product_id" Json.asId?
    let value ← fields.required "product_option_value_id" Json.asId?
    let lifecycle ← Lifecycle.ofFields? fields
    return { id, product, value, lifecycle }

end VariantBridge

namespace Row

/-- The form of a row. -/
def toJson : {kind : EntityKind} → kind.Row → Json
  | .root => ProductRoot.toJson
  | .option => ProductOption.toJson
  | .value => OptionValue.toJson
  | .product => Product.toJson
  | .bridge => VariantBridge.toJson

/-- A row of a kind from its form. -/
def ofJson? : (kind : EntityKind) → Json → Option kind.Row
  | .root => ProductRoot.ofJson?
  | .option => ProductOption.ofJson?
  | .value => OptionValue.ofJson?
  | .product => Product.ofJson?
  | .bridge => VariantBridge.ofJson?

end Row

/-! ## Graphs -/

namespace RootGraph

/-- The form of a graph: the fields of its root, and its options and variants. -/
def toJson (graph : RootGraph) : Json :=
  .object <| graph.root.toFields ++
    [("options", .ofList ProductOption.toJson graph.options),
      ("products", .ofList Product.toJson graph.products)]

/-- A graph from its form. -/
def ofJson? : Json → Option RootGraph :=
  Json.readFields fun fields => do
    let root ← ProductRoot.ofFields? fields
    let options ← fields.required "options" (Json.asList? ProductOption.ofJson?)
    let products ← fields.required "products" (Json.asList? Product.ofJson?)
    return { root, options, products }

/-- Values by their identifiers and texts. -/
def briefValues (values : List OptionValue) : Json :=
  .ofList (fun value => .list [.ofId value.id, .text value.value]) values

/-- The brief form of a graph: identifiers and names only. -/
def toBriefJson (graph : RootGraph) : Json :=
  .object [
    ("root", .list [.ofId graph.root.id, .text graph.root.skuPrefix]),
    ("options", .ofList (fun option =>
      .list [.ofId option.id, .text option.name, briefValues option.values]) graph.options),
    ("products", .ofList (fun product =>
      .list [.ofId product.id, .text product.sku, .text product.optionSummary,
        briefValues product.optionValues]) graph.products)]

end RootGraph

end VariantCatalog
