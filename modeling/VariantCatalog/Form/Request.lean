/-
# Requests as JSON

The forms of what callers send: drafts, creations and patches.  In a draft nearly
everything may be left out; a patch names what it changes, and a field that no
patch can change is rejected rather than passed over.
-/

import VariantCatalog.Form.Row
import VariantCatalog.Request.Patch

namespace VariantCatalog

open VariantCatalog.Calendar

/-- A moment, or null. -/
def Json.momentOrNull (value : Option Moment) : Json := ofOption ofMoment value

namespace ProductDraft

/-- The fields of a draft. -/
def toFields (draft : ProductDraft) : Fields :=
  draft.details.toFields ++
    [("sku", .text draft.sku), ("available_on", .momentOrNull draft.availableOn)]

/-- A draft from its fields. Only the name and the SKU must be there. -/
def ofFields? (fields : Fields) : Option ProductDraft := do
  let name ← fields.required "name" Json.asText?
  let subtitle ← fields.optional "subtitle" Json.asText?
  let description ← fields.defaulted "description" "" Json.asText?
  let sku ← fields.required "sku" Json.asText?
  let upc ← fields.optional "upc" Json.asText?
  let manufacturer ← fields.optional "manufacturer" Json.asText?
  let brand ← fields.optional "brand" Json.asText?
  let quantity ← fields.defaulted "quantity" 0 Json.asInt32?
  let quantityPerPackage ← fields.defaulted "quantity_per_package" 0 Json.asInt32?
  let taxable ← fields.defaulted "taxable" false Json.asBool?
  let price ← fields.defaulted "price" 0 Json.asInt64?
  let onSale ← fields.defaulted "on_sale" false Json.asBool?
  let salePrice ← fields.optional "sale_price" Json.asInt64?
  let cost ← fields.defaulted "cost" 0 Json.asInt64?
  let productDimensions ← fields.defaulted "product_dimensions" .zero Dimensions.ofJson?
  let packageDimensions ← fields.defaulted "package_dimensions" .zero Dimensions.ofJson?
  let availableOn ← fields.optional "available_on" Json.asMoment?
  return {
    sku, availableOn
    details := {
      name, subtitle, description, upc, manufacturer, brand, quantity, quantityPerPackage,
      taxable, price, onSale, salePrice, cost, productDimensions, packageDimensions } }

/-- A draft from its form. -/
def ofJson? : Json → Option ProductDraft := Json.readFields ofFields?

end ProductDraft

namespace OptionSpec

/-- The form of an option to create. -/
def toJson (spec : OptionSpec) : Json :=
  .object [("name", .text spec.name), ("values", .ofList .text spec.values)]

/-- An option to create from its form. -/
def ofJson? : Json → Option OptionSpec :=
  Json.readFields fun fields => do
    let name ← fields.required "name" Json.asText?
    let values ← fields.required "values" (Json.asList? Json.asText?)
    return { name, values }

end OptionSpec

namespace Creation

/-- The form of a creation: the fields of its draft, and its options. -/
def toJson (creation : Creation) : Json :=
  .object <| creation.product.toFields ++ [("options", .ofList OptionSpec.toJson creation.options)]

/-- A creation from its form. -/
def ofJson? : Json → Option Creation :=
  Json.readFields fun fields => do
    let product ← ProductDraft.ofFields? fields
    let options ← fields.defaulted "options" [] (Json.asList? OptionSpec.ofJson?)
    return { product, options }

end Creation

namespace ProductPatch

/-- The fields of a patch, null where it changes nothing. -/
def toFields (patch : ProductPatch) : Fields :=
  [("name", .textOrNull patch.name), ("subtitle", .textOrNull patch.subtitle),
    ("description", .textOrNull patch.description), ("upc", .textOrNull patch.upc),
    ("manufacturer", .textOrNull patch.manufacturer), ("brand", .textOrNull patch.brand),
    ("quantity", .integerOrNull patch.quantity),
    ("quantity_per_package", .integerOrNull patch.quantityPerPackage),
    ("taxable", .ofOption .bool patch.taxable), ("price", .integerOrNull patch.price),
    ("on_sale", .ofOption .bool patch.onSale), ("sale_price", .integerOrNull patch.salePrice),
    ("cost", .integerOrNull patch.cost),
    ("product_dimensions", .ofOption Dimensions.toJson patch.productDimensions),
    ("package_dimensions", .ofOption Dimensions.toJson patch.packageDimensions),
    ("available_on", .momentOrNull patch.availableOn)]

/-- The names of the fields of a patch. -/
def fieldNames : List String := empty.toFields.map (·.1)

/-- The form of a patch. -/
def toJson (patch : ProductPatch) : Json := .object patch.toFields

/-- A patch from its form, which may have no field but those of a patch. -/
def ofJson? : Json → Option ProductPatch :=
  Json.readFields fun fields => do
    guard (fields.all fun field => fieldNames.contains field.1)
    let name ← fields.optional "name" Json.asText?
    let subtitle ← fields.optional "subtitle" Json.asText?
    let description ← fields.optional "description" Json.asText?
    let upc ← fields.optional "upc" Json.asText?
    let manufacturer ← fields.optional "manufacturer" Json.asText?
    let brand ← fields.optional "brand" Json.asText?
    let quantity ← fields.optional "quantity" Json.asInt32?
    let quantityPerPackage ← fields.optional "quantity_per_package" Json.asInt32?
    let taxable ← fields.optional "taxable" Json.asBool?
    let price ← fields.optional "price" Json.asInt64?
    let onSale ← fields.optional "on_sale" Json.asBool?
    let salePrice ← fields.optional "sale_price" Json.asInt64?
    let cost ← fields.optional "cost" Json.asInt64?
    let productDimensions ← fields.optional "product_dimensions" Dimensions.ofJson?
    let packageDimensions ← fields.optional "package_dimensions" Dimensions.ofJson?
    let availableOn ← fields.optional "available_on" Json.asMoment?
    return {
      name, subtitle, description, upc, manufacturer, brand, quantity, quantityPerPackage,
      taxable, price, onSale, salePrice, cost, productDimensions, packageDimensions,
      availableOn }

end ProductPatch

/-- The form of a root to store. -/
def NewRoot.toJson (new : NewRoot) : Json :=
  .object [
    ("name", .text new.details.name), ("subtitle", .textOrNull new.details.subtitle),
    ("description", .text new.details.description), ("sku_prefix", .text new.skuPrefix),
    ("manufacturer", .textOrNull new.details.manufacturer), ("brand", .textOrNull new.details.brand),
    ("available_on", .momentOrNull new.availableOn), ("taxable", .bool new.details.taxable),
    ("cost", .integer new.details.cost),
    ("product_dimensions", new.details.productDimensions.toJson),
    ("package_dimensions", new.details.packageDimensions.toJson)]

/-- The form of a variant to store. -/
def NewProduct.toJson (new : NewProduct) : Json :=
  .object <|
    [("product_root_id", .ofId new.root), ("option_summary", .text new.optionSummary),
      ("sku", .text new.sku)] ++ new.details.toFields ++
    [("available_on", .momentOrNull new.availableOn)]

end VariantCatalog
