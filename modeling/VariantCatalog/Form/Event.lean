/-
# Events as JSON

An event is written as an object with a single field, which is named for the kind
of change and holds what there is to say of it.
-/

import VariantCatalog.Form.Row
import VariantCatalog.Notice.Event

namespace VariantCatalog

namespace CatalogEvent

/-- The form of an event. -/
def toJson : CatalogEvent → Json
  | rootCreated root skuPrefix skus moment =>
    .object [("ProductRootCreated", .object [
      ("product_root_id", .ofId root), ("sku_prefix", .text skuPrefix),
      ("skus", .ofList .text skus), ("occurred_at", .ofMoment moment)])]
  | rootArchived root moment =>
    .object [("ProductRootArchived", .object [
      ("product_root_id", .ofId root), ("occurred_at", .ofMoment moment)])]
  | productArchived product moment =>
    .object [("ProductArchived", .object [
      ("product_id", .ofId product), ("occurred_at", .ofMoment moment)])]
  | productUpdated product sku moment =>
    .object [("ProductUpdated", .object [
      ("product_id", .ofId product), ("sku", .text sku), ("occurred_at", .ofMoment moment)])]
  | optionArchived option moment =>
    .object [("ProductOptionArchived", .object [
      ("product_option_id", .ofId option), ("occurred_at", .ofMoment moment)])]

/-- The event of a kind from its fields. -/
def ofFields? (kind : String) (fields : Fields) : Option CatalogEvent :=
  match kind with
  | "ProductRootCreated" => do
    let root ← fields.required "product_root_id" Json.asId?
    let skuPrefix ← fields.required "sku_prefix" Json.asText?
    let skus ← fields.required "skus" (Json.asList? Json.asText?)
    return .rootCreated root skuPrefix skus (← fields.required "occurred_at" Json.asMoment?)
  | "ProductRootArchived" => do
    let root ← fields.required "product_root_id" Json.asId?
    return .rootArchived root (← fields.required "occurred_at" Json.asMoment?)
  | "ProductArchived" => do
    let product ← fields.required "product_id" Json.asId?
    return .productArchived product (← fields.required "occurred_at" Json.asMoment?)
  | "ProductUpdated" => do
    let product ← fields.required "product_id" Json.asId?
    let sku ← fields.required "sku" Json.asText?
    return .productUpdated product sku (← fields.required "occurred_at" Json.asMoment?)
  | "ProductOptionArchived" => do
    let option ← fields.required "product_option_id" Json.asId?
    return .optionArchived option (← fields.required "occurred_at" Json.asMoment?)
  | _ => none

/-- An event from its form, which has exactly one field. -/
def ofJson? : Json → Option CatalogEvent
  | .object [(kind, .object fields)] => ofFields? kind fields
  | _ => none

end CatalogEvent

/-- The form of an envelope. Its random identifier is not foreseen, so the form
says only what kind of identifier it is. -/
def Envelope.toJson (envelope : Envelope) : Json :=
  .object [
    ("event_id", .text "<uuid v7>"), ("event_type", .text envelope.typeName),
    ("event_version", .ofNat envelope.version), ("occurred_at", .ofMoment envelope.occurredAt),
    ("payload", envelope.payload.toJson)]

end VariantCatalog
