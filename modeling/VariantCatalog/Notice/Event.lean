/-
# Notices of committed changes

An event is a fact about a change that was committed, with the moment that the
change stamped on its row.  Subscribers receive it in an envelope that repeats
its type, its version and its moment.
-/

import VariantCatalog.Entity.Row

namespace VariantCatalog

open VariantCatalog.Calendar

/-- A committed change that others are told of. -/
inductive CatalogEvent where
  | rootCreated (root : Id .root) (skuPrefix : String) (skus : List String) (occurredAt : Moment)
  | rootArchived (root : Id .root) (occurredAt : Moment)
  | productArchived (product : Id .product) (occurredAt : Moment)
  | productUpdated (product : Id .product) (sku : String) (occurredAt : Moment)
  | optionArchived (option : Id .option) (occurredAt : Moment)
  deriving DecidableEq

namespace CatalogEvent

/-- The event of a new product, with the SKUs of its variants in the order of
their creation. -/
def ofGraph (graph : RootGraph) : CatalogEvent :=
  .rootCreated graph.root.id graph.root.skuPrefix (graph.products.map (·.sku))
    graph.root.lifecycle.createdOn

/-- The name of an event's type. -/
def typeName : CatalogEvent → String
  | .rootCreated .. => "catalog.product_root.created"
  | .rootArchived .. => "catalog.product_root.archived"
  | .productArchived .. => "catalog.product.archived"
  | .productUpdated .. => "catalog.product.updated"
  | .optionArchived .. => "catalog.product_option.archived"

/-- The version of the form in which events are written. -/
def version (_ : CatalogEvent) : Nat := 1

/-- The moment of the change. -/
def occurredAt : CatalogEvent → Moment
  | .rootCreated _ _ _ moment => moment
  | .rootArchived _ moment => moment
  | .productArchived _ moment => moment
  | .productUpdated _ _ moment => moment
  | .optionArchived _ moment => moment

end CatalogEvent

/-- An event as it is published. Each publication has an identifier that is drawn
at random, so no two are the same and none can be foreseen; the envelope keeps
what can be. -/
structure Envelope where
  typeName : String
  version : Nat
  occurredAt : Moment
  payload : CatalogEvent
  deriving DecidableEq

/-- The envelope of an event. -/
def Envelope.wrap (event : CatalogEvent) : Envelope :=
  ⟨event.typeName, event.version, event.occurredAt, event⟩

end VariantCatalog
