/-
# Carrying out an operation

An operation that passes its screening is carried out in one transaction: one that
changes the catalog is committed or leaves nothing behind, and one that only reads
is always rolled back.  `Operation.event` is the event that others are told of once
the operation has succeeded.
-/

import VariantCatalog.Notice.Event
import VariantCatalog.Operation.Body
import VariantCatalog.Store.Transaction

namespace VariantCatalog

/-- Carry out an operation on a store. -/
def Store.perform {σ τ : Type} (store : Store σ τ) (limit : Option Nat) (operation : Operation)
    (state : σ) : Except CatalogError operation.Result × σ :=
  match operation.screen limit with
  | .error error => (.error error, state)
  | .ok () =>
    if operation.isRead then store.observe operation.body state
    else store.transact operation.body state

namespace Operation

/-- The event of an operation that succeeded. Additions, renamings and reads have
none, and neither has the end of a single value. -/
def event : (operation : Operation) → operation.Result → Option CatalogEvent
  | commit _, graph => some (.ofGraph graph)
  | archiveRoot id, moment => some (.rootArchived id moment)
  | archiveVariant id, moment => some (.productArchived id moment)
  | archiveOption id, moment => some (.optionArchived id moment)
  | updateProduct _ _, product =>
    product.lifecycle.updatedOn.map fun moment => .productUpdated product.id product.sku moment
  | addOption _ _, _ => none
  | addValue _ _, _ => none
  | archiveValue _, _ => none
  | renameOption _ _, _ => none
  | updateValue _ _, _ => none
  | rootGraph _, _ => none
  | productBySku _, _ => none
  | skuExists _, _ => none

/-- The envelopes to publish after an operation has ended. -/
def notices (operation : Operation) : Except CatalogError operation.Result → List Envelope
  | .error _ => []
  | .ok result => (operation.event result).toList.map .wrap

end Operation

end VariantCatalog
