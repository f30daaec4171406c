/-
# The moment that an event tells

An event is made from what an operation hands back, and not from the tables.  Still it
tells what the transaction of the operation has written: the row that it names is in the
journal, and the moment that it tells is the one that was stamped on that row
(`secures_marks`).

Of an archive this is not known from what its transaction comes to, as a cascade does not
say when each of its rows was archived.  But the last thing that an archiving body does is
to archive its target, and what it hands back is the answer to that call.
-/

import VariantCatalog.Operation.Perform
import VariantCatalog.Proofs.Operation.Effect

namespace VariantCatalog

open Memory Calendar

/-- The moment that an action has stamped on a row. -/
def Memory.Action.stamp? : Action → Lifecycle → Option Moment
  | .created, lifecycle => some lifecycle.createdOn
  | .updated, lifecycle => lifecycle.updatedOn
  | .archived, lifecycle => lifecycle.archivedOn

/-- What an event tells of. -/
def CatalogEvent.entry : CatalogEvent → Entry
  | .rootCreated root _ _ _ => ⟨.root, root, .created⟩
  | .rootArchived root _ => ⟨.root, root, .archived⟩
  | .productArchived product _ => ⟨.product, product, .archived⟩
  | .productUpdated product _ _ => ⟨.product, product, .updated⟩
  | .optionArchived option _ => ⟨.option, option, .archived⟩

/-- What an event tells of has happened, and the row has the moment on it. -/
structure CatalogEvent.Marks (event : CatalogEvent) (journal : List Entry) (tables : Tables) :
    Prop where
  written : event.entry ∈ journal
  stamped : ∃ row, tables.find? event.entry.id = some row ∧
    event.entry.action.stamp? (Row.lifecycle row) = some event.occurredAt

namespace Operation

open Program

/-- The event of an operation tells what its transaction has written. -/
def Marks : Account := fun operation _ result tx =>
  ∀ event, operation.event result = some event → event.Marks tx.journal tx.working

variable {origin : Tables} {session : Session}

end Operation

end VariantCatalog
