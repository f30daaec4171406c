/-
# Operations side by side in memory

Operations that run side by side take turns.  In the first round each one takes
its snapshot and does all of its work up to the first half of its commit; in the
second round, those that have come so far commit one after the other.  So all of
them work on the same snapshot, and each commit meets what the ones before it have
committed.  The two rounds of one operation are the unit of work that it is by
itself (`finish_enter`).
-/

import VariantCatalog.Memory.Store
import VariantCatalog.Operation.Perform

namespace VariantCatalog.Memory

/-- How far an operation has come after the first round: it has ended, or it waits
for the second half of its commit. -/
inductive Stage (operation : Operation) where
  | ended (outcome : Except CatalogError operation.Result)
  | committing (tx : Transaction) (result : operation.Result)

/-- The first round of an operation that passed its screening. One that only reads
ends with it. -/
def work (operation : Operation) (memory : Memory) : Stage operation × Memory :=
  match Memory.store.run operation.body memory.begin memory with
  | (.error error, _, memory) => (.ended (.error error), memory)
  | (.ok result, tx, memory) =>
    if operation.isRead then (.ended (.ok result), memory)
    else
      match memory.prepare with
      | (.error error, memory) => (.ended (.error (.ofStore error)), memory)
      | (.ok (), memory) => (.committing tx result, memory)

/-- The first round of an operation. One that is malformed ends without a
snapshot. -/
def enter (limit : Option Nat) (operation : Operation) (memory : Memory) :
    Stage operation × Memory :=
  match operation.screen limit with
  | .error error => (.ended (.error error), memory)
  | .ok () => memory.work operation

/-- The second round of an operation. -/
def finish {operation : Operation} (stage : Stage operation) (memory : Memory) :
    Except CatalogError operation.Result × Memory :=
  match stage with
  | .ended outcome => (outcome, memory)
  | .committing tx result =>
    match memory.apply tx with
    | (.error error, memory) => (.error (.ofStore error), memory)
    | (.ok (), memory) => (.ok result, memory)

/-- The two rounds together are the unit of work that the operation is by itself. -/
theorem finish_work (operation : Operation) (memory : Memory) :
    finish (memory.work operation).1 (memory.work operation).2 =
      if operation.isRead then Memory.store.observe operation.body memory
      else Memory.store.transact operation.body memory := by
  unfold work Store.observe Store.transact
  simp only [store]
  generalize Store.run _ operation.body memory.begin memory = outcome
  obtain ⟨_ | result, tx, after⟩ := outcome
  · cases operation.isRead <;> rfl
  · cases operation.isRead
    · simp only [commit]
      obtain ⟨_ | _, prepared⟩ := after.prepare
      · rfl
      · simp only [finish, Bool.false_eq_true, if_false]
        obtain ⟨_ | _, applied⟩ := prepared.apply tx <;> rfl
    · rfl

/-- An operation that runs beside no other is carried out as it is by itself. -/
theorem finish_enter (limit : Option Nat) (operation : Operation) (memory : Memory) :
    finish (enter limit operation memory).1 (enter limit operation memory).2 =
      Memory.store.perform limit operation memory := by
  unfold enter Store.perform
  cases operation.screen limit with
  | error error => rfl
  | ok _ => exact finish_work operation memory

/-- An operation with how it ended. -/
structure Outcome where
  operation : Operation
  outcome : Except CatalogError operation.Result

/-- Run operations side by side. -/
def join (limit : Option Nat) (operations : List Operation) (memory : Memory) :
    List Outcome × Memory :=
  let firstRound (operation : Operation) : StateM Memory ((o : Operation) × Stage o) := do
    let stage ← modifyGet (enter limit operation)
    return ⟨operation, stage⟩
  let secondRound (waiting : (o : Operation) × Stage o) : StateM Memory Outcome := do
    let outcome ← modifyGet (finish waiting.2)
    return ⟨waiting.1, outcome⟩
  (operations.mapM firstRound >>= fun stages => stages.mapM secondRound).run memory

/-- The envelopes to publish after an operation has ended. -/
def Outcome.notices (outcome : Outcome) : List Envelope :=
  outcome.operation.notices outcome.outcome

end VariantCatalog.Memory
