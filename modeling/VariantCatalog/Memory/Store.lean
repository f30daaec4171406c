/-
# The catalog in memory

Transactions in memory see a snapshot.  One begins with a copy of the committed
tables; when it commits, the rows in its journal are copied onto whatever is
committed by then, and their constraints are checked again.  A row that somebody
else has archived in between may not be written over, so archiving is final.
-/

import VariantCatalog.Memory.Session
import VariantCatalog.Store.Transaction

namespace VariantCatalog

open Memory

/-- What is committed: the tables, and every write that made them. -/
structure Committed where
  tables : Tables
  journal : List Entry

namespace Committed

/-- Reject an entry whose row was archived after the transaction began. A created
row cannot have been. -/
def checkFresh (committed : Committed) (entry : Entry) : Except StoreError Unit :=
  if entry.action ≠ .created && committed.tables.isArchived entry.id then
    .error (.rowNotFound
      (entry.kind.name ++ " " ++ entry.id.text ++ " was archived concurrently"))
  else .ok ()

/-- Reject an entry whose row does not fit among the tables. -/
def checkEntry (tables : Tables) (entry : Entry) : Except StoreError Unit :=
  match tables.find? entry.id with
  | none => .ok ()
  | some row => tables.check row

/-- The committed tables with the rows of a journal as a transaction left them. -/
def overlay (tables : Tables) (tx : Memory.Transaction) : Tables :=
  tx.journal.foldl (fun next entry => next.copyRow entry.id tx.working) tables

/-- Commit what a transaction wrote. -/
def merge (committed : Committed) (tx : Memory.Transaction) : Except StoreError Committed := do
  tx.journal.forM committed.checkFresh
  let tables := overlay committed.tables tx
  tx.journal.forM (checkEntry tables)
  return ⟨tables, committed.journal ++ tx.journal⟩

end Committed

/-- A catalog in memory: what is committed, and the registers that transactions
share. -/
structure Memory where
  committed : Committed
  registers : Registers

namespace Memory

/-- A catalog without rows. -/
def start : Memory := ⟨⟨.empty, []⟩, .start⟩

/-- Arm a fault. It replaces one that has not struck yet. -/
def arm (memory : Memory) (point : FaultPoint) : Memory :=
  { memory with registers := { memory.registers with fault := some point } }

/-- Begin a transaction on a copy of the committed tables. -/
def begin (memory : Memory) : Transaction := ⟨memory.committed.tables, []⟩

/-- Answer a call within a transaction. -/
def answer (call : Call) (tx : Transaction) (memory : Memory) :
    Except StoreError call.Reply × Transaction × Memory :=
  match (answerCall call).run.run ⟨memory.registers, tx⟩ with
  | (reply, session) =>
    (reply, session.transaction, { memory with registers := session.registers })

/-- The first half of a commit: a fault may strike. -/
def prepare (memory : Memory) : Except StoreError Unit × Memory :=
  match memory.registers.strike .commit with
  | (outcome, registers) => (outcome, { memory with registers })

/-- The second half of a commit: what the transaction wrote is merged. -/
def apply (memory : Memory) (tx : Transaction) : Except StoreError Unit × Memory :=
  match memory.committed.merge tx with
  | .error error => (.error error, memory)
  | .ok committed => (.ok (), { memory with committed })

/-- Commit a transaction. -/
def commit (tx : Transaction) (memory : Memory) : Except StoreError Unit × Memory :=
  match memory.prepare with
  | (.error error, memory) => (.error error, memory)
  | (.ok (), memory) => memory.apply tx

/-- The catalog in memory as a store. A transaction that is rolled back leaves
nothing behind. -/
def store : Store Memory Transaction where
  begin memory := (.ok memory.begin, memory)
  answer := answer
  commit := commit
  rollback _ memory := (.ok (), memory)

end Memory

end VariantCatalog
