/-
# Transactions over a store

A `Store` is whatever can begin, answer within, commit and roll back a
transaction; its state is passed along.  `Store.transact` runs a program as one
unit of work: it is committed if the program ends with a result, and rolled back
otherwise.  `Store.observe` runs a program that only reads, and always rolls back.

A failure while rolling back is not reported: the error that caused the rollback
is, and a transaction that is not committed leaves nothing behind in any store.
-/

import VariantCatalog.Store.Program

namespace VariantCatalog

/-- A store with states `σ`, whose open transactions are values of `τ`. -/
structure Store (σ τ : Type) where
  /-- Open a transaction. -/
  begin : σ → Except StoreError τ × σ
  /-- Answer a call within an open transaction. -/
  answer : (request : Call) → τ → σ → Except StoreError request.Reply × τ × σ
  /-- End a transaction and keep what it wrote. -/
  commit : τ → σ → Except StoreError Unit × σ
  /-- End a transaction and discard what it wrote. -/
  rollback : τ → σ → Except StoreError Unit × σ

namespace Store

variable {σ τ α : Type} (store : Store σ τ)

/-- Run a program within an open transaction, up to its result or to the first
call that fails. -/
def run : Program α → τ → σ → Except CatalogError α × τ × σ
  | .done result, tx, state => (.ok result, tx, state)
  | .refuse error, tx, state => (.error error, tx, state)
  | .call request next, tx, state =>
    match store.answer request tx state with
    | (.error error, tx, state) => (.error (.ofStore error), tx, state)
    | (.ok reply, tx, state) => run (next reply) tx state

/-- Run a program as one unit of work. -/
def transact (program : Program α) (state : σ) : Except CatalogError α × σ :=
  match store.begin state with
  | (.error error, state) => (.error (.ofStore error), state)
  | (.ok tx, state) =>
    match store.run program tx state with
    | (.error error, tx, state) => (.error error, (store.rollback tx state).2)
    | (.ok result, tx, state) =>
      match store.commit tx state with
      | (.error error, state) => (.error (.ofStore error), state)
      | (.ok (), state) => (.ok result, state)

/-- Run a program that only reads, in a transaction that is rolled back. -/
def observe (program : Program α) (state : σ) : Except CatalogError α × σ :=
  match store.begin state with
  | (.error error, state) => (.error (.ofStore error), state)
  | (.ok tx, state) =>
    match store.run program tx state with
    | (result, tx, state) => (result, (store.rollback tx state).2)

end Store

end VariantCatalog
