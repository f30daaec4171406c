/-
# What a reader finds

The bodies that read ask for rows of one table after the other and put them together:
they have no graphs to look at, only tables.  All that they ask is answered from the
tables that they began on, so what they find can be written down without them
(`Tables.graph?` and `Tables.product?`).
-/

import VariantCatalog.Operation.Perform
import VariantCatalog.Proofs.Memory.Lookup

namespace VariantCatalog

open Memory

namespace Tables

/-- An option with its live values. -/
def withValues (tables : Tables) (option : ProductOption) : ProductOption :=
  { option with values := tables.values.liveRows (·.option = option.id) }

/-- A live root with its live options, their live values and its live variants. -/
def graph? (tables : Tables) (id : Id .root) : Option RootGraph :=
  (tables.live? id).map fun root =>
    { root
      options := (tables.options.liveRows (·.root = id)).map tables.withValues
      products := (tables.products.liveRows (·.root = id)).map tables.withOptionValues }

/-- The variant that has a SKU, with the values that it was made of, unless it is
archived. -/
def product? (tables : Tables) (sku : String) : Option Product :=
  ((tables.products.rows.find? (·.sku = sku)).map tables.withOptionValues).filter
    (·.lifecycle.isLive)

end Tables

namespace Memory

open Operation Program

variable {α : Type} {tx : Transaction} {memory : Memory}

/-- A question is answered from the tables that the transaction works on. -/
theorem run_ask (read : Query) (next : read.Reply → Program α) :
    store.run (ask read >>= next) tx memory =
      store.run (next (answerQuery tx.working read)) tx memory := rfl

theorem run_loadOptions (options : List ProductOption) (next : List ProductOption → Program α) :
    store.run (options.mapM loadOption >>= next) tx memory =
      store.run (next (options.map tx.working.withValues)) tx memory := by
  induction options generalizing next with
  | nil => rfl
  | cons option rest ih =>
      simp only [List.mapM_cons, loadOption, bind_assoc, pure_bind]
      exact ih _

theorem run_loadGraph (id : Id .root) :
    store.run (loadGraph id) tx memory =
      ((tx.working.graph? id).elim (.error (.absent id)) .ok, tx, memory) := by
  have hroot : ((tx.working.find? id).map (loaded tx.working)).filter Row.isLive =
      tx.working.live? id := by
    have hloaded : @loaded tx.working .root = fun root => root := rfl
    rw [hloaded, Option.map_id_fun']
    rfl
  rw [loadGraph, getLive, bind_assoc, run_ask, answerQuery, hroot, Tables.graph?]
  cases tx.working.live? id with
  | none => rfl
  | some root => exact run_loadOptions _ _

theorem run_loadProduct (sku : String) :
    store.run (loadProduct sku) tx memory =
      ((tx.working.product? sku).elim (.error (.absentSku sku)) .ok, tx, memory) := by
  rw [loadProduct, run_ask, answerQuery, Tables.product?]
  generalize Option.filter _ _ = found
  cases found <;> rfl

/-- A root is read from what is committed, and reading changes nothing. -/
theorem perform_rootGraph (limit : Option Nat) (id : Id .root) (memory : Memory) :
    store.perform limit (.rootGraph id) memory =
      ((memory.committed.tables.graph? id).elim (.error (.absent id)) .ok, memory) := by
  have hperform : store.perform limit (.rootGraph id) memory =
      ((store.run (loadGraph id) memory.begin memory).1,
        (store.run (loadGraph id) memory.begin memory).2.2) := rfl
  rw [hperform, run_loadGraph]
  rfl

/-- So is a variant by its SKU. -/
theorem perform_productBySku (limit : Option Nat) (sku : String) (memory : Memory) :
    store.perform limit (.productBySku sku) memory =
      ((memory.committed.tables.product? sku).elim (.error (.absentSku sku)) .ok, memory) := by
  have hperform : store.perform limit (.productBySku sku) memory =
      ((store.run (loadProduct sku) memory.begin memory).1,
        (store.run (loadProduct sku) memory.begin memory).2.2) := rfl
  rw [hperform, run_loadProduct]
  rfl

end Memory

end VariantCatalog
