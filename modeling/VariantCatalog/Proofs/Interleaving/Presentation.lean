/-
# All that is committed can be shown

As long as all clients carry out operations, every name and every text that is committed is
more than white space, every prefix can go into a web address, and every package holds
something, in archived rows as well as in live ones.

An operation works on a snapshot, and what it writes over may have changed meanwhile.  That
does no harm: the snapshot was committed once, so it can be shown, and so can whatever the
operation makes of it; and a merge leaves each row as the one side or the other has it.

A client that makes calls of its own can store what it likes.
-/

import VariantCatalog.Proofs.Interleaving.Lifespan
import VariantCatalog.Proofs.Operation.Presentation

namespace VariantCatalog

open Memory Text

/-- From tables that can be shown, an operation works out tables that can be shown. -/
def Operation.Shows : Account :=
  fun _ origin _ tx => origin.Presentable → tx.working.Presentable

namespace Memory.System

theorem shows_run (moves : List Move) : (run moves).Keeps Operation.Shows := by
  refine keeps_of_secures (fun done limit operation hscreen => ?_) moves
  by_cases horigin : (run done).memory.committed.tables.Presentable
  · have hbody := Operation.presents_body hscreen
      ⟨(run done).memory.registers, (run done).memory.begin⟩ horigin
    exact hbody.mono fun _ _ hafter _ => hafter
  · apply Program.Ensures.of_forall
    · exact fun _ _ hpresentable => absurd hpresentable horigin
    · exact fun _ => trivial

/-- What is committed can be shown, and so can whatever was committed when a client came. -/
structure Presents (system : System) : Prop where
  committed : system.memory.committed.tables.Presentable
  origins {name : Nat} {client : Client} : system.client name = some client →
    client.origin.Presentable

namespace Presents

theorem start : System.start.Presents where
  committed := Tables.presentable_empty
  origins hclient := nomatch hclient

/-- No step of an operation commits what could not be shown. -/
theorem move {moves : List Move} (h : (run moves).Presents) (move : Move)
    (hservice : move.isService) : ((run moves).move move).Presents where
  committed := by
    rcases (run moves).committed_service_cases hservice with
      hsame | ⟨name, origin, operation, tx, result, committed, _, hclient, hmerge, hmerged⟩
    · rw [hsame]
      exact h.committed
    · have hworking : tx.working.Presentable := (shows_run moves hclient).2 (h.origins hclient)
      obtain ⟨_, _, rfl⟩ := Committed.merge_eq_ok.mp hmerge
      rw [hmerged]
      exact Committed.presentable_overlay h.committed hworking
  origins hclient := by
    rcases origin_move hclient with horigin | ⟨before, hbefore, horigin⟩
    · rw [horigin]
      exact h.committed
    · rw [← horigin]
      exact h.origins hbefore

end Presents

/-- **All that is committed can be shown.** Whatever operations are carried out at once, in
whatever order their calls come, and whatever faults strike: each root that is committed has a
name and a prefix made of restricted characters, each option a name, each value a text, and
each variant a name and a package that holds at least one. -/
theorem presentable_run (moves : List Move) (hservice : ∀ move ∈ moves, move.isService) :
    (∀ root ∈ (run moves).memory.committed.tables.roots.rows,
      trim root.details.name ≠ "" ∧ Sku.IsRestricted root.skuPrefix) ∧
    (∀ option ∈ (run moves).memory.committed.tables.options.rows, trim option.name ≠ "") ∧
    (∀ value ∈ (run moves).memory.committed.tables.values.rows, trim value.value ≠ "") ∧
    ∀ product ∈ (run moves).memory.committed.tables.products.rows,
      trim product.details.name ≠ "" ∧ 1 ≤ product.details.quantityPerPackage := by
  have hpresents : (run moves).Presents :=
    run_preserves Presents.start (fun _ move hservice h => h.move move hservice) moves hservice
  have hrow : ∀ (kind : EntityKind) (row : kind.Row),
      row ∈ ((run moves).memory.committed.tables.table kind).rows → Row.IsPresentable row :=
    fun _ _ hmem => hpresents.committed (Tables.mem_iff.mp hmem)
  refine ⟨hrow .root, hrow .option, hrow .value, fun product hproduct => ?_⟩
  have hproduct := hrow .product product hproduct
  exact ⟨hproduct.name, hproduct.package⟩

/-- The shirt is created, though its draft packs none of it, and then all is done to it at once
that can change what is said of it: two edits of names, one of a text and of a package, a new
value and a new option. Two more, with a blank name and an empty package, come to nothing. -/
def shirtEdits : List Move :=
  .enter 0 none (.commit { shirt with
      product := { shirt.product with
        details := { shirt.product.details with quantityPerPackage := 0 } } }) ::
    List.replicate 15 (.advance 0) ++
    [.enter 1 none (.renameOption ⟨1⟩ "Fit"), .enter 2 none (.updateValue ⟨1⟩ "Slim"),
      .enter 3 none (.updateProduct ⟨1⟩
        { ProductPatch.empty with name := some "Slim Shirt", quantityPerPackage := some 3 }),
      .enter 4 none (.addValue ⟨1⟩ "L"), .enter 5 none (.addOption ⟨1⟩ ⟨"Color", ["Red"]⟩),
      .enter 6 none (.renameOption ⟨1⟩ " "),
      .enter 7 none (.updateProduct ⟨2⟩
        { ProductPatch.empty with quantityPerPackage := some 0 })] ++
    (List.replicate 8 ((List.range 8).map Move.advance)).flatten

theorem presentable_run_shirtEdits :
    (run shirtEdits).memory.committed.tables.options.rows.map (·.name) = ["Fit", "Color"] ∧
    (run shirtEdits).memory.committed.tables.values.rows.map (·.value) =
      ["Slim", "M", "L", "Red"] ∧
    (run shirtEdits).memory.committed.tables.products.rows.map
      (fun row => (row.details.name, row.details.quantityPerPackage)) =
        [("Slim Shirt", 3), ("Shirt", 1)] ∧
    (∀ root ∈ (run shirtEdits).memory.committed.tables.roots.rows,
      trim root.details.name ≠ "" ∧ Sku.IsRestricted root.skuPrefix) ∧
    ∀ product ∈ (run shirtEdits).memory.committed.tables.products.rows,
      trim product.details.name ≠ "" ∧ 1 ≤ product.details.quantityPerPackage := by
  have hservice : ∀ move ∈ shirtEdits, move.isService := by decide +kernel
  obtain ⟨hroots, _, _, hproducts⟩ := presentable_run shirtEdits hservice
  exact ⟨by decide +kernel, by decide +kernel, by decide +kernel, hroots, hproducts⟩

end Memory.System

end VariantCatalog
