/-
# Which SKUs are committed

A variant has its SKU from the creation that made it, and keeps it.  The creation was
accepted when its client set out on it, so the prefix of the SKU is restricted.  The values
behind it are not: they may be any texts that are not blank.  So whether the whole SKU is
restricted depends on the values that the variant is made of (`sku_run`), and not every SKU
that is committed is (`slash_in_sku`).
-/

import VariantCatalog.Proofs.Interleaving.Provenance
import VariantCatalog.Proofs.Request.Spelling

namespace VariantCatalog

open Memory Operation

/-! ## Who makes variants -/

/-- Only a creation makes variants, and their SKUs are those that the request tells. -/
theorem Operation.Effect.exists_creation {operation : Operation} {origin : Tables}
    {result : operation.Result} {tx : Transaction} (h : Effect operation origin result tx)
    (hwrites : operation.isRead = false) {id : Id .product} {product : Product}
    (hcreated : (⟨.product, id, .created⟩ : Entry) ∈ tx.journal)
    (hrow : tx.working.find? id = some product) :
    ∃ creation, operation = .commit creation ∧ product.sku ∈ creation.skus := by
  cases operation with
  | commit creation =>
      obtain ⟨growth, _, hexpands, hinserts⟩ := h
      refine ⟨creation, rfl, ?_⟩
      obtain ⟨row, hmem, rfl⟩ := AnyRow.exists_of_mem_keys (hinserts.mem_journal.mp hcreated).2
      obtain ⟨variant, hvariant, rfl⟩ := Growth.product_mem_rows.mp hmem
      obtain rfl := Option.some.inj ((hinserts.find?_of_mem hmem).symm.trans hrow)
      rw [hexpands.skus_eq]
      exact List.mem_map.mpr ⟨variant, hvariant, rfl⟩
  | addOption root spec =>
      obtain ⟨_, _, hinserts⟩ := h
      obtain ⟨row, hmem, _⟩ := AnyRow.exists_of_mem_keys (hinserts.mem_journal.mp hcreated).2
      rcases List.mem_cons.mp hmem with heq | hvalue
      · cases heq
      · cases AnyRow.kind_of_mem_ofRows hvalue
  | addValue option text =>
      obtain ⟨_, _, hinserts⟩ := h
      obtain ⟨row, hmem, _⟩ := AnyRow.exists_of_mem_keys (hinserts.mem_journal.mp hcreated).2
      cases List.mem_singleton.mp hmem
  | archiveRoot _ | archiveVariant _ | archiveOption _ | archiveValue _ =>
      obtain ⟨_, _, hretires⟩ := h
      exact absurd hcreated hretires.settled.created
  | updateProduct _ _ | renameOption _ _ | updateValue _ _ =>
      obtain ⟨_, _, _, hrevises, _⟩ := h
      exact absurd hcreated (hrevises.settled nofun).created
  | rootGraph _ | productBySku _ | skuExists _ => cases hwrites

namespace Memory.System

/-- Who is about an operation has set out on it, and was not turned away. -/
theorem exists_enter {moves : List Move} {name : Nat} {origin : Tables} {operation : Operation}
    {progress : Progress operation}
    (hclient : (run moves).client name = some ⟨origin, .serving operation progress⟩)
    (hopen : progress.isEnded = false) :
    ∃ limit, .enter name limit operation ∈ moves ∧ operation.check limit = .ok () := by
  induction moves using List.reverseRecOn generalizing origin operation progress with
  | nil => cases hclient
  | append_singleton moves last ih =>
      rw [run_append] at hclient
      have hearlier : (∃ limit, .enter name limit operation ∈ moves ∧
          operation.check limit = .ok ()) →
            ∃ limit, .enter name limit operation ∈ moves ++ [last] ∧
              operation.check limit = .ok () :=
        fun ⟨limit, hmem, hcheck⟩ => ⟨limit, List.mem_append_left _ hmem, hcheck⟩
      cases arrives_move hclient with
      | stayed before => exact hearlier (ih before hopen)
      | @entered limit _ made =>
          refine ⟨limit, List.mem_append_right _ (made ▸ List.mem_cons_self),
            check_eq_ok_of_screen ?_⟩
          cases hscreen : operation.screen limit with
          | ok _ => rfl
          | error error =>
              rw [Progress.enter, hscreen] at hopen
              cases hopen
      | @advanced _ _ earlier _ before =>
          refine hearlier (ih before ?_)
          cases earlier with
          | ended outcome => exact hopen
          | _ => rfl

section Service

variable {moves : List Move} (hservice : ∀ move ∈ moves, move.isService)

include hservice

/-- Every variant was made by a creation that was accepted, and has one of its SKUs. -/
theorem exists_creation {id : Id .product} {product : Product}
    (h : (run moves).memory.committed.tables.find? id = some product) :
    ∃ name limit creation, .enter name limit (.commit creation) ∈ moves ∧
      creation.validate limit = .ok () ∧ product.sku ∈ creation.skus := by
  obtain ⟨done, name, origin, operation, result, tx, born, hdone, hmaking, hsucceeds⟩ :=
    exists_making hservice h
  obtain ⟨hwrites, heffect⟩ := keeps_run done hmaking.client
  obtain ⟨creation, rfl, hmem⟩ := heffect.exists_creation hwrites hmaking.created hmaking.found
  obtain ⟨limit, henter, hvalid⟩ := exists_enter hmaking.client rfl
  have hsku : product.sku = Product.sku born := hsucceeds.anchor.2.1
  exact ⟨name, limit, creation, hdone.subset (List.mem_append_left _ henter), hvalid, hsku ▸ hmem⟩

/-- **What a SKU is made of.** Whatever operations are carried out at once, every variant that
is committed has the SKU that an accepted creation told for some choice of values: the prefix,
or the prefix with the values in lower case behind it.  It is restricted just if each of these
values is made of restricted characters and Kelvin signs, and nothing makes sure of that. -/
theorem sku_run {id : Id .product} {product : Product}
    (h : (run moves).memory.committed.tables.find? id = some product) :
    ∃ name limit creation, .enter name limit (.commit creation) ∈ moves ∧
      creation.validate limit = .ok () ∧
      ∃ texts ∈ OptionSpec.choices creation.options, product.sku = creation.skuFor texts ∧
        (Sku.IsRestricted product.sku ↔
          ∀ text ∈ texts, ∀ c ∈ text.toList, Sku.IsSpellableChar c) := by
  obtain ⟨name, limit, creation, henter, hvalid, hmem⟩ := exists_creation hservice h
  obtain ⟨texts, htexts, hsku⟩ := Creation.mem_skus_iff.mp hmem
  refine ⟨name, limit, creation, henter, hvalid, texts, htexts, hsku, ?_⟩
  rw [hsku]
  exact Creation.isRestricted_skuFor_iff (Creation.wellFormed_of_validate hvalid).sku htexts

end Service

/-- A shirt of which one size does not go into a web address. -/
def slashedShirt : Creation := { shirt with options := [⟨"Size", ["S", "S/M"]⟩] }

def shirtSlashed : List Move :=
  .enter 0 none (.commit slashedShirt) :: List.replicate 14 (.advance 0)

theorem sku_run_shirtSlashed :
    (∀ move ∈ shirtSlashed, move.isService) ∧ ∃ product : Product,
      (run shirtSlashed).memory.committed.tables.find? (⟨1⟩ : Id .product) = some product ∧
        Sku.IsRestricted product.sku ∧
        ∃ name limit creation, .enter name limit (.commit creation) ∈ shirtSlashed ∧
          creation.validate limit = .ok () ∧
          ∃ texts ∈ OptionSpec.choices creation.options, product.sku = creation.skuFor texts ∧
            (Sku.IsRestricted product.sku ↔
              ∀ text ∈ texts, ∀ c ∈ text.toList, Sku.IsSpellableChar c) := by
  have hservice : ∀ move ∈ shirtSlashed, move.isService := by decide
  have hrun : ((run shirtSlashed).memory.committed.tables.find? (⟨1⟩ : Id .product)).map
      Product.sku = some "shirt_s" := by decide +kernel
  obtain ⟨product, hproduct, hsku⟩ := Option.map_eq_some_iff.mp hrun
  have hrestricted : Sku.IsRestricted product.sku := by
    rw [hsku]
    decide
  exact ⟨hservice, product, hproduct, hrestricted, sku_run hservice hproduct⟩

/-- The other size is accepted as well, and its variant has a slash in its SKU. -/
theorem slash_in_sku :
    (∀ move ∈ shirtSlashed, move.isService) ∧ ∃ product : Product,
      (run shirtSlashed).memory.committed.tables.find? (⟨2⟩ : Id .product) = some product ∧
        product.sku = "shirt_s/m" ∧ ¬ Sku.IsRestricted product.sku := by
  have hrun : ((run shirtSlashed).memory.committed.tables.find? (⟨2⟩ : Id .product)).map
      Product.sku = some "shirt_s/m" := by decide +kernel
  obtain ⟨product, hproduct, hsku⟩ := Option.map_eq_some_iff.mp hrun
  refine ⟨by decide, product, hproduct, hsku, ?_⟩
  rw [hsku]
  decide

end Memory.System

end VariantCatalog
