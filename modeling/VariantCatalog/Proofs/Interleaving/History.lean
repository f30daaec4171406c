/-
# What is committed is never taken back

Between two committed states of one run lie any number of merges, each of which
writes over rows as it found them in a snapshot of its own.  Still something has
become of every row of the earlier state: it keeps its number, the moment of its
creation and its anchor, and once it is archived it stays as it is.

A SKU and a prefix are part of the anchor of their row.  So one that was ever
committed is found by every snapshot that is taken from then on, and a transaction
that began before and would give it to a row of its own never gets through its
commit.
-/

import VariantCatalog.Proofs.Interleaving.Growth
import VariantCatalog.Proofs.Interleaving.Integrity

namespace VariantCatalog

open Memory

/-! ## Claims for good -/

/-- The text that a row claims for good: a prefix or a SKU is not free again when its
row is archived. -/
def Row.claim? : {kind : EntityKind} → kind.Row → Option String
  | .root, row => some (ProductRoot.skuPrefix row)
  | .option, _ => none
  | .value, _ => none
  | .product, row => some (Product.sku row)
  | .bridge, _ => none

theorem Row.SameAnchor.claim?_eq {kind : EntityKind} {old new : kind.Row}
    (h : SameAnchor old new) : claim? new = claim? old := by
  cases kind with
  | root =>
      have hprefix : ProductRoot.skuPrefix new = ProductRoot.skuPrefix old := h
      simp only [claim?, hprefix]
  | option => rfl
  | value => rfl
  | product =>
      have hsku : Product.sku new = Product.sku old := h.2.1
      simp only [claim?, hsku]
  | bridge => rfl

theorem Tables.clash_of_claim? {kind : EntityKind} {first second : kind.Row} {text : String}
    (hfirst : Row.claim? first = some text) (hsecond : Row.claim? second = some text) :
    clash first second = true := by
  cases kind with
  | root => exact decide_eq_true ((Option.some.inj hfirst).trans (Option.some.inj hsecond).symm)
  | option => cases hfirst
  | value => cases hfirst
  | product => exact decide_eq_true ((Option.some.inj hfirst).trans (Option.some.inj hsecond).symm)
  | bridge => cases hfirst

/-- The row of an identifier claims a text for good. -/
def Tables.Claims (tables : Tables) {kind : EntityKind} (id : Id kind) (text : String) : Prop :=
  ∃ row, tables.find? id = some row ∧ Row.claim? row = some text

namespace Tables.Claims

variable {tables later : Tables} {kind : EntityKind} {id other : Id kind} {text : String}

/-- What becomes of a row goes on claiming what the row did. -/
theorem of_becomes (h : tables.Claims id text) (hbecomes : tables.Becomes later) :
    later.Claims id text := by
  obtain ⟨row, hrow, hclaim⟩ := h
  obtain ⟨new, hnew, hsucceeds⟩ := hbecomes hrow
  exact ⟨new, hnew, hsucceeds.anchor.claim?_eq.trans hclaim⟩

/-- Two rows never claim the same text. -/
theorem unique (h : tables.Claims id text) (hintact : tables.Intact)
    (hother : tables.Claims other text) : other = id := by
  obtain ⟨row, hrow, hclaim⟩ := h
  obtain ⟨rival, hrival, hrivalClaim⟩ := hother
  rw [← id_of_find? hrow, ← id_of_find? hrival]
  exact congrArg Row.id (hintact.unrivalled hrival hrow (clash_of_claim? hrivalClaim hclaim))

theorem hasPrefix {id : Id .root} (h : tables.Claims id text) :
    answerQuery tables (.hasPrefix text) = true := by
  obtain ⟨row, hrow, hclaim⟩ := h
  refine List.any_eq_true.mpr ⟨row, Table.mem_of_find? hrow, ?_⟩
  exact decide_eq_true (Option.some.inj hclaim)

theorem hasSku {id : Id .product} (h : tables.Claims id text) :
    answerQuery tables (.hasSku text) = true := by
  obtain ⟨row, hrow, hclaim⟩ := h
  refine List.any_eq_true.mpr ⟨row, Table.mem_of_find? hrow, ?_⟩
  exact decide_eq_true (Option.some.inj hclaim)

end Tables.Claims

namespace Memory

/-! ## From event to event -/

/-- Something becomes of every committed row, whatever happens. -/
theorem Event.becomes {scene after : Scene} (h : Event scene after) (horderly : scene.Orderly) :
    scene.memory.committed.tables.Becomes after.memory.committed.tables := by
  cases h with
  | turn => exact Tables.becomes_refl _
  | begin => exact Tables.becomes_refl _
  | stroke => exact Tables.becomes_refl _
  | leave => exact Tables.becomes_refl _
  | merge name origin tx committed holds hmerge =>
      exact Committed.becomes_merge (horderly.becomes holds) (horderly.departs holds)
        (horderly.fresh holds) hmerge

theorem Events.becomes {scene after : Scene} (h : Events scene after)
    (horderly : scene.Orderly) :
    scene.memory.committed.tables.Becomes after.memory.committed.tables := by
  induction h with
  | refl => exact Tables.becomes_refl _
  | tail hevents hlast ih =>
      exact ih.trans (hlast.becomes (Events.preserves Event.orderly hevents horderly))

/-- A draft that has created a row with a text that is claimed already is not merged:
the claim would outlast the merge, and two rows would have the same text. -/
theorem Scene.apply_of_claims {scene : Scene} (hsound : scene.Sound) (horderly : scene.Orderly)
    {name : Nat} {draft : Draft} {kind : EntityKind} {id other : Id kind} {text : String}
    (holds : scene.draft name = some draft)
    (hclaims : scene.memory.committed.tables.Claims id text)
    (hcreated : (⟨kind, other, .created⟩ : Entry) ∈ draft.tx.journal)
    (hother : draft.tx.working.Claims other text) :
    ∃ error, scene.memory.apply draft.tx = (.error error, scene.memory) := by
  rw [Memory.apply]
  cases hmerge : scene.memory.committed.merge draft.tx with
  | error error => exact ⟨error, rfl⟩
  | ok after =>
      have hintact := Committed.intact_merge hsound.intact (hsound.drafts holds).bare hmerge
      have hlater := hclaims.of_becomes (Committed.becomes_merge (horderly.becomes holds)
        (horderly.departs holds) (horderly.fresh holds) hmerge)
      have hotherLater : after.tables.Claims other text := by
        obtain ⟨row, hrow, hclaim⟩ := hother
        obtain ⟨_, _, rfl⟩ := Committed.merge_eq_ok.mp hmerge
        exact ⟨row, Committed.find?_overlay_of_mem _ (Transaction.mem_keys.mpr ⟨_, hcreated⟩) hrow,
          hclaim⟩
      have hsame : other = id := hlater.unique hintact hotherLater
      -- But a created row is new.
      obtain ⟨row, hrow, _⟩ := hclaims
      have hnone := horderly.fresh holds hcreated
      rw [hsame, hrow] at hnone
      cases hnone

/-! ## From state to state -/

namespace System

theorem events_foldl (system : System) (moves : List Move) :
    Events system.scene (moves.foldl move system).scene := by
  induction moves generalizing system with
  | nil => exact Events.refl _
  | cons first rest ih => exact (system.events_move first).trans (ih _)

/-- A text is out of reach for good: the row of the identifier has it and no other row
does, and whoever would give it to a row of his own fails to commit. -/
structure Reserves (system : System) {kind : EntityKind} (id : Id kind) (text : String) :
    Prop where
  claims : system.memory.committed.tables.Claims id text
  unique {other : Id kind} : system.memory.committed.tables.Claims other text → other = id
  refused {name : Nat} {draft : Draft} {other : Id kind} :
    system.scene.draft name = some draft →
      (⟨kind, other, .created⟩ : Entry) ∈ draft.tx.journal → draft.tx.working.Claims other text →
        ∃ error, system.memory.apply draft.tx = (.error error, system.memory)

theorem reserves_run {moves : List Move} {kind : EntityKind} {id : Id kind} {text : String}
    (hclaims : (run moves).memory.committed.tables.Claims id text) :
    (run moves).Reserves id text where
  claims := hclaims
  unique hother := hclaims.unique (sound_run moves).intact hother
  refused holds hcreated hother :=
    Scene.apply_of_claims (sound_run moves) (orderly_run moves) holds hclaims hcreated hother

/-- **What is committed is never taken back.** Of two committed states of one run, no
row of the earlier one is missing from the later one; every row keeps its number, the
moment of its creation and its anchor; and what was archived is the same, field for
field. The SKUs and prefixes of the earlier state are found by every snapshot of the
later one, and reserved in it. -/
theorem becomes_run (moves more : List Move) :
    (run moves).memory.committed.tables.Becomes (run (moves ++ more)).memory.committed.tables ∧
      (∀ product ∈ (run moves).memory.committed.tables.products.rows,
        ((run (moves ++ more)).memory.answer (.query (.hasSku product.sku))
            (run (moves ++ more)).memory.begin).1 = .ok true ∧
          (run (moves ++ more)).Reserves product.id product.sku) ∧
      ∀ root ∈ (run moves).memory.committed.tables.roots.rows,
        ((run (moves ++ more)).memory.answer (.query (.hasPrefix root.skuPrefix))
            (run (moves ++ more)).memory.begin).1 = .ok true ∧
          (run (moves ++ more)).Reserves root.id root.skuPrefix := by
  have hbecomes : (run moves).memory.committed.tables.Becomes
      (run (moves ++ more)).memory.committed.tables := by
    have hevents := (run moves).events_foldl more
    rw [← run_append_all] at hevents
    exact hevents.becomes (orderly_run moves)
  refine ⟨hbecomes, fun product hproduct => ?_, fun root hroot => ?_⟩
  · have hclaims : (run moves).memory.committed.tables.Claims product.id product.sku :=
      ⟨product, Table.find?_of_mem hproduct, rfl⟩
    have hlater := hclaims.of_becomes hbecomes
    exact ⟨congrArg Except.ok hlater.hasSku, reserves_run hlater⟩
  · have hclaims : (run moves).memory.committed.tables.Claims root.id root.skuPrefix :=
      ⟨root, Table.find?_of_mem hroot, rfl⟩
    have hlater := hclaims.of_becomes hbecomes
    exact ⟨congrArg Except.ok hlater.hasPrefix, reserves_run hlater⟩

/-- Somebody gives a root of his own a variant with the SKU that the smaller size of the
shirt is going to have, and before he commits, the shirt is created. -/
def latecomer : List Move :=
  [.begin 1,
    .call 1 (.write (.createRoot { NewRoot.ofDraft shirt.product with skuPrefix := "hat" })),
    .call 1 (.write (.createProduct ⟨⟨1⟩, "", "shirt_s", shirt.product.details, none⟩)),
    .enter 0 none (.commit shirt)] ++ List.replicate 14 (.advance 0)

/-- Then the smaller size is archived. -/
def retirement : List Move :=
  .enter 2 none (.archiveVariant ⟨2⟩) :: List.replicate 6 (.advance 2)

theorem becomes_latecomer :
    (run (latecomer ++ retirement)).memory.committed.tables.products.rows.map Row.isLive =
        [false, true] ∧
      ((run (latecomer ++ retirement)).memory.answer (.query (.hasSku "shirt_s"))
        (run (latecomer ++ retirement)).memory.begin).1 = .ok true ∧
      ∃ draft error, (run (latecomer ++ retirement)).scene.draft 1 = some draft ∧
        (run (latecomer ++ retirement)).memory.apply draft.tx =
          (.error error, (run (latecomer ++ retirement)).memory) := by
  have hsome : ((run latecomer).memory.committed.tables.find? (⟨2⟩ : Id .product)).map
      (fun row => (row : Product).sku) = some "shirt_s" := by decide +kernel
  obtain ⟨product, hproduct, hsku⟩ := Option.map_eq_some_iff.mp hsome
  have hdraft : ((run (latecomer ++ retirement)).scene.draft 1).map (fun draft =>
      (draft.tx.journal, (draft.tx.working.find? (⟨1⟩ : Id .product)).bind Row.claim?)) =
        some ([⟨.root, ⟨1⟩, .created⟩, ⟨.product, ⟨1⟩, .created⟩], some "shirt_s") := by
    decide +kernel
  obtain ⟨draft, holds, heq⟩ := Option.map_eq_some_iff.mp hdraft
  obtain ⟨hjournal, hclaim⟩ := Prod.mk.inj heq
  have hcreated : (⟨.product, ⟨1⟩, .created⟩ : Entry) ∈ draft.tx.journal := by
    rw [hjournal]
    exact List.mem_cons_of_mem _ List.mem_cons_self
  obtain ⟨hanswer, hreserves⟩ :=
    (becomes_run latecomer retirement).2.1 product (Table.mem_of_find? hproduct)
  rw [hsku] at hanswer hreserves
  obtain ⟨error, herror⟩ :=
    hreserves.refused holds hcreated (Option.bind_eq_some_iff.mp hclaim)
  exact ⟨by decide +kernel, hanswer, draft, error, holds, herror⟩

end System

end Memory

end VariantCatalog
