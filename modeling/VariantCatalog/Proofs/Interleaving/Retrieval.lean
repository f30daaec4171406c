/-
# A creation can be read back

A creation hands back a graph that it has put together as it went: values were pushed to
their options, and each variant was given the values of its combination.  A reader puts it
together once more, from four tables, in the order of the numbers, and finds the values of
a variant through its bridges only.  Both come to the same graph (`commit_shows`): numbers
ascend in the order in which rows are created, and no row that was there before is below
one that is new.
-/

import VariantCatalog.Proofs.Interleaving.Integrity
import VariantCatalog.Proofs.Interleaving.Sequence
import VariantCatalog.Proofs.Operation.Availability
import VariantCatalog.Proofs.Operation.Reading

namespace VariantCatalog

open Memory Expansion

/-! ## Rows below new ones -/

namespace Committed.Gains

variable {before after : Committed} {rows : List AnyRow} {kind : EntityKind}

theorem find?_of_mem (h : before.Gains rows after) {row : kind.Row}
    (hmem : (⟨kind, row⟩ : AnyRow) ∈ rows) : after.tables.find? (Row.id row) = some row :=
  (h.found _ _).mpr (.inr ⟨hmem, rfl⟩)

/-- Below a new row there are only new ones. -/
theorem mem_of_parent (h : before.Gains rows after) (hintact : before.tables.Intact)
    {row : kind.Row} (hrow : after.tables.find? (Row.id row) = some row) {parent : RowKey}
    (hparent : parent ∈ Row.parents row) (hnew : parent ∈ rows.map AnyRow.key) :
    (⟨kind, row⟩ : AnyRow) ∈ rows := by
  rcases (h.found _ _).mp hrow with hold | ⟨hmem, _⟩
  · have hsome := hintact.referenced hold parent hparent
    obtain ⟨above, habove, heq⟩ := AnyRow.exists_of_mem_keys hnew
    rw [← heq, h.absent _ habove] at hsome
    cases hsome
  · exact hmem

/-- What was stored as new rows is told apart by their numbers. -/
theorem eq_of_id_eq (h : before.Gains rows after) {α : Type} {items : List α}
    {stored : α → kind.Row} (hitems : (AnyRow.ofRows kind (items.map stored)).Sublist rows)
    {first second : α} (hfirst : first ∈ items) (hsecond : second ∈ items)
    (hid : Row.id (stored first) = Row.id (stored second)) : first = second := by
  have hkeys := nodup_keys_of_ascending (h.ascending.sublist hitems)
  rw [AnyRow.ofRows, List.map_map, List.map_map] at hkeys
  exact List.inj_on_of_nodup_map hkeys hfirst hsecond (congrArg (RowKey.mk kind) hid)

/-- A reader that looks for the rows below a new one finds those that were created below
it, in the order of their creation. -/
theorem liveRows_eq (h : before.Gains rows after) (hintact : before.tables.Intact)
    {condition : kind.Row → Bool} {parent : RowKey} {created : List kind.Row}
    (hnew : parent ∈ rows.map AnyRow.key)
    (hbelow : ∀ row, condition row = true → parent ∈ Row.parents row)
    (hcreated : (AnyRow.ofRows kind created).Sublist rows)
    (hfits : ∀ row ∈ created, Row.isLive row ∧ condition row = true)
    (hall : ∀ row, (⟨kind, row⟩ : AnyRow) ∈ rows → condition row = true → row ∈ created) :
    (after.tables.table kind).liveRows condition = created := by
  have hascending := precedes_of_ascending h.ascending hcreated
  apply Table.eq_of_mem_iff (Table.ascending_liveRows _ _) hascending
  intro row
  rw [Table.mem_liveRows, Tables.mem_iff]
  constructor
  · rintro ⟨hrow, _, hcondition⟩
    exact hall row (h.mem_of_parent hintact hrow (hbelow row hcondition) hnew) hcondition
  · intro hrow
    exact ⟨h.find?_of_mem (hcreated.subset (AnyRow.mem_ofRows.mpr hrow)), hfits row hrow⟩

end Committed.Gains

/-- No two variants have one SKU, so it leads to the variant that has it. -/
theorem Tables.Intact.find?_sku {tables : Tables} (h : tables.Intact) {row : Product}
    (hrow : row ∈ tables.products.rows) :
    tables.products.rows.find? (·.sku = row.sku) = some row := by
  cases hfound : tables.products.rows.find? (·.sku = row.sku) with
  | none => exact absurd (decide_eq_true rfl) (List.find?_eq_none.mp hfound _ hrow)
  | some other =>
      have hother := List.mem_of_find?_eq_some hfound
      have hclash := List.find?_some hfound
      exact congrArg some (h.eq_of_clash .product hother hrow hclash)

/-! ## The rows of a creation -/

section Creation

variable {creation : Creation} {growth : Growth} {before after : Committed}

namespace Growth

theorem bridge_rows_sublist {variant : Variant} (hvariant : variant ∈ growth.variants) :
    (AnyRow.ofRows .bridge variant.bridges).Sublist growth.rows := by
  apply List.Sublist.trans _ (List.sublist_append_right _ _)
  apply List.Sublist.trans (List.sublist_cons_self _ _)
  exact List.sublist_flatten_of_mem (List.mem_map.mpr ⟨variant, hvariant, rfl⟩)

end Growth

/-- The values that the bridges of a variant lead to, in the order of the bridges. -/
theorem filterMap_of_joins {tables : Tables} {product : Id .product} {values : List OptionValue}
    {bridges : List VariantBridge} (h : Joins product (values.map (·.id)) bridges)
    (hvalues : ∀ value ∈ values, tables.find? value.id = some value) :
    bridges.filterMap (fun bridge => tables.values.find? bridge.value) = values := by
  induction values generalizing bridges with
  | nil =>
      rw [List.forall₂_nil_left_iff.mp h]
      rfl
  | cons value rest ih =>
      obtain ⟨hvalue, hrest⟩ := List.forall_mem_cons.mp hvalues
      rw [List.map_cons] at h
      obtain ⟨bridge, more, ⟨_, hid, _⟩, hjoins, rfl⟩ := List.forall₂_cons_left_iff.mp h
      have hfound : tables.values.find? bridge.value = some value := by
        rw [hid]
        exact hvalue
      rw [List.filterMap_cons, hfound, ih hjoins hrest]

namespace Creation.Expands

variable (h : creation.Expands growth) (hgains : before.Gains growth.rows after)
  (hintact : before.tables.Intact)

include h hgains

/-- A bridge that was created below a variant is one that was created with it. -/
theorem mem_bridges {variant : Variant} (hvariant : variant ∈ growth.variants)
    {bridge : VariantBridge} (hbridge : (⟨.bridge, bridge⟩ : AnyRow) ∈ growth.rows)
    (hparent : bridge.product = variant.product.id) : bridge ∈ variant.bridges := by
  obtain ⟨other, hother, hmem⟩ := Growth.bridge_mem_rows.mp hbridge
  obtain ⟨_, _, combination, _, hjoins, _⟩ := h.variant hother
  obtain ⟨_, _, hproduct, _⟩ := exists_of_forall₂ hjoins.flip hmem
  have hid := hproduct.symm.trans hparent
  rwa [hgains.eq_of_id_eq growth.product_rows_sublist hother hvariant hid] at hmem

include hintact

theorem withValues_eq {option : ProductOption} (hoption : option ∈ growth.options) :
    after.tables.withValues option.stored = option := by
  have hnew : (⟨.option, option.id⟩ : RowKey) ∈ growth.rows.map AnyRow.key :=
    List.mem_map.mpr ⟨_, Growth.option_mem_rows.mpr ⟨option, hoption, rfl⟩, rfl⟩
  have hvalues : after.tables.values.liveRows (·.option = option.id) = option.values := by
    refine @Committed.Gains.liveRows_eq _ _ _ .value hgains hintact _ _ option.values hnew ?_
      (Growth.value_rows_sublist hoption) ?_ ?_
    · intro value hparent
      rw [← of_decide_eq_true hparent]
      exact List.mem_cons_self
    · intro value hvalue
      obtain ⟨spec, hdescribes⟩ := h.option hoption
      obtain ⟨hparent, hlive⟩ := hdescribes.value hvalue
      exact ⟨hlive, decide_eq_true hparent⟩
    · intro value hvalue hparent
      obtain ⟨other, hother, hmem⟩ := Growth.value_mem_rows.mp hvalue
      obtain ⟨spec, hdescribes⟩ := h.option hother
      have hid := (hdescribes.value hmem).1.symm.trans (of_decide_eq_true hparent)
      rwa [hgains.eq_of_id_eq growth.option_rows_sublist hother hoption hid] at hmem
  exact congrArg (fun values => { option with values }) hvalues

theorem liveOptions_eq :
    after.tables.options.liveRows (·.root = growth.root.id) =
      growth.options.map ProductOption.stored := by
  have hnew : (⟨.root, growth.root.id⟩ : RowKey) ∈ growth.rows.map AnyRow.key :=
    List.mem_map.mpr ⟨_, List.mem_cons_self, rfl⟩
  refine @Committed.Gains.liveRows_eq _ _ _ .option hgains hintact _ _ _ hnew ?_
    growth.option_rows_sublist ?_ ?_
  · intro option hparent
    rw [← of_decide_eq_true hparent]
    exact List.mem_cons_self
  · intro row hrow
    obtain ⟨option, hoption, rfl⟩ := List.mem_map.mp hrow
    obtain ⟨spec, hdescribes⟩ := h.option hoption
    exact ⟨hdescribes.live, decide_eq_true hdescribes.parent⟩
  · intro row hrow _
    obtain ⟨option, hoption, rfl⟩ := Growth.option_mem_rows.mp hrow
    exact List.mem_map.mpr ⟨option, hoption, rfl⟩

theorem liveProducts_eq :
    after.tables.products.liveRows (·.root = growth.root.id) =
      growth.variants.map (·.product.stored) := by
  have hnew : (⟨.root, growth.root.id⟩ : RowKey) ∈ growth.rows.map AnyRow.key :=
    List.mem_map.mpr ⟨_, List.mem_cons_self, rfl⟩
  refine @Committed.Gains.liveRows_eq _ _ _ .product hgains hintact _ _ _ hnew ?_
    growth.product_rows_sublist ?_ ?_
  · intro product hparent
    rw [← of_decide_eq_true hparent]
    exact List.mem_cons_self
  · intro row hrow
    obtain ⟨variant, hvariant, rfl⟩ := List.mem_map.mp hrow
    obtain ⟨hparent, hlive, _⟩ := h.variant hvariant
    exact ⟨hlive, decide_eq_true hparent⟩
  · intro row hrow _
    obtain ⟨variant, hvariant, rfl⟩ := Growth.product_mem_rows.mp hrow
    exact List.mem_map.mpr ⟨variant, hvariant, rfl⟩

theorem liveBridges_eq {variant : Variant} (hvariant : variant ∈ growth.variants) :
    after.tables.bridges.liveRows (·.product = variant.product.id) = variant.bridges := by
  have hnew : (⟨.product, variant.product.id⟩ : RowKey) ∈ growth.rows.map AnyRow.key :=
    List.mem_map.mpr ⟨_, Growth.product_mem_rows.mpr ⟨variant, hvariant, rfl⟩, rfl⟩
  refine @Committed.Gains.liveRows_eq _ _ _ .bridge hgains hintact _ _ _ hnew ?_
    (Growth.bridge_rows_sublist hvariant) ?_ ?_
  · intro bridge hparent
    rw [← of_decide_eq_true hparent]
    exact List.mem_cons_self
  · intro bridge hbridge
    obtain ⟨_, _, combination, _, hjoins, _⟩ := h.variant hvariant
    obtain ⟨_, _, hproduct, _, hlive⟩ := exists_of_forall₂ hjoins.flip hbridge
    exact ⟨hlive, decide_eq_true hproduct⟩
  · intro bridge hbridge hparent
    exact h.mem_bridges hgains hvariant hbridge (of_decide_eq_true hparent)

theorem withOptionValues_eq {variant : Variant} (hvariant : variant ∈ growth.variants) :
    after.tables.withOptionValues variant.product.stored = variant.product := by
  obtain ⟨_, _, combination, hvalues, hjoins, hselected⟩ := h.variant hvariant
  have hids : combination.valueIds = combination.values.map (·.id) := by
    rw [Combination.valueIds, Combination.values, List.map_map]
    rfl
  rw [hids, ← hvalues] at hjoins
  have hread : (variant.bridges.filterMap fun bridge => after.tables.values.find? bridge.value) =
      variant.product.optionValues := by
    apply filterMap_of_joins hjoins
    rw [hvalues]
    intro value hvalue
    obtain ⟨selection, hselection, rfl⟩ := List.mem_map.mp hvalue
    obtain ⟨hoption, hmem⟩ := hselected selection hselection
    exact @Committed.Gains.find?_of_mem _ _ _ .value hgains _
      (Growth.value_mem_rows.mpr ⟨selection.option, hoption, hmem⟩)
  have hbridges : after.tables.bridges.liveRows (·.product = variant.product.stored.id) =
      variant.bridges := h.liveBridges_eq hgains hintact hvariant
  rw [Tables.withOptionValues, hbridges, hread]
  rfl

/-- The graph of a creation is what a reader puts together. -/
theorem graph?_eq : after.tables.graph? growth.root.id = some growth.graph := by
  have hroot : after.tables.live? growth.root.id = some growth.root :=
    Tables.live?_eq_some.mpr ⟨@Committed.Gains.find?_of_mem _ _ _ .root hgains _
      List.mem_cons_self, h.live⟩
  rw [Tables.graph?, hroot, h.liveOptions_eq hgains hintact, h.liveProducts_eq hgains hintact,
    Option.map_some, List.map_map, List.map_map, Growth.graph]
  congr 2
  · refine (List.map_congr_left ?_).trans (List.map_id _)
    exact fun option hoption => h.withValues_eq hgains hintact hoption
  · exact List.map_congr_left fun variant hvariant => h.withOptionValues_eq hgains hintact hvariant

/-- Each variant of it is found by its SKU. -/
theorem product?_eq (hafter : after.tables.Intact) {product : Product}
    (hproduct : product ∈ growth.graph.products) :
    after.tables.product? product.sku = some product := by
  obtain ⟨variant, hvariant, rfl⟩ := List.mem_map.mp hproduct
  have hrow : variant.product.stored ∈ after.tables.products.rows :=
    (@Tables.mem_iff _ .product _).mpr (hgains.find?_of_mem
      (Growth.product_mem_rows.mpr ⟨variant, hvariant, rfl⟩))
  have hfind : after.tables.products.rows.find? (·.sku = variant.product.sku) =
      some variant.product.stored := hafter.find?_sku hrow
  rw [Tables.product?, hfind, Option.map_some, h.withOptionValues_eq hgains hintact hvariant]
  exact Option.filter_some_pos (h.variant hvariant).2.1

end Creation.Expands

end Creation

namespace Memory

/-- A reader finds a graph just as it is: the whole of it by its root, and each variant by
its SKU. -/
def Shows (memory : Memory) (graph : RootGraph) : Prop :=
  ∀ limit, store.perform limit (.rootGraph graph.root.id) memory = (.ok graph, memory) ∧
    ∀ product ∈ graph.products,
      store.perform limit (.productBySku product.sku) memory = (.ok product, memory)

theorem shows_of_gains {creation : Creation} {growth : Growth} {before : Committed}
    {memory : Memory} (hexpands : creation.Expands growth)
    (hgains : before.Gains growth.rows memory.committed) (hbefore : before.tables.Intact)
    (hafter : memory.committed.tables.Intact) : memory.Shows growth.graph := by
  intro limit
  constructor
  · have hgraph : memory.committed.tables.graph? growth.graph.root.id = some growth.graph :=
      hexpands.graph?_eq hgains hbefore
    rw [perform_rootGraph, hgraph]
    rfl
  · intro product hproduct
    rw [perform_productBySku, hexpands.product?_eq hgains hbefore hafter hproduct]
    rfl

namespace System

/-- **What a creation hands back is what is read.** Whatever was done to the catalog before,
right after a creation has succeeded a reader finds the same graph, whether others were at
work between the steps of the creation or not. -/
theorem commit_shows (moves : List Move) (creation : Creation) (graph : RootGraph) :
    (∀ name, (run moves).grown? name = none →
        ((run moves).move (.advance name)).grown? name = some (creation, graph) →
          ((run moves).move (.advance name)).memory.Shows graph) ∧
      ∀ limit after, store.perform limit (.commit creation) (run moves).memory =
        (.ok graph, after) → after.Shows graph := by
  have hsteps : ∀ (moves : List Move) (name : Nat), (run moves).grown? name = none →
      ((run moves).move (.advance name)).grown? name = some (creation, graph) →
        ((run moves).move (.advance name)).memory.Shows graph := by
    intro moves name hopen hdone
    obtain ⟨origin, tx, committed, hclient, hmerge, rfl⟩ := merge_of_grown? hopen hdone
    obtain ⟨growth, rfl, hexpands, hinserts⟩ := (keeps_run moves hclient).2
    have hgains := hinserts.gains_merge ((orderly_run moves).fresh (draft_scene hclient rfl)) hmerge
    have hafter := (sound_run (moves ++ [.advance name])).intact
    rw [run_append] at hafter
    exact shows_of_gains hexpands hgains (sound_run moves).intact hafter
  refine ⟨hsteps moves, fun limit after h => ?_⟩
  obtain ⟨steps, _, hcompletes, hafter⟩ := exists_completes_of_perform 0 h
  rw [← hafter]
  apply hsteps
  · obtain ⟨progress, hopen, hclient⟩ := hcompletes.underWay
    rw [grown?, hclient]
    cases progress with
    | ended outcome => cases hopen
    | working tx rest => rfl
    | committing tx result => rfl
  · rw [grown?, hcompletes.succeeds]

/-- The shirt is read as it was handed back, whether it is created beside the hat or after it
in one go. -/
theorem commit_shows_shirt :
    (∃ graph : RootGraph, graph.products.map (fun product =>
        (product.sku, product.optionValues.map (·.value))) =
          [("shirt_s", ["S"]), ("shirt_m", ["M"])] ∧
        ((run shirtMoves).move (.advance 0)).memory.Shows graph) ∧
      ∃ graph after, store.perform none (.commit shirt) (run shirtMoves).memory =
        (.ok graph, after) ∧ after.Shows graph := by
  constructor
  · have hopen : (run shirtMoves).grown? 0 = none := by decide +kernel
    have hdone : (((run shirtMoves).move (.advance 0)).grown? 0).map (fun pair =>
        (pair.1, pair.2.products.map fun product =>
          (product.sku, product.optionValues.map (·.value)))) =
            some (shirt, [("shirt_s", ["S"]), ("shirt_m", ["M"])]) := by decide +kernel
    obtain ⟨⟨creation, graph⟩, hgraph, heq⟩ := Option.map_eq_some_iff.mp hdone
    obtain ⟨rfl, hproducts⟩ := Prod.mk.inj heq
    exact ⟨graph, hproducts, (commit_shows shirtMoves shirt graph).1 0 hopen hgraph⟩
  · have hdone : (store.perform none (.commit shirt)
        (run shirtMoves).memory).1.toOption.isSome := by decide +kernel
    generalize houtcome : store.perform none (.commit shirt) (run shirtMoves).memory = outcome
      at hdone
    obtain ⟨error | graph, after⟩ := outcome
    · cases hdone
    · exact ⟨graph, after, rfl, (commit_shows shirtMoves shirt graph).2 none after houtcome⟩

end System

end Memory

end VariantCatalog
