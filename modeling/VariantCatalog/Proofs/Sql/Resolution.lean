/-
# The values of variants, from one batch

The values that some variants are made of are asked for in one batch, whose records belong to
the variants in any mixture.  Each record is handed to the first variant with its identifier;
where no identifier occurs twice, a variant is handed the records that carry its identifier,
in their order, and nothing else about it changes.

A store in memory takes the bridges of one variant after the other instead.  If the batch
lists the live bridges of all of them in their order, what is handed to a variant is what its
own bridges lead to, so both stores resolve the same values.
-/

import VariantCatalog.Proofs.Memory.Lookup
import VariantCatalog.Proofs.Sql.Bridging

namespace VariantCatalog

/-! ## Values behind those of a variant -/

/-- The variant with values behind those that it has. -/
def Product.withMore (product : Product) (values : List OptionValue) : Product :=
  { product with optionValues := product.optionValues ++ values }

theorem Product.withMore_nil (product : Product) : product.withMore [] = product := by
  rw [withMore, List.append_nil]

theorem Product.withMore_withMore (product : Product) (first second : List OptionValue) :
    (product.withMore first).withMore second = product.withMore (first ++ second) := by
  rw [withMore, withMore, withMore, List.append_assoc]

@[simp] theorem Product.id_withMore (product : Product) (values : List OptionValue) :
    (product.withMore values).id = product.id := rfl

namespace Sql

open Memory (run_bind)

/-! ## Handing values out -/

/-- The values that are listed with the identifier of a variant, in their order. -/
def valuesFor (bridged : List (Id .product × OptionValue)) (id : Id .product) :
    List OptionValue :=
  (bridged.filter (·.1 = id)).map (·.2)

theorem addValue_of_not_mem {id : Id .product} {value : OptionValue} {products : List Product}
    (h : id ∉ products.map (·.id)) : addValue id value products = products := by
  induction products with
  | nil => rfl
  | cons product rest ih =>
      rw [List.map_cons, List.mem_cons, not_or] at h
      rw [addValue, if_neg (Ne.symm h.1), ih h.2]

/-- One value goes to the variant with the identifier. -/
theorem addValue_eq {products : List Product} (hdistinct : (products.map (·.id)).Nodup)
    (id : Id .product) (value : OptionValue) :
    addValue id value products =
      products.map fun product => product.withMore (valuesFor [(id, value)] product.id) := by
  induction products with
  | nil => rfl
  | cons product rest ih =>
      obtain ⟨hfresh, hrest⟩ := List.nodup_cons.mp hdistinct
      rw [addValue, List.map_cons, ← ih hrest]
      by_cases hid : product.id = id
      · subst hid
        rw [if_pos rfl, addValue_of_not_mem hfresh]
        simp [valuesFor, Product.withMore]
      · have hnone : valuesFor [(id, value)] product.id = [] := by
          simp [valuesFor, Ne.symm hid]
        rw [if_neg hid, hnone, Product.withMore_nil]

/-- A batch goes to the variants by their identifiers: each is handed what carries its own. -/
theorem foldl_addValue (bridged : List (Id .product × OptionValue)) :
    ∀ {products : List Product}, (products.map (·.id)).Nodup →
      bridged.foldl (fun products pair => addValue pair.1 pair.2 products) products =
        products.map fun product => product.withMore (valuesFor bridged product.id) := by
  induction bridged with
  | nil =>
      intro products _
      simp [valuesFor, Product.withMore_nil]
  | cons pair rest ih =>
      intro products hdistinct
      have hsame : ((products.map fun product =>
          product.withMore (valuesFor [pair] product.id)).map (·.id)).Nodup := by
        rwa [List.map_map]
      have hsplit : ∀ id, valuesFor [pair] id ++ valuesFor rest id = valuesFor (pair :: rest) id := by
        intro id
        rw [valuesFor, valuesFor, valuesFor, ← List.map_append, ← List.filter_append,
          List.singleton_append]
      rw [List.foldl_cons, addValue_eq hdistinct, ih hsame, List.map_map]
      refine List.map_congr_left fun product _ => ?_
      rw [Function.comp_apply, Product.id_withMore, Product.withMore_withMore, hsplit]

/-! ## The exchange -/

variable {σ : Type}

/-- A reply whose records are pairs of a variant and a value. -/
def Reply.Pairs (reply : Reply) (bridged : List (Id .product × OptionValue)) : Prop :=
  ∃ records, reply.records? bridgedValuesStep = .ok records ∧
    List.Forall₂ (fun record pair => bridgedValue record = .ok pair) records bridged

theorem attachValues_eq {products : List Product} {records : List Record}
    {bridged : List (Id .product × OptionValue)} (hdistinct : (products.map (·.id)).Nodup)
    (h : List.Forall₂ (fun record pair => bridgedValue record = .ok pair) records bridged) :
    attachValues products records =
      .ok (products.map fun product => product.withMore (valuesFor bridged product.id)) := by
  rw [attachValues, mapM_eq_ok h, ← foldl_addValue bridged hdistinct]
  rfl

/-- Variants are asked for once, and a reply of pairs is handed out to them. -/
theorem run_withOptionValues {peer : Peer σ} {products : List Product} {state after : σ}
    {reply : Reply} {bridged : List (Id .product × OptionValue)} (hne : products ≠ [])
    (hdistinct : (products.map (·.id)).Nodup)
    (hreply : peer (.selectBridgedValues (products.map (·.id))) state = (reply, after))
    (hpairs : reply.Pairs bridged) :
    (withOptionValues peer products).run.run state =
      (.ok (products.map fun product => product.withMore (valuesFor bridged product.id)),
        after) := by
  obtain ⟨records, hrecords, hdecoded⟩ := hpairs
  have hempty : ¬ products.isEmpty := by simpa using hne
  rw [withOptionValues, if_neg hempty, run_bind, run_fetchAll hreply, hrecords]
  exact congrArg (·, after) (attachValues_eq hdistinct hdecoded)

end Sql

/-! ## Agreement with the tables -/

/-- Pairs that list the live bridges of some variants in the order of the bridges: each with
the variant and the value that it joins. A bridge that leads to no value is in no pair. -/
def Tables.ListsBridged (tables : Tables) (products : List Product)
    (bridged : List (Id .product × OptionValue)) : Prop :=
  ∃ bridges : List VariantBridge, Sql.Ascending bridges ∧
    (∀ bridge, bridge ∈ bridges ↔ bridge ∈ tables.bridges.rows ∧ bridge.lifecycle.isLive ∧
      bridge.product ∈ products.map (·.id)) ∧
    bridged = bridges.filterMap fun bridge =>
      (tables.values.find? bridge.value).map (bridge.product, ·)

namespace Tables

variable {tables : Tables} {products : List Product}
  {bridged : List (Id .product × OptionValue)}

/-- The pairs that carry the identifier of a variant lead to the values of its bridges. -/
theorem valuesFor_filterMap (tables : Tables) (bridges : List VariantBridge) (id : Id .product) :
    Sql.valuesFor (bridges.filterMap fun bridge =>
        (tables.values.find? bridge.value).map (bridge.product, ·)) id =
      (bridges.filter (·.product = id)).filterMap fun bridge =>
        tables.values.find? bridge.value := by
  induction bridges with
  | nil => rfl
  | cons bridge rest ih =>
      simp only [Sql.valuesFor] at ih ⊢
      cases hvalue : tables.values.find? bridge.value with
      | none =>
          by_cases hid : bridge.product = id <;> simp [hvalue, hid, ih]
      | some value =>
          by_cases hid : bridge.product = id <;> simp [hvalue, hid, ih]

/-- What is listed for a variant is what its own live bridges lead to. -/
theorem ListsBridged.valuesFor_eq (h : tables.ListsBridged products bridged) {product : Product}
    (hmem : product ∈ products) :
    Sql.valuesFor bridged product.id = (tables.withOptionValues product).optionValues := by
  obtain ⟨bridges, hascending, hmembers, rfl⟩ := h
  have hbridges : bridges =
      tables.bridges.liveRows fun bridge => bridge.product ∈ products.map (·.id) := by
    have hlive : (tables.bridges.liveRows fun bridge =>
        bridge.product ∈ products.map (·.id)).Pairwise fun first second : VariantBridge =>
          first.id.number < second.id.number := Table.ascending_liveRows tables.bridges _
    refine eq_of_ascending (fun bridge : VariantBridge => bridge.id.number) hascending hlive
      fun bridge => ?_
    rw [hmembers, Table.mem_liveRows, decide_eq_true_iff]
    rfl
  have hown : bridges.filter (·.product = product.id) =
      tables.bridges.liveRows (·.product = product.id) := by
    rw [hbridges, Table.liveRows, Table.liveRows, List.filter_filter]
    refine List.filter_congr fun bridge _ => ?_
    by_cases hid : bridge.product = product.id
    · have hasked : bridge.product ∈ products.map (·.id) :=
        List.mem_map.mpr ⟨product, hmem, hid.symm⟩
      simp [hid, hid ▸ hasked]
    · simp [hid]
  rw [valuesFor_filterMap, hown, withOptionValues]

end Tables

namespace Sql

/-- A variant that comes out of a record is not yet told its values. -/
theorem optionValues_of_row {record : Record} {product : Product}
    (h : Record.row record .product = .ok product) : product.optionValues = [] := by
  have hstep : ∀ {α : Type} {column : Except Failure α} {next : α → Except Failure Product},
      (∀ content, next content = .ok product → product.optionValues = []) →
      column >>= next = .ok product → product.optionValues = [] := by
    intro α column next hnext hbind
    obtain ⟨content, -, hrest⟩ := bind_eq_ok.mp hbind
    exact hnext content hrest
  have hproduct : record.product = .ok product := mapError_eq_ok.mp h
  revert hproduct
  rw [Record.product]
  repeat refine hstep fun _ => ?_
  intro hresult
  cases hresult
  rfl

/-- **Both stores resolve the same values.**  For no variants nothing is asked.  For others,
whose identifiers are distinct, one question is sent, and of any reply that can be read each
variant is handed the values that are listed with its identifier, in their order, nothing else
about any of them being changed; records of other variants are passed over.  If the reply lists
the live bridges of them all as they stand in some tables, what each is handed are the values
that a store with these tables shows with it.  A variant that comes out of a record has no
values before, so it ends up as that store shows it. -/
theorem withOptionValues_resolves (peer : Peer σ) {products : List Product}
    (hdistinct : (products.map (·.id)).Nodup) (state : σ) (sent : List Command) :
    (products = [] →
      (withOptionValues peer.logged products).run.run (state, sent) = (.ok [], state, sent)) ∧
    (products ≠ [] → ∃ command reply after,
      command = .selectBridgedValues (products.map (·.id)) ∧
      peer command state = (reply, after) ∧ ∀ bridged, reply.Pairs bridged →
        ∃ results, (withOptionValues peer.logged products).run.run (state, sent) =
            (.ok results, after, sent ++ [command]) ∧
          results = products.map (fun product =>
            product.withMore (valuesFor bridged product.id)) ∧
          ∀ tables : Tables, tables.ListsBridged products bridged →
            results = products.map (fun product =>
              product.withMore (tables.withOptionValues product).optionValues) ∧
            ((∀ product ∈ products, product.optionValues = []) →
              results = products.map tables.withOptionValues)) ∧
    ∀ record product, Record.row record .product = .ok product → product.optionValues = [] := by
  refine ⟨?_, fun hne => ?_, fun _ _ => optionValues_of_row⟩
  · rintro rfl
    rfl
  · rcases hpeer : peer (.selectBridgedValues (products.map (·.id))) state with ⟨reply, after⟩
    have hlogged : peer.logged (.selectBridgedValues (products.map (·.id))) (state, sent) =
        (reply, after, sent ++ [.selectBridgedValues (products.map (·.id))]) := by
      rw [Peer.logged, hpeer]
    refine ⟨_, reply, after, rfl, hpeer, fun bridged hpairs => ⟨_,
      run_withOptionValues hne hdistinct hlogged hpairs, rfl, fun tables hlists => ?_⟩⟩
    have hresults : (products.map fun product =>
        product.withMore (valuesFor bridged product.id)) = products.map fun product =>
          product.withMore (tables.withOptionValues product).optionValues :=
      List.map_congr_left fun product hmem => by rw [hlists.valuesFor_eq hmem]
    refine ⟨hresults, fun hbare => hresults.trans (List.map_congr_left fun product hmem => ?_)⟩
    rw [Product.withMore, hbare product hmem, List.nil_append]
    rfl

/-! ### Two cups -/

/-- A variant of the root 1 as it is stored. -/
def cup (number : Int) (sku : String) : Product where
  id := ⟨number⟩
  root := ⟨1⟩
  optionSummary := ""
  sku := sku
  details := ⟨"Cup", none, "", none, none, none, 0, 1, true, 900, false, none, 350, .zero, .zero⟩
  optionValues := []
  availableOn := .given ⟨1551443696, 0⟩
  lifecycle := .created (.given ⟨1551443696, 0⟩)

/-- A value of the option 2 as it is stored. -/
def glaze (number : Int) (value : String) : OptionValue where
  id := ⟨number⟩
  option := ⟨2⟩
  value := value
  lifecycle := .created (.given ⟨1551443696, 0⟩)

/-- The bridges of two cups, stored in a mixture; the last one is archived. -/
def cupBridges : List VariantBridge :=
  [⟨⟨11⟩, ⟨8⟩, ⟨5⟩, .created (.given ⟨1551443696, 0⟩)⟩,
    ⟨⟨12⟩, ⟨7⟩, ⟨5⟩, .created (.given ⟨1551443696, 0⟩)⟩,
    ⟨⟨13⟩, ⟨8⟩, ⟨3⟩, .created (.given ⟨1551443696, 0⟩)⟩,
    ⟨⟨14⟩, ⟨7⟩, ⟨3⟩, ⟨.given ⟨1551443696, 0⟩, none, some (.given ⟨1551443697, 0⟩)⟩⟩]

/-- Tables with two cups, their values and their bridges. -/
def cupTables : Tables where
  roots := .empty
  options := .empty
  values := ⟨[glaze 3 "matt", glaze 5 "blue"], by simp [Row.Precedes, Row.id, glaze]⟩
  products := ⟨[cup 7 "cup_a", cup 8 "cup_b"], by simp [Row.Precedes, Row.id, cup]⟩
  bridges := ⟨cupBridges, by simp [Row.Precedes, Row.id, cupBridges]⟩

/-- The record of a value with the variant that it is for. -/
def bridgedRecord (product : Int) (value : OptionValue) : Record :=
  [("product_id", .integer product), ("id", .integer value.id.number),
    ("product_option_id", .integer value.option.number), ("value", .text value.value)] ++
    value.lifecycle.contents

/-- A database that lists what the live bridges of the cups lead to. -/
def cupboard : Peer Unit := fun _ _ =>
  (.records [bridgedRecord 8 (glaze 5 "blue"), bridgedRecord 7 (glaze 5 "blue"),
    bridgedRecord 8 (glaze 3 "matt")], ())

/-- The values of two cups are handed out of one mixed batch, to the later cup first. -/
theorem withOptionValues_resolves_cups :
    ([cup 8 "cup_b", cup 7 "cup_a"].map (·.id)).Nodup ∧
    cupTables.ListsBridged [cup 8 "cup_b", cup 7 "cup_a"]
      [(⟨8⟩, glaze 5 "blue"), (⟨7⟩, glaze 5 "blue"), (⟨8⟩, glaze 3 "matt")] ∧
    ((withOptionValues cupboard.logged [cup 8 "cup_b", cup 7 "cup_a"]).run.run ((), [])).1 =
      .ok ([cup 8 "cup_b", cup 7 "cup_a"].map cupTables.withOptionValues) := by
  have hdistinct : ([cup 8 "cup_b", cup 7 "cup_a"].map (·.id)).Nodup := by decide
  have hlists : cupTables.ListsBridged [cup 8 "cup_b", cup 7 "cup_a"]
      [(⟨8⟩, glaze 5 "blue"), (⟨7⟩, glaze 5 "blue"), (⟨8⟩, glaze 3 "matt")] := by
    refine ⟨cupBridges.take 3, ?_, fun bridge => ?_, ?_⟩
    · simp [Ascending, cupBridges]
    · have hlive : ∀ bridge ∈ cupBridges.take 3, bridge ∈ cupBridges ∧ bridge.lifecycle.isLive ∧
          bridge.product ∈ [cup 8 "cup_b", cup 7 "cup_a"].map (·.id) := by decide
      have htaken : ∀ bridge ∈ cupBridges, bridge.lifecycle.isLive →
          bridge ∈ cupBridges.take 3 := by decide
      exact ⟨hlive bridge, fun h => htaken bridge h.1 h.2.1⟩
    · rfl
  have hpairs : Reply.Pairs (cupboard (.selectBridgedValues [⟨8⟩, ⟨7⟩]) ()).1
      [(⟨8⟩, glaze 5 "blue"), (⟨7⟩, glaze 5 "blue"), (⟨8⟩, glaze 3 "matt")] :=
    ⟨_, rfl, .cons rfl (.cons rfl (.cons rfl .nil))⟩
  obtain ⟨-, hsome, -⟩ := withOptionValues_resolves cupboard hdistinct () []
  obtain ⟨command, reply, after, rfl, hpeer, hreply⟩ := hsome (by decide)
  have hsame : reply = (cupboard (.selectBridgedValues [⟨8⟩, ⟨7⟩]) ()).1 :=
    (Prod.mk.inj hpeer).1.symm
  obtain ⟨results, hrun, -, hshown⟩ := hreply _ (hsame ▸ hpairs)
  have hbare : ∀ product ∈ [cup 8 "cup_b", cup 7 "cup_a"], product.optionValues = [] := by decide
  exact ⟨hdistinct, hlists, (congrArg Prod.fst hrun).trans
    (congrArg Except.ok ((hshown cupTables hlists).2 hbare))⟩

end Sql

end VariantCatalog
