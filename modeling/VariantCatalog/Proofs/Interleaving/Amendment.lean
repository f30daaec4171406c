/-
# An edit can be read back

An edit hands back a row that it has put together from two sources: what it read before it
wrote, and the fields that it was asked to change.  The store makes its own row of the same
request: it keeps some fields, strips off what is derived, and stamps the row.  A reader
derives the lists once more.  All three come to the same (`edits_show`), whatever was done
to the catalog before, as long as nobody else is at work at the same time; and no other row
is touched.
-/

import VariantCatalog.Proofs.Interleaving.Retrieval
import VariantCatalog.Proofs.Interleaving.Sequence

namespace VariantCatalog

open Memory Operation

/-! ## One row that is written over -/

/-- A live row of the committed tables has been written over, and nothing else has happened
to them; the journal tells of the row. -/
structure Committed.Edits (before : Committed) (kind : EntityKind) (old new : kind.Row)
    (after : Committed) : Prop where
  id : Row.id new = Row.id old
  live : before.tables.live? (Row.id old) = some old
  found : after.tables.find? (Row.id new) = some new
  others : ∀ {other : EntityKind} (id : Id other),
    (⟨kind, Row.id new⟩ : RowKey) ≠ ⟨other, id⟩ →
      after.tables.find? id = before.tables.find? id
  journal : after.journal = before.journal ++ [⟨kind, Row.id new, .updated⟩]

namespace Committed

variable {before after : Committed} {kind : EntityKind} {old new : kind.Row}

theorem edits_of_revises {tx : Transaction} (h : Revises before.tables kind old new tx)
    (hid : Row.id new = Row.id old) (hmerge : before.merge tx = .ok after) :
    before.Edits kind old new after := by
  obtain ⟨_, _, rfl⟩ := merge_eq_ok.mp hmerge
  obtain ⟨hlive, rfl⟩ := h
  refine ⟨hid, hlive, ?_, fun {other} id hkey => ?_, rfl⟩
  · exact find?_overlay_of_mem _ (Transaction.mem_keys_write.mpr (.inr rfl))
      (Transaction.find?_write_self _ new .updated)
  · have hkeys : (⟨other, id⟩ : RowKey) ∉
        ((⟨before.tables, []⟩ : Transaction).write new .updated).keys := by
      rw [Transaction.mem_keys_write]
      exact fun hmem => hmem.elim List.not_mem_nil hkey
    rw [find?_overlay, if_neg hkeys]

/-- An edit touches one table only. -/
theorem Edits.table_eq (h : before.Edits kind old new after) {other : EntityKind}
    (hkind : kind ≠ other) : after.tables.table other = before.tables.table other := by
  apply Table.ext_find?
  intro id
  exact h.others id fun hkey => hkind (congrArg RowKey.kind hkey)

end Committed

/-! ## Options with their values -/

section Rows

variable {before after : Committed}

/-- A reader finds an option that is new with the values that are new with it. -/
theorem Committed.Gains.withValues_eq {option : ProductOption} {root : Id .root}
    {spec : OptionSpec} (h : before.Gains option.rows after) (hintact : before.tables.Intact)
    (hdescribes : spec.Describes root option) :
    after.tables.withValues option.stored = option := by
  have hvalues : after.tables.values.liveRows (·.option = option.id) = option.values := by
    refine @Committed.Gains.liveRows_eq _ _ _ .value h hintact _ ⟨.option, option.id⟩
      option.values List.mem_cons_self ?_ (List.sublist_cons_self _ _) ?_ ?_
    · intro value hparent
      rw [← of_decide_eq_true hparent]
      exact List.mem_cons_self
    · intro value hvalue
      obtain ⟨hparent, hlive⟩ := hdescribes.value hvalue
      exact ⟨hlive, decide_eq_true hparent⟩
    · intro value hvalue _
      rcases List.mem_cons.mp hvalue with heq | hmem
      · cases heq
      · exact AnyRow.mem_ofRows.mp hmem
  exact congrArg (fun values => { option with values }) hvalues

end Rows

/-! ## What a reader finds -/

namespace Memory

variable {memory : Memory}

/-- A reader of its root finds an option with its values, and no other one under its number. -/
def ShowsOption (memory : Memory) (option : ProductOption) : Prop :=
  ∃ graph : RootGraph,
    (∀ limit, store.perform limit (.rootGraph option.root) memory = (.ok graph, memory)) ∧
    option ∈ graph.options ∧ ∀ other ∈ graph.options, other.id = option.id → other = option

/-- A reader of its root finds a value below its option, and no other one under its number. -/
def ShowsValue (memory : Memory) (value : OptionValue) : Prop :=
  ∃ (graph : RootGraph) (option : ProductOption), option.id = value.option ∧
    (∀ limit, store.perform limit (.rootGraph option.root) memory = (.ok graph, memory)) ∧
    option ∈ graph.options ∧ value ∈ option.values ∧
    ∀ other ∈ graph.optionValues, other.id = value.id → other = value

/-- A reader finds a variant by its SKU, with the values that it is made of. -/
def ShowsProduct (memory : Memory) (product : Product) : Prop :=
  ∀ limit, store.perform limit (.productBySku product.sku) memory = (.ok product, memory)

/-- The graph that a reader of a live root finds. -/
theorem exists_graph {id : Id .root} {root : ProductRoot}
    (hroot : memory.committed.tables.live? id = some root) :
    ∃ graph : RootGraph,
      (∀ limit, store.perform limit (.rootGraph id) memory = (.ok graph, memory)) ∧
      graph.options = (memory.committed.tables.options.liveRows (·.root = id)).map
        memory.committed.tables.withValues := by
  obtain ⟨graph, hgraph⟩ : ∃ graph, memory.committed.tables.graph? id = some graph :=
    ⟨_, by rw [Tables.graph?, hroot, Option.map_some]⟩
  refine ⟨graph, fun limit => by rw [perform_rootGraph, hgraph]; rfl, ?_⟩
  rw [Tables.graph?, hroot, Option.map_some] at hgraph
  rw [← Option.some.inj hgraph]

/-- A live row is the only one that is read under its number. -/
theorem eq_of_live? {tables : Tables} {kind : EntityKind} {condition : kind.Row → Bool}
    {row other : kind.Row} (hrow : tables.live? (Row.id row) = some row)
    (hother : other ∈ (tables.table kind).liveRows condition) (hid : Row.id other = Row.id row) :
    other = row := by
  have hlive := (Tables.mem_liveRows.mp hother).1
  rw [hid, hrow] at hlive
  exact (Option.some.inj hlive).symm

theorem showsOption {option : ProductOption} {root : ProductRoot}
    (hroot : memory.committed.tables.live? option.root = some root)
    (hrow : memory.committed.tables.live? option.id = some option.stored)
    (hvalues : memory.committed.tables.withValues option.stored = option) :
    memory.ShowsOption option := by
  obtain ⟨graph, hgraph, hoptions⟩ := exists_graph hroot
  have hread : option.stored ∈
      memory.committed.tables.options.liveRows (·.root = option.root) :=
    (@Tables.mem_liveRows _ .option _ _).mpr ⟨hrow, decide_eq_true rfl⟩
  refine ⟨graph, hgraph, ?_, fun other hother hid => ?_⟩
  · rw [hoptions, ← hvalues]
    exact List.mem_map_of_mem hread
  · rw [hoptions] at hother
    obtain ⟨row, hmem, rfl⟩ := List.mem_map.mp hother
    rw [@eq_of_live? _ .option _ option.stored row hrow hmem hid, hvalues]

theorem showsValue {value : OptionValue} {option : ProductOption} {root : ProductRoot}
    (hroot : memory.committed.tables.live? option.root = some root)
    (hoption : memory.committed.tables.live? value.option = some option)
    (hrow : memory.committed.tables.live? value.id = some value) :
    memory.ShowsValue value := by
  obtain ⟨graph, hgraph, hoptions⟩ := exists_graph hroot
  have hid : option.id = value.option := Tables.id_of_find? (Tables.live?_eq_some.mp hoption).1
  have hread : option ∈ memory.committed.tables.options.liveRows (·.root = option.root) := by
    rw [← hid] at hoption
    exact (@Tables.mem_liveRows _ .option _ _).mpr ⟨hoption, decide_eq_true rfl⟩
  refine ⟨graph, memory.committed.tables.withValues option, hid, hgraph, ?_, ?_,
    fun other hother hsame => ?_⟩
  · rw [hoptions]
    exact List.mem_map_of_mem hread
  · exact (@Tables.mem_liveRows _ .value _ _).mpr ⟨hrow, decide_eq_true hid.symm⟩
  · obtain ⟨above, habove, hmem⟩ := List.mem_flatMap.mp hother
    rw [hoptions] at habove
    obtain ⟨row, _, rfl⟩ := List.mem_map.mp habove
    exact @eq_of_live? _ .value _ value other hrow hmem hsame

theorem showsProduct {product : Product} (hintact : memory.committed.tables.Intact)
    (hrow : memory.committed.tables.live? product.id = some product.stored)
    (hvalues : memory.committed.tables.withOptionValues product.stored = product) :
    memory.ShowsProduct product := by
  obtain ⟨hfound, hlive⟩ := Tables.live?_eq_some.mp hrow
  have hmem : product.stored ∈ memory.committed.tables.products.rows :=
    (@Tables.mem_iff _ .product product.stored).mpr hfound
  have hfind : memory.committed.tables.products.rows.find? (·.sku = product.sku) =
      some product.stored := hintact.find?_sku hmem
  intro limit
  have hshown : product.lifecycle.isLive = true := hlive
  rw [perform_productBySku, Tables.product?, hfind, Option.map_some, hvalues,
    Option.filter_some, if_pos hshown]
  rfl

/-! ## One after the other -/

namespace System

theorem intact_sequel (errands : List Errand) : (sequel errands).committed.tables.Intact := by
  obtain ⟨moves, _, hmemory⟩ := exists_moves errands
  rw [← hmemory]
  exact (sound_run moves).intact

section Operations

variable {errands : List Errand} {limit : Option Nat} {after : Memory}

/-- An operation that succeeds after some errands has merged its effect, and leaves the
catalog intact and attached. -/
theorem settles_sequel {operation : Operation} {result : operation.Result}
    (hwrites : operation.isRead = false)
    (h : store.perform limit operation (sequel errands) = (.ok result, after)) :
    (∃ tx, Settles (sequel errands).committed operation result tx after.committed) ∧
      after.committed.tables.Intact ∧ after.committed.tables.Attached := by
  have hafter : sequel (errands ++ [.carry limit operation]) = after := by
    rw [sequel_append, follow, h]
  refine ⟨?_, hafter ▸ intact_sequel _, hafter ▸ attached_sequel _⟩
  obtain ⟨moves, _, hmemory⟩ := exists_moves errands
  rw [← hmemory] at h ⊢
  exact exists_settles hwrites h

/-- A live option that is stored as it stands is shown: its root is live. -/
theorem shows_liveOption {option : ProductOption} (hattached : after.committed.tables.Attached)
    (hfound : after.committed.tables.find? option.id = some option.stored)
    (hlive : option.lifecycle.isLive)
    (hvalues : after.committed.tables.withValues option.stored = option) :
    after.ShowsOption option := by
  have hrow : after.committed.tables.live? option.id = some option.stored :=
    Tables.live?_eq_some.mpr ⟨hfound, hlive⟩
  obtain ⟨root, hroot⟩ := (Tables.attached_iff.mp hattached).1 _ _ hrow
  exact showsOption hroot hrow hvalues

/-- A live value that is stored is shown: its option is live, and the root of this one. -/
theorem shows_liveValue {value : OptionValue} (hattached : after.committed.tables.Attached)
    (hfound : after.committed.tables.find? value.id = some value)
    (hlive : value.lifecycle.isLive) : after.ShowsValue value := by
  have hrow : after.committed.tables.live? value.id = some value :=
    Tables.live?_eq_some.mpr ⟨hfound, hlive⟩
  obtain ⟨option, hoption⟩ := (Tables.attached_iff.mp hattached).2 _ _ hrow
  obtain ⟨root, hroot⟩ := (Tables.attached_iff.mp hattached).1 _ _ hoption
  exact showsValue hroot hoption hrow

theorem addOption_shows {root : Id .root} {spec : OptionSpec} {option : ProductOption}
    (h : store.perform limit (.addOption root spec) (sequel errands) = (.ok option, after)) :
    spec.Describes root option ∧ (sequel errands).committed.Gains option.rows after.committed ∧
      after.ShowsOption option := by
  obtain ⟨⟨tx, hsettles⟩, _, hattached⟩ := settles_sequel rfl h
  obtain ⟨_, hdescribes, hinserts⟩ := hsettles.effect
  have hgains := hinserts.gains_merge hsettles.fresh hsettles.merged
  have hfound : after.committed.tables.find? option.id = some option.stored :=
    @Committed.Gains.find?_of_mem _ _ _ .option hgains _ List.mem_cons_self
  exact ⟨hdescribes, hgains, shows_liveOption hattached hfound hdescribes.live
    (hgains.withValues_eq (intact_sequel errands) hdescribes)⟩

theorem addValue_shows {option : Id .option} {text : String} {value : OptionValue}
    (h : store.perform limit (.addValue option text) (sequel errands) = (.ok value, after)) :
    OptionSpec.Lists option text value ∧
      (sequel errands).committed.Gains [⟨.value, value⟩] after.committed ∧
      after.ShowsValue value := by
  obtain ⟨⟨tx, hsettles⟩, _, hattached⟩ := settles_sequel rfl h
  obtain ⟨_, hlists, hinserts⟩ := hsettles.effect
  have hgains := hinserts.gains_merge hsettles.fresh hsettles.merged
  have hfound : after.committed.tables.find? value.id = some value :=
    @Committed.Gains.find?_of_mem _ _ _ .value hgains _ List.mem_cons_self
  exact ⟨hlists, hgains, shows_liveValue hattached hfound hlists.live⟩

theorem updateProduct_shows {id : Id .product} {patch : ProductPatch} {product : Product}
    (h : store.perform limit (.updateProduct id patch) (sequel errands) = (.ok product, after)) :
    ∃ old moment, old.id = id ∧ product.stored = patched patch old moment ∧
      (sequel errands).committed.Edits .product old product.stored after.committed ∧
      after.ShowsProduct product := by
  obtain ⟨⟨tx, hsettles⟩, hintact, _⟩ := settles_sequel rfl h
  obtain ⟨old, moment, hid, hrevises, rfl⟩ := hsettles.effect
  have hedits := Committed.edits_of_revises hrevises rfl hsettles.merged
  refine ⟨old, moment, hid, rfl, hedits, showsProduct hintact ?_ ?_⟩
  · exact Tables.live?_eq_some.mpr ⟨hedits.found, (Tables.live?_eq_some.mp hedits.live).2⟩
  · have hbridges : after.committed.tables.bridges = (sequel errands).committed.tables.bridges :=
      hedits.table_eq (by decide : EntityKind.product ≠ .bridge)
    have hvalues : after.committed.tables.values = (sequel errands).committed.tables.values :=
      hedits.table_eq (by decide : EntityKind.product ≠ .value)
    rw [Tables.withOptionValues, hbridges, hvalues]
    rfl

theorem renameOption_shows {id : Id .option} {name : String} {option : ProductOption}
    (h : store.perform limit (.renameOption id name) (sequel errands) = (.ok option, after)) :
    ∃ old moment, old.id = id ∧ option.stored = renamed name old moment ∧
      (sequel errands).committed.Edits .option old option.stored after.committed ∧
      after.ShowsOption option := by
  obtain ⟨⟨tx, hsettles⟩, _, hattached⟩ := settles_sequel rfl h
  obtain ⟨old, moment, rfl, hrevises, rfl⟩ := hsettles.effect
  have hedits := Committed.edits_of_revises hrevises rfl hsettles.merged
  obtain ⟨hold, hlive⟩ := Tables.live?_eq_some.mp hedits.live
  have hbare : old.values = [] := (intact_sequel errands).consistent.no_values old
    ((@Tables.mem_iff _ .option old).mpr hold)
  have hstored : renamed name old moment = (renamed name old moment).stored := by
    rw [ProductOption.stored, renamed, hbare]
  rw [hstored] at hedits
  refine ⟨old, moment, rfl, hstored.symm, hedits,
    shows_liveOption hattached hedits.found hlive ?_⟩
  have hvalues : after.committed.tables.values = (sequel errands).committed.tables.values :=
    hedits.table_eq (by decide : EntityKind.option ≠ .value)
  rw [Tables.withValues, hvalues]
  rfl

theorem updateValue_shows {id : Id .value} {text : String} {value : OptionValue}
    (h : store.perform limit (.updateValue id text) (sequel errands) = (.ok value, after)) :
    ∃ old moment, old.id = id ∧ value = reworded text old moment ∧
      (sequel errands).committed.Edits .value old value after.committed ∧
      after.ShowsValue value := by
  obtain ⟨⟨tx, hsettles⟩, _, hattached⟩ := settles_sequel rfl h
  obtain ⟨old, moment, hid, hrevises, rfl⟩ := hsettles.effect
  have hedits := Committed.edits_of_revises hrevises rfl hsettles.merged
  exact ⟨old, moment, hid, rfl, hedits, shows_liveValue hattached hedits.found
    (Tables.live?_eq_some.mp hedits.live).2⟩

end Operations

/-- **An edit can be read back.**  When operations are carried out one after the other, what
an edit hands back is what is read right after it: an option with its values, or a value, by
the root of it, and a variant with the values that it is made of by its SKU.  What it has
added is all that is new among the committed rows, what it has written over is all that has
changed, and the journal has grown by the entries of just these rows. -/
theorem edits_show (errands : List Errand) (limit : Option Nat) (after : Memory) :
    (∀ root spec option,
      store.perform limit (.addOption root spec) (sequel errands) = (.ok option, after) →
        spec.Describes root option ∧
        (sequel errands).committed.Gains option.rows after.committed ∧
        after.ShowsOption option) ∧
    (∀ id text value,
      store.perform limit (.addValue id text) (sequel errands) = (.ok value, after) →
        OptionSpec.Lists id text value ∧
        (sequel errands).committed.Gains [⟨.value, value⟩] after.committed ∧
        after.ShowsValue value) ∧
    (∀ id patch product,
      store.perform limit (.updateProduct id patch) (sequel errands) = (.ok product, after) →
        ∃ old moment, old.id = id ∧ product.stored = patched patch old moment ∧
          (sequel errands).committed.Edits .product old product.stored after.committed ∧
          after.ShowsProduct product) ∧
    (∀ id name option,
      store.perform limit (.renameOption id name) (sequel errands) = (.ok option, after) →
        ∃ old moment, old.id = id ∧ option.stored = renamed name old moment ∧
          (sequel errands).committed.Edits .option old option.stored after.committed ∧
          after.ShowsOption option) ∧
    ∀ id text value,
      store.perform limit (.updateValue id text) (sequel errands) = (.ok value, after) →
        ∃ old moment, old.id = id ∧ value = reworded text old moment ∧
          (sequel errands).committed.Edits .value old value after.committed ∧
          after.ShowsValue value :=
  ⟨fun _ _ _ h => addOption_shows h, fun _ _ _ h => addValue_shows h,
    fun _ _ _ h => updateProduct_shows h, fun _ _ _ h => renameOption_shows h,
    fun _ _ _ h => updateValue_shows h⟩

/-- The shirt is created. -/
def newShirt : List Errand := [.carry none (.commit shirt)]

/-- Each of the edits can be made on the shirt, and is read as it was handed back. -/
theorem edits_show_shirt :
    (∃ option after, store.perform none (.addOption ⟨1⟩ ⟨"Color", ["Red", "Navy"]⟩)
      (sequel newShirt) = (.ok option, after) ∧ after.ShowsOption option) ∧
    (∃ value after, store.perform none (.addValue ⟨1⟩ "L") (sequel newShirt) =
      (.ok value, after) ∧ after.ShowsValue value) ∧
    (∃ product after, store.perform none
      (.updateProduct ⟨1⟩ { ProductPatch.empty with subtitle := some "Linen" })
      (sequel newShirt) = (.ok product, after) ∧ after.ShowsProduct product) ∧
    (∃ option after, store.perform none (.renameOption ⟨1⟩ "Fit") (sequel newShirt) =
      (.ok option, after) ∧ after.ShowsOption option) ∧
    ∃ value after, store.perform none (.updateValue ⟨1⟩ "Small") (sequel newShirt) =
      (.ok value, after) ∧ after.ShowsValue value := by
  obtain ⟨option, hoption⟩ := @exists_ok_of_isSome none
    (.addOption ⟨1⟩ ⟨"Color", ["Red", "Navy"]⟩) (sequel newShirt) (by decide +kernel)
  obtain ⟨value, hvalue⟩ := @exists_ok_of_isSome none (.addValue ⟨1⟩ "L") (sequel newShirt)
    (by decide +kernel)
  obtain ⟨product, hproduct⟩ := @exists_ok_of_isSome none
    (.updateProduct ⟨1⟩ { ProductPatch.empty with subtitle := some "Linen" }) (sequel newShirt)
    (by decide +kernel)
  obtain ⟨fit, hfit⟩ := @exists_ok_of_isSome none (.renameOption ⟨1⟩ "Fit") (sequel newShirt)
    (by decide +kernel)
  obtain ⟨small, hsmall⟩ := @exists_ok_of_isSome none (.updateValue ⟨1⟩ "Small")
    (sequel newShirt) (by decide +kernel)
  obtain ⟨-, -, hoptionShown⟩ := (edits_show newShirt none _).1 _ _ _ hoption
  obtain ⟨-, -, hvalueShown⟩ := (edits_show newShirt none _).2.1 _ _ _ hvalue
  obtain ⟨_, _, -, -, -, hproductShown⟩ := (edits_show newShirt none _).2.2.1 _ _ _ hproduct
  obtain ⟨_, _, -, -, -, hfitShown⟩ := (edits_show newShirt none _).2.2.2.1 _ _ _ hfit
  obtain ⟨_, _, -, -, -, hsmallShown⟩ := (edits_show newShirt none _).2.2.2.2 _ _ _ hsmall
  exact ⟨⟨option, _, hoption, hoptionShown⟩, ⟨value, _, hvalue, hvalueShown⟩,
    ⟨product, _, hproduct, hproductShown⟩, ⟨fit, _, hfit, hfitShown⟩,
    ⟨small, _, hsmall, hsmallShown⟩⟩

end System

end Memory

end VariantCatalog
