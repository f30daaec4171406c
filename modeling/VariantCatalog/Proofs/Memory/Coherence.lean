/-
# Rows live and die together

A bridge hangs below its variant and its value, and a variant below its root: these
are the keepers of a row.  Tables are coherent when whatever is live has live
keepers, and when each bridge joins a variant to a value of the same root.

A merge brings together two tables that are both coherent, and could still go wrong:
one side archives a keeper while the other side, not knowing, leaves or adds a row
below it.  It does not go wrong as long as rows are created together with their
keepers.  Then whoever has a keeper in his snapshot has all that will ever hang
below it in his snapshot too (`Foreruns`), so whoever archives the keeper archives
all of it.
-/

import VariantCatalog.Proofs.Memory.Descent

namespace VariantCatalog

open Memory

/-! ## Keepers -/

/-- The rows without which a row must not live. -/
def Row.keepers : {kind : EntityKind} → kind.Row → List RowKey
  | .root, _ => []
  | .option, _ => []
  | .value, _ => []
  | .product, row => [⟨.root, Product.root row⟩]
  | .bridge, row => [⟨.product, VariantBridge.product row⟩, ⟨.value, VariantBridge.value row⟩]

/-- No edit but that of a bridge changes the keepers of a row. -/
theorem Row.keepers_eq {kind : EntityKind} {old new : kind.Row} (hanchor : Row.SameAnchor old new)
    (hlinks : Row.SameLinks old new) : Row.keepers new = Row.keepers old := by
  cases kind with
  | root => rfl
  | option => rfl
  | value => rfl
  | product =>
      have hroot : Product.root new = Product.root old := hanchor.1
      simp only [Row.keepers, hroot]
  | bridge =>
      have hproduct : VariantBridge.product new = VariantBridge.product old := hlinks.1
      have hvalue : VariantBridge.value new = VariantBridge.value old := hlinks.2
      simp only [Row.keepers, hproduct, hvalue]

theorem Row.SameLinks.of_common {kind : EntityKind} {old first second : kind.Row}
    (h : SameLinks old first) (hother : SameLinks old second) : SameLinks first second := by
  cases kind with
  | bridge => exact ⟨Eq.trans hother.1 (Eq.symm h.1), Eq.trans hother.2 (Eq.symm h.2)⟩
  | _ => trivial

namespace Tables

/-- A bridge joins a variant and a value of one root. -/
def JoinsOneRoot (tables : Tables) (bridge : VariantBridge) : Prop :=
  ∃ (product : Product) (value : OptionValue) (option : ProductOption),
    tables.find? bridge.product = some product ∧ tables.find? bridge.value = some value ∧
      tables.find? value.option = some option ∧ option.root = product.root

/-- Whatever is live has live keepers, and bridges stay within one root. -/
structure Coherent (tables : Tables) : Prop where
  live {kind : EntityKind} {id : Id kind} {row : kind.Row} : tables.live? id = some row →
    ∀ keeper ∈ Row.keepers row, (tables.live? keeper.id).isSome
  oneRoot {id : Id .bridge} {bridge : VariantBridge} : tables.find? id = some bridge →
    tables.JoinsOneRoot bridge

theorem coherent_empty : empty.Coherent where
  live hlive := by
    rw [live?_eq_some, find?_empty] at hlive
    cases hlive.1
  oneRoot hbridge := by
    rw [find?_empty] at hbridge
    cases hbridge

/-- Rows keep their keepers, and no new row hangs below an old keeper. -/
structure Foreruns (old new : Tables) : Prop where
  linked {kind : EntityKind} {id : Id kind} {row later : kind.Row} : old.find? id = some row →
    new.find? id = some later → Row.SameLinks row later
  complete {kind : EntityKind} {id : Id kind} {row : kind.Row} : new.find? id = some row →
    ∀ keeper ∈ Row.keepers row, (old.find? keeper.id).isSome → (old.find? id).isSome

theorem foreruns_refl (tables : Tables) : tables.Foreruns tables where
  linked hrow hlater := by
    rw [hrow] at hlater
    cases hlater
    exact Row.sameLinks_refl _
  complete hrow _ _ _ := Option.isSome_of_eq_some hrow

theorem keepers_eq_of_becomes {old new : Tables} {kind : EntityKind} {id : Id kind}
    {row later : kind.Row} (hbecomes : old.Becomes new) (hforeruns : old.Foreruns new)
    (hrow : old.find? id = some row) (hlater : new.find? id = some later) :
    Row.keepers later = Row.keepers row := by
  exact Row.keepers_eq (hbecomes.succeeds hrow hlater).anchor (hforeruns.linked hrow hlater)

theorem Foreruns.trans {first second third : Tables} (h : first.Foreruns second)
    (hbecomes : first.Becomes second) (hnext : second.Foreruns third)
    (hnextBecomes : second.Becomes third) : first.Foreruns third where
  linked hrow hlater := by
    obtain ⟨middle, hmiddle, _⟩ := hbecomes hrow
    exact (h.linked hrow hmiddle).trans (hnext.linked hmiddle hlater)
  complete {kind id row} hrow keeper hkeeper hsome := by
    have hmiddle := hnext.complete hrow keeper hkeeper (hbecomes.isSome hsome)
    obtain ⟨middle, hmiddle⟩ := Option.isSome_iff_exists.mp hmiddle
    rw [keepers_eq_of_becomes hnextBecomes hnext hmiddle hrow] at hkeeper
    exact h.complete hmiddle keeper hkeeper hsome

/-- A bridge that joins rows of one root goes on doing so. -/
theorem JoinsOneRoot.of_anchored {tables later : Tables} {bridge : VariantBridge}
    (h : tables.JoinsOneRoot bridge)
    (hanchored : ∀ {kind : EntityKind} {id : Id kind} {row : kind.Row},
      tables.find? id = some row → ∃ new, later.find? id = some new ∧ Row.SameAnchor row new) :
    later.JoinsOneRoot bridge := by
  obtain ⟨product, value, option, hproduct, hvalue, hoption, hroot⟩ := h
  obtain ⟨newProduct, hnewProduct, hproductRoot, _⟩ := hanchored hproduct
  obtain ⟨newValue, hnewValue, hvalueOption⟩ := hanchored hvalue
  obtain ⟨newOption, hnewOption, hoptionRoot⟩ := hanchored hoption
  have hnewRoot : newOption.root = newProduct.root :=
    (Eq.trans hoptionRoot hroot).trans (Eq.symm hproductRoot)
  have hsame : OptionValue.option newValue = value.option := hvalueOption
  refine ⟨newProduct, newValue, newOption, hnewProduct, hnewValue, ?_, hnewRoot⟩
  rw [hsame]
  exact hnewOption

end Tables

/-- A transaction that edits no bridge leaves every row joined to the same rows. -/
theorem Memory.Departs.sameLinks {origin : Tables} {tx : Transaction} (h : Departs origin tx)
    (hbridges : ∀ {id : Id .bridge}, (⟨.bridge, id, .updated⟩ : Entry) ∉ tx.journal)
    {kind : EntityKind} {id : Id kind} {old new : kind.Row} (hold : origin.find? id = some old)
    (hnew : tx.working.find? id = some new) : Row.SameLinks old new := by
  cases kind with
  | bridge => exact h.linked hbridges hold hnew
  | _ => trivial

/-! ## Merges -/

/-- A transaction that creates rows together with their keepers, and leaves bridges
where they are. -/
structure Memory.Transaction.Rooted (tx : Transaction) : Prop where
  keepers {kind : EntityKind} {id : Id kind} {row : kind.Row} :
    (⟨kind, id, .created⟩ : Entry) ∈ tx.journal → tx.working.find? id = some row →
      ∀ keeper ∈ Row.keepers row, (⟨keeper.kind, keeper.id, .created⟩ : Entry) ∈ tx.journal
  bridges {id : Id .bridge} : (⟨.bridge, id, .updated⟩ : Entry) ∉ tx.journal

/-- What two sides bring to a merge that succeeds. -/
structure Meets (origin : Tables) (committed : Committed) (tx : Transaction) (after : Committed) :
    Prop where
  becomes : origin.Becomes committed.tables
  foreruns : origin.Foreruns committed.tables
  departs : Departs origin tx
  rooted : tx.Rooted
  fresh {kind : EntityKind} {id : Id kind} :
    (⟨kind, id, .created⟩ : Entry) ∈ tx.journal → committed.tables.find? id = none
  merged : committed.merge tx = .ok after

namespace Meets

variable {origin : Tables} {committed after : Committed} {tx : Transaction}

theorem find?_of_mem (h : Meets origin committed tx after) {kind : EntityKind} {id : Id kind}
    (hkey : (⟨kind, id⟩ : RowKey) ∈ tx.keys) :
    after.tables.find? id = tx.working.find? id := by
  obtain ⟨_, _, rfl⟩ := Committed.merge_eq_ok.mp h.merged
  obtain ⟨row, hrow⟩ := Option.isSome_iff_exists.mp (h.departs.present hkey)
  rw [Committed.find?_overlay, if_pos hkey, hrow]
  rfl

theorem find?_of_not_mem (h : Meets origin committed tx after) {kind : EntityKind} {id : Id kind}
    (hkey : (⟨kind, id⟩ : RowKey) ∉ tx.keys) :
    after.tables.find? id = committed.tables.find? id := by
  obtain ⟨_, _, rfl⟩ := Committed.merge_eq_ok.mp h.merged
  rw [Committed.find?_overlay, if_neg hkey]

theorem becomes_after (h : Meets origin committed tx after) :
    committed.tables.Becomes after.tables :=
  Committed.becomes_merge h.becomes h.departs h.fresh h.merged

/-- A row that was not committed was created, and is as the transaction left it. -/
theorem find?_of_new (h : Meets origin committed tx after) {kind : EntityKind} {id : Id kind}
    {row : kind.Row} (hnew : committed.tables.find? id = none)
    (hrow : after.tables.find? id = some row) :
    (⟨kind, id, .created⟩ : Entry) ∈ tx.journal ∧ tx.working.find? id = some row := by
  have hcreated := Committed.created_of_merge h.becomes h.departs h.merged hnew
    (Option.isSome_of_eq_some hrow)
  have hkey : (⟨kind, id⟩ : RowKey) ∈ tx.keys := Transaction.mem_keys.mpr ⟨_, hcreated⟩
  exact ⟨hcreated, (h.find?_of_mem hkey).symm.trans hrow⟩

/-- A row that was created is there afterwards. -/
theorem find?_of_created (h : Meets origin committed tx after) {kind : EntityKind} {id : Id kind}
    (hcreated : (⟨kind, id, .created⟩ : Entry) ∈ tx.journal) :
    after.tables.find? id = tx.working.find? id :=
  h.find?_of_mem (Transaction.mem_keys.mpr ⟨_, hcreated⟩)

theorem linked_after (h : Meets origin committed tx after) {kind : EntityKind} {id : Id kind}
    {row later : kind.Row} (hrow : committed.tables.find? id = some row)
    (hlater : after.tables.find? id = some later) : Row.SameLinks row later := by
  by_cases hkey : (⟨kind, id⟩ : RowKey) ∈ tx.keys
  · have hcreated : (⟨kind, id, .created⟩ : Entry) ∉ tx.journal := by
      intro hcreated
      rw [h.fresh hcreated] at hrow
      cases hrow
    obtain ⟨old, hold⟩ := Option.isSome_iff_exists.mp
      ((h.departs.created_or_origin hkey).resolve_left hcreated)
    rw [h.find?_of_mem hkey] at hlater
    have hmine := h.departs.sameLinks h.rooted.bridges hold hlater
    exact (h.foreruns.linked hold hrow).of_common hmine
  · rw [h.find?_of_not_mem hkey, hrow] at hlater
    cases hlater
    exact Row.sameLinks_refl row

/-- What was committed foreruns what is committed now. -/
theorem foreruns_after (h : Meets origin committed tx after) :
    committed.tables.Foreruns after.tables where
  linked hrow hlater := h.linked_after hrow hlater
  complete {kind id row} hrow keeper hkeeper hsome := by
    cases hold : committed.tables.find? id with
    | some old => rfl
    | none =>
        -- A new row has new keepers.
        obtain ⟨hcreated, hworking⟩ := h.find?_of_new hold hrow
        rw [h.fresh (h.rooted.keepers hcreated hworking keeper hkeeper)] at hsome
        cases hsome

theorem anchored_after (h : Meets origin committed tx after) {kind : EntityKind} {id : Id kind}
    {row : kind.Row} (hrow : tx.working.find? id = some row) :
    ∃ new, after.tables.find? id = some new ∧ Row.SameAnchor row new := by
  by_cases hkey : (⟨kind, id⟩ : RowKey) ∈ tx.keys
  · exact ⟨row, (h.find?_of_mem hkey).trans hrow, Row.sameAnchor_refl row⟩
  · rw [h.departs.untouched hkey] at hrow
    obtain ⟨later, hlater, hsucceeds⟩ := h.becomes hrow
    exact ⟨later, (h.find?_of_not_mem hkey).trans hlater, hsucceeds.anchor⟩

/-- What is live afterwards and was in the snapshot is live in the transaction. -/
theorem live?_working (h : Meets origin committed tx after) {kind : EntityKind} {id : Id kind}
    {row : kind.Row} (horigin : (origin.find? id).isSome)
    (hlive : after.tables.live? id = some row) : ∃ mine, tx.working.live? id = some mine := by
  obtain ⟨hrow, hisLive⟩ := Tables.live?_eq_some.mp hlive
  by_cases hkey : (⟨kind, id⟩ : RowKey) ∈ tx.keys
  · rw [h.find?_of_mem hkey] at hrow
    exact ⟨row, Tables.live?_eq_some.mpr ⟨hrow, hisLive⟩⟩
  · rw [h.find?_of_not_mem hkey] at hrow
    obtain ⟨old, hold⟩ := Option.isSome_iff_exists.mp horigin
    have hsucceeds := h.becomes.succeeds hold hrow
    refine ⟨old, Tables.live?_eq_some.mpr ⟨?_, hsucceeds.isLive_of_isLive hisLive⟩⟩
    rw [h.departs.untouched hkey]
    exact hold

/-- What is live afterwards and was committed before was live. -/
theorem live?_committed (h : Meets origin committed tx after) {kind : EntityKind} {id : Id kind}
    {row old : kind.Row} (hold : committed.tables.find? id = some old)
    (hlive : after.tables.live? id = some row) : committed.tables.live? id = some old :=
  h.becomes_after.live?_eq_some hold (Option.isSome_of_eq_some hlive)

/-- What was live is live afterwards, unless the transaction had it in its snapshot
and archived it. -/
theorem live?_after (h : Meets origin committed tx after) {kind : EntityKind} {id : Id kind}
    (hlive : (committed.tables.live? id).isSome)
    (hmine : (origin.find? id).isSome → (tx.working.live? id).isSome) :
    (after.tables.live? id).isSome := by
  obtain ⟨old, hold⟩ := Option.isSome_iff_exists.mp hlive
  obtain ⟨hfound, hisLive⟩ := Tables.live?_eq_some.mp hold
  by_cases hkey : (⟨kind, id⟩ : RowKey) ∈ tx.keys
  · have horigin : (origin.find? id).isSome := by
      refine (h.departs.created_or_origin hkey).resolve_left fun hcreated => ?_
      rw [h.fresh hcreated] at hfound
      cases hfound
    obtain ⟨mine, hmine⟩ := Option.isSome_iff_exists.mp (hmine horigin)
    obtain ⟨hmineFound, hmineLive⟩ := Tables.live?_eq_some.mp hmine
    exact Tables.isSome_live? ((h.find?_of_mem hkey).trans hmineFound) hmineLive
  · exact Tables.isSome_live? ((h.find?_of_not_mem hkey).trans hfound) hisLive

/-- A new row came with its keepers, and they are as the transaction left them. -/
theorem keepers_of_new (h : Meets origin committed tx after) (hworking : tx.working.Coherent)
    {kind : EntityKind} {id : Id kind} {row : kind.Row} (hnew : committed.tables.find? id = none)
    (hlive : after.tables.live? id = some row) :
    ∀ keeper ∈ Row.keepers row, (after.tables.live? keeper.id).isSome := by
  intro keeper hkeeper
  obtain ⟨hrow, hisLive⟩ := Tables.live?_eq_some.mp hlive
  obtain ⟨hcreated, hmine⟩ := h.find?_of_new hnew hrow
  have hmineLive := Tables.live?_eq_some.mpr ⟨hmine, hisLive⟩
  obtain ⟨kept, hkept⟩ := Option.isSome_iff_exists.mp (hworking.live hmineLive keeper hkeeper)
  obtain ⟨hkeptFound, hkeptLive⟩ := Tables.live?_eq_some.mp hkept
  have hkeeperAfter := h.find?_of_created (h.rooted.keepers hcreated hmine keeper hkeeper)
  exact Tables.isSome_live? (hkeeperAfter.trans hkeptFound) hkeptLive

/-- A row that was committed has the same keepers in the transaction, if it is in its
snapshot. -/
theorem keepers_working (h : Meets origin committed tx after) {kind : EntityKind} {id : Id kind}
    {first old mine : kind.Row} (hfirst : origin.find? id = some first)
    (hold : committed.tables.find? id = some old) (hmine : tx.working.find? id = some mine) :
    Row.keepers mine = Row.keepers old := by
  have hlinks := h.departs.sameLinks h.rooted.bridges hfirst hmine
  have hanchor := (h.departs.becomes.succeeds hfirst hmine).anchor
  rw [Row.keepers_eq hanchor hlinks]
  exact (Tables.keepers_eq_of_becomes h.becomes h.foreruns hfirst hold).symm

/-- A row that was committed keeps its keepers: who has one of them in his snapshot has
the row as well, and leaves it live only with all of them. -/
theorem keepers_of_old (h : Meets origin committed tx after)
    (hcommitted : committed.tables.Coherent) (hworking : tx.working.Coherent) {kind : EntityKind}
    {id : Id kind} {row old : kind.Row} (hold : committed.tables.find? id = some old)
    (hlive : after.tables.live? id = some row) :
    ∀ keeper ∈ Row.keepers row, (after.tables.live? keeper.id).isSome := by
  intro keeper hkeeper
  have hrow := (Tables.live?_eq_some.mp hlive).1
  rw [Tables.keepers_eq_of_becomes h.becomes_after h.foreruns_after hold hrow] at hkeeper
  apply h.live?_after (hcommitted.live (h.live?_committed hold hlive) keeper hkeeper)
  intro hkeeperOrigin
  have horigin := h.foreruns.complete hold keeper hkeeper hkeeperOrigin
  obtain ⟨first, hfirst⟩ := Option.isSome_iff_exists.mp horigin
  obtain ⟨mine, hmine⟩ := h.live?_working horigin hlive
  have hmineFound := (Tables.live?_eq_some.mp hmine).1
  rw [← h.keepers_working hfirst hold hmineFound] at hkeeper
  exact hworking.live hmine keeper hkeeper

/-- Two coherent sides make a coherent whole. -/
theorem coherent_after (h : Meets origin committed tx after)
    (hcommitted : committed.tables.Coherent) (hworking : tx.working.Coherent) :
    after.tables.Coherent where
  live {kind id row} hlive := by
    cases hold : committed.tables.find? id with
    | none => exact h.keepers_of_new hworking hold hlive
    | some old => exact h.keepers_of_old hcommitted hworking hold hlive
  oneRoot {id bridge} hbridge := by
    cases hold : committed.tables.find? id with
    | none =>
        have hmine := (h.find?_of_new hold hbridge).2
        exact (hworking.oneRoot hmine).of_anchored h.anchored_after
    | some old =>
        have hlinks : Row.SameLinks old bridge := h.linked_after hold hbridge
        have hone := (hcommitted.oneRoot hold).of_anchored fun hrow =>
          (h.becomes_after hrow).imp fun _ hlater => ⟨hlater.1, hlater.2.anchor⟩
        rw [Tables.JoinsOneRoot, hlinks.1, hlinks.2]
        exact hone

end Meets

end VariantCatalog
