/-
# Transactions that leave tables coherent

A transaction leaves coherent tables coherent if it is one of two kinds: it creates
rows together with their keepers (`AreRooted`), or it creates nothing and archives
whatever hangs below a row that it archives (`Tables.Encloses`).  Either way it
brings to a merge what the merge asks of it, that its new rows are rooted.
-/

import VariantCatalog.Proofs.Memory.Coherence
import VariantCatalog.Proofs.Memory.Insertion
import VariantCatalog.Proofs.Memory.Retirement

namespace VariantCatalog

open Memory

namespace Memory

variable {origin : Tables} {rows : List AnyRow} {tx : Transaction}

/-! ## Nothing is created -/

/-- A transaction that neither creates a row nor moves a bridge. -/
structure Transaction.Settled (tx : Transaction) : Prop where
  created {kind : EntityKind} {id : Id kind} : (⟨kind, id, .created⟩ : Entry) ∉ tx.journal
  bridges {id : Id .bridge} : (⟨.bridge, id, .updated⟩ : Entry) ∉ tx.journal

namespace Transaction.Settled

theorem rooted (h : tx.Settled) : tx.Rooted where
  keepers hcreated := absurd hcreated h.created
  bridges := h.bridges

/-- Every row was there, and hangs where it hung. -/
theorem exists_origin (h : tx.Settled) (hdeparts : Departs origin tx) {kind : EntityKind}
    {id : Id kind} {row : kind.Row} (hrow : tx.working.find? id = some row) :
    ∃ old, origin.find? id = some old ∧ Row.Succeeds old row ∧ Row.SameLinks old row := by
  have hold : (origin.find? id).isSome := by
    by_contra hnone
    apply h.created
    exact hdeparts.created.mpr
      ⟨Option.not_isSome_iff_eq_none.mp hnone, Option.isSome_of_eq_some hrow⟩
  obtain ⟨old, hold⟩ := Option.isSome_iff_exists.mp hold
  exact ⟨old, hold, hdeparts.becomes.succeeds hold hrow, hdeparts.sameLinks h.bridges hold hrow⟩

/-- It is enough that what is still live has kept its keepers. -/
theorem coherent (h : tx.Settled) (hdeparts : Departs origin tx) (hcoherent : origin.Coherent)
    (hkept : ∀ {kind : EntityKind} {id : Id kind} {row : kind.Row},
      tx.working.live? id = some row → ∀ keeper ∈ Row.keepers row,
        (origin.live? keeper.id).isSome → (tx.working.live? keeper.id).isSome) :
    tx.working.Coherent where
  live {kind id row} hlive keeper hkeeper := by
    apply hkept hlive keeper hkeeper
    obtain ⟨hrow, hisLive⟩ := Tables.live?_eq_some.mp hlive
    obtain ⟨old, hold, hsucceeds, hlinks⟩ := h.exists_origin hdeparts hrow
    rw [Row.keepers_eq hsucceeds.anchor hlinks] at hkeeper
    have holdLive := Tables.live?_eq_some.mpr ⟨hold, hsucceeds.isLive_of_isLive hisLive⟩
    exact hcoherent.live holdLive keeper hkeeper
  oneRoot {id bridge} hbridge := by
    obtain ⟨old, hold, _, hproduct, hvalue⟩ := h.exists_origin hdeparts hbridge
    have hone := (hcoherent.oneRoot hold).of_anchored fun hrow =>
      (hdeparts.becomes hrow).imp fun _ hlater => ⟨hlater.1, hlater.2.anchor⟩
    rw [Tables.JoinsOneRoot, hproduct, hvalue]
    exact hone

end Transaction.Settled

end Memory

/-! ## Rows are archived -/

/-- Whatever is live and hangs below one of the rows is one of them. -/
structure Tables.Encloses (tables : Tables) (rows : List AnyRow) : Prop where
  products {root : ProductRoot} {product : Product} : (⟨.root, root⟩ : AnyRow) ∈ rows →
    tables.live? product.id = some product → product.root = root.id →
      (⟨.product, product⟩ : AnyRow) ∈ rows
  bridgesOf {product : Product} {bridge : VariantBridge} : (⟨.product, product⟩ : AnyRow) ∈ rows →
    tables.live? bridge.id = some bridge → bridge.product = product.id →
      (⟨.bridge, bridge⟩ : AnyRow) ∈ rows
  bridgesTo {value : OptionValue} {bridge : VariantBridge} : (⟨.value, value⟩ : AnyRow) ∈ rows →
    tables.live? bridge.id = some bridge → bridge.value = value.id →
      (⟨.bridge, bridge⟩ : AnyRow) ∈ rows

theorem Tables.Encloses.mem_of_keeper {tables : Tables} {rows : List AnyRow}
    (h : tables.Encloses rows) {kind : EntityKind} {row : kind.Row}
    (hlive : tables.live? (Row.id row) = some row) {keeper : RowKey}
    (hkeeper : keeper ∈ Row.keepers row) (hmem : keeper ∈ rows.map AnyRow.key) :
    (⟨kind, row⟩ : AnyRow) ∈ rows := by
  cases kind with
  | root => cases hkeeper
  | option => cases hkeeper
  | value => cases hkeeper
  | product =>
      cases List.mem_singleton.mp hkeeper
      obtain ⟨root, hroot, hid⟩ := AnyRow.exists_of_mem_keys hmem
      exact h.products hroot hlive hid.symm
  | bridge =>
      rcases List.mem_cons.mp hkeeper with rfl | hkeeper
      · obtain ⟨product, hproduct, hid⟩ := AnyRow.exists_of_mem_keys hmem
        exact h.bridgesOf hproduct hlive hid.symm
      · cases List.mem_singleton.mp hkeeper
        obtain ⟨value, hvalue, hid⟩ := AnyRow.exists_of_mem_keys hmem
        exact h.bridgesTo hvalue hlive hid.symm

namespace Memory.Retires

variable {origin : Tables} {rows : List AnyRow} {tx : Transaction}

theorem settled (h : Retires origin rows tx) : tx.Settled := by
  obtain ⟨stamped, _, rfl⟩ := h.stamped
  have haction : ∀ entry ∈ ((⟨origin, []⟩ : Transaction).writeAll stamped .archived).journal,
      entry.action = .archived := by
    intro entry hentry
    obtain ⟨any, _, rfl⟩ := List.mem_map.mp hentry
    rfl
  constructor
  · exact fun hentry => nomatch haction _ hentry
  · exact fun hentry => nomatch haction _ hentry

/-- What is archived is archived with all that hangs below it. -/
theorem coherent (h : Retires origin rows tx) (hdeparts : Departs origin tx)
    (hcoherent : origin.Coherent) (hencloses : origin.Encloses rows) : tx.working.Coherent := by
  apply h.settled.coherent hdeparts hcoherent
  intro kind id row hlive keeper hkeeper hkept
  obtain ⟨horigin, hkey⟩ := h.live?_eq_some.mp hlive
  obtain rfl := Tables.id_of_find? (Tables.live?_eq_some.mp horigin).1
  obtain ⟨kept, hkept⟩ := Option.isSome_iff_exists.mp hkept
  apply Option.isSome_of_eq_some
  apply h.live?_eq_some.mpr
  refine ⟨hkept, fun hmem => hkey ?_⟩
  exact List.mem_map.mpr ⟨_, hencloses.mem_of_keeper horigin hkeeper hmem, rfl⟩

end Memory.Retires

/-! ## Rows are created -/

/-- Live rows that come with their keepers, and whose bridges stay within one root. -/
structure AreRooted (rows : List AnyRow) : Prop where
  live {kind : EntityKind} {row : kind.Row} : (⟨kind, row⟩ : AnyRow) ∈ rows → Row.isLive row
  products {product : Product} : (⟨.product, product⟩ : AnyRow) ∈ rows →
    ∃ root : ProductRoot, (⟨.root, root⟩ : AnyRow) ∈ rows ∧ product.root = root.id
  bridges {bridge : VariantBridge} : (⟨.bridge, bridge⟩ : AnyRow) ∈ rows →
    ∃ (product : Product) (value : OptionValue) (option : ProductOption),
      (⟨.product, product⟩ : AnyRow) ∈ rows ∧ (⟨.value, value⟩ : AnyRow) ∈ rows ∧
        (⟨.option, option⟩ : AnyRow) ∈ rows ∧ bridge.product = product.id ∧
          bridge.value = value.id ∧ value.option = option.id ∧ option.root = product.root

theorem AreRooted.keepers {rows : List AnyRow} (h : AreRooted rows) {kind : EntityKind}
    {row : kind.Row} (hrow : (⟨kind, row⟩ : AnyRow) ∈ rows) {keeper : RowKey}
    (hkeeper : keeper ∈ Row.keepers row) : keeper ∈ rows.map AnyRow.key := by
  cases kind with
  | root => cases hkeeper
  | option => cases hkeeper
  | value => cases hkeeper
  | product =>
      obtain ⟨root, hroot, hid⟩ := h.products hrow
      rw [List.mem_singleton.mp hkeeper]
      exact List.mem_map.mpr ⟨_, hroot, congrArg (RowKey.mk .root) hid.symm⟩
  | bridge =>
      obtain ⟨product, value, _, hproduct, hvalue, _, hproductId, hvalueId, _⟩ := h.bridges hrow
      rcases List.mem_cons.mp hkeeper with rfl | hkeeper
      · exact List.mem_map.mpr ⟨_, hproduct, congrArg (RowKey.mk .product) hproductId.symm⟩
      · rw [List.mem_singleton.mp hkeeper]
        exact List.mem_map.mpr ⟨_, hvalue, congrArg (RowKey.mk .value) hvalueId.symm⟩

namespace Memory.Inserts

variable {origin : Tables} {rows : List AnyRow} {tx : Transaction} {kind : EntityKind}

theorem find?_of_origin (h : Inserts origin rows tx) (hdeparts : Departs origin tx) {id : Id kind}
    {row : kind.Row} (hrow : origin.find? id = some row) : tx.working.find? id = some row := by
  apply h.find?_eq_some.mpr
  refine .inr ⟨fun hkey => ?_, hrow⟩
  have hnone := (hdeparts.created.mp (h.mem_journal.mpr ⟨rfl, hkey⟩)).1
  rw [hrow] at hnone
  cases hnone

theorem rooted (h : Inserts origin rows tx) (hrooted : AreRooted rows) : tx.Rooted where
  keepers {kind id row} hcreated hrow keeper hkeeper := by
    obtain ⟨new, hnew, rfl⟩ := AnyRow.exists_of_mem_keys (h.mem_journal.mp hcreated).2
    rw [h.find?_of_mem hnew] at hrow
    cases hrow
    exact h.mem_journal.mpr ⟨rfl, hrooted.keepers hnew hkeeper⟩
  bridges hupdated := nomatch (h.mem_journal.mp hupdated).1

/-- What is created is created with its keepers. -/
theorem coherent (h : Inserts origin rows tx) (hdeparts : Departs origin tx)
    (hcoherent : origin.Coherent) (hrooted : AreRooted rows) : tx.working.Coherent where
  live {kind id row} hlive keeper hkeeper := by
    obtain ⟨hrow, hisLive⟩ := Tables.live?_eq_some.mp hlive
    rcases h.find?_eq_some.mp hrow with ⟨hnew, _⟩ | ⟨_, horigin⟩
    · obtain ⟨kept, hkept, hid⟩ := AnyRow.exists_of_mem_keys (hrooted.keepers hnew hkeeper)
      rw [← hid]
      exact Tables.isSome_live? (h.find?_of_mem hkept) (hrooted.live hkept)
    · have hold := Tables.live?_eq_some.mpr ⟨horigin, hisLive⟩
      obtain ⟨kept, hkept⟩ := Option.isSome_iff_exists.mp (hcoherent.live hold keeper hkeeper)
      obtain ⟨hfound, hkeptLive⟩ := Tables.live?_eq_some.mp hkept
      exact Tables.isSome_live? (h.find?_of_origin hdeparts hfound) hkeptLive
  oneRoot {id bridge} hbridge := by
    rcases h.find?_eq_some.mp hbridge with ⟨hnew, _⟩ | ⟨_, horigin⟩
    · obtain ⟨product, value, option, hproduct, hvalue, hoption, hproductId, hvalueId, hoptionId,
        hroot⟩ := hrooted.bridges hnew
      refine ⟨product, value, option, ?_, ?_, ?_, hroot⟩
      · rw [hproductId]
        exact h.find?_of_mem hproduct
      · rw [hvalueId]
        exact h.find?_of_mem hvalue
      · rw [hoptionId]
        exact h.find?_of_mem hoption
    · apply (hcoherent.oneRoot horigin).of_anchored
      exact fun hrow => ⟨_, h.find?_of_origin hdeparts hrow, Row.sameAnchor_refl _⟩

end Memory.Inserts

end VariantCatalog
