/-
# Transactions that archive

A transaction that does nothing but archive is known by the rows that it archived,
as they were when it began, in the order in which it came to them (`Retires`).  It
never comes to a row twice, because an archived row is not live; so its working
tables are the old ones with exactly these rows stamped, and what it still finds
live is what was live and is not among them.
-/

import VariantCatalog.Proofs.Memory.Answers

namespace VariantCatalog.Memory

open Calendar

/-- A row before and after it was archived. -/
def Stamps (row stamped : AnyRow) : Prop :=
  ∃ moment, stamped = ⟨row.kind, Row.archive row.row moment⟩

/-- Of the tables that a transaction began on, it has archived some live rows, one
after the other, and done nothing else. -/
structure Retires (origin : Tables) (rows : List AnyRow) (tx : Transaction) : Prop where
  live {kind : EntityKind} {row : kind.Row} :
    (⟨kind, row⟩ : AnyRow) ∈ rows → origin.live? (Row.id row) = some row
  distinct : (rows.map AnyRow.key).Nodup
  stamped : ∃ stamped, List.Forall₂ Stamps rows stamped ∧
    tx = (⟨origin, []⟩ : Transaction).writeAll stamped .archived

theorem keys_of_stamps {rows stamped : List AnyRow} (h : List.Forall₂ Stamps rows stamped) :
    stamped.map AnyRow.key = rows.map AnyRow.key := by
  induction h with
  | nil => rfl
  | cons hstamps _ ih =>
      obtain ⟨moment, rfl⟩ := hstamps
      rw [List.map_cons, List.map_cons, ih]
      simp only [AnyRow.key, Row.id_archive]

theorem exists_of_forall₂ {α β : Type} {related : α → β → Prop} {items : List α} {others : List β}
    (h : List.Forall₂ related items others) {item : α} (hmem : item ∈ items) :
    ∃ other ∈ others, related item other := by
  induction h with
  | nil => cases hmem
  | cons hrelated _ ih =>
      rcases List.mem_cons.mp hmem with rfl | hmem
      · exact ⟨_, List.mem_cons_self, hrelated⟩
      · obtain ⟨other, hother, hotherRelated⟩ := ih hmem
        exact ⟨other, List.mem_cons_of_mem _ hother, hotherRelated⟩

theorem stamps_archivedRows {kind : EntityKind} (rows : List kind.Row) (moment : Moment) :
    List.Forall₂ Stamps (AnyRow.ofRows kind rows) (archivedRows rows moment) := by
  rw [AnyRow.ofRows, archivedRows, List.forall₂_map_left_iff, List.forall₂_map_right_iff,
    List.forall₂_same]
  intro row _
  exact ⟨moment, rfl⟩

namespace Retires

variable {origin : Tables} {rows : List AnyRow} {tx : Transaction} {kind : EntityKind}

theorem start (origin : Tables) : Retires origin [] ⟨origin, []⟩ where
  live h := absurd h List.not_mem_nil
  distinct := List.nodup_nil
  stamped := ⟨[], List.Forall₂.nil, (Transaction.writeAll_nil _ _).symm⟩

/-- The journal tells of them in this order. -/
theorem journal_eq (h : Retires origin rows tx) :
    tx.journal = rows.map fun any => ⟨any.kind, Row.id any.row, .archived⟩ := by
  obtain ⟨stamped, hstamps, rfl⟩ := h.stamped
  have hkeys := congrArg (List.map fun key : RowKey => (⟨key.kind, key.id, .archived⟩ : Entry))
    (keys_of_stamps hstamps)
  rw [List.map_map, List.map_map] at hkeys
  exact hkeys

theorem keys_eq (h : Retires origin rows tx) : tx.keys = rows.map AnyRow.key := by
  rw [Transaction.keys, h.journal_eq, List.map_map]
  rfl

theorem find?_of_not_mem (h : Retires origin rows tx) {id : Id kind}
    (hkey : (⟨kind, id⟩ : RowKey) ∉ rows.map AnyRow.key) :
    tx.working.find? id = origin.find? id := by
  obtain ⟨stamped, hstamps, rfl⟩ := h.stamped
  apply Tables.find?_putAll_of_not_mem id stamped origin
  rw [keys_of_stamps hstamps]
  exact hkey

theorem find?_of_mem (h : Retires origin rows tx) {row : kind.Row}
    (hmem : (⟨kind, row⟩ : AnyRow) ∈ rows) :
    ∃ moment, tx.working.find? (Row.id row) = some (Row.archive row moment) := by
  have hdistinct := h.distinct
  obtain ⟨stamped, hstamps, rfl⟩ := h.stamped
  obtain ⟨stamp, hstamp, moment, rfl⟩ := exists_of_forall₂ hstamps hmem
  rw [← keys_of_stamps hstamps] at hdistinct
  have hfind := Tables.find?_putAll_of_mem stamped origin hdistinct hstamp
  rw [Row.id_archive] at hfind
  exact ⟨moment, hfind⟩

/-- What is still live is what was live and was not archived. -/
theorem live?_eq_some (h : Retires origin rows tx) {id : Id kind} {row : kind.Row} :
    tx.working.live? id = some row ↔
      origin.live? id = some row ∧ (⟨kind, id⟩ : RowKey) ∉ rows.map AnyRow.key := by
  by_cases hkey : (⟨kind, id⟩ : RowKey) ∈ rows.map AnyRow.key
  · obtain ⟨old, hmem, rfl⟩ := AnyRow.exists_of_mem_keys hkey
    obtain ⟨moment, hfind⟩ := h.find?_of_mem hmem
    rw [Tables.live?_eq_some, hfind]
    constructor
    · rintro ⟨heq, hlive⟩
      rw [← Option.some.inj heq, Row.isLive_archive] at hlive
      cases hlive
    · exact fun hnot => absurd hkey hnot.2
  · rw [Tables.live?_eq_some, Tables.live?_eq_some, h.find?_of_not_mem hkey, and_iff_left hkey]

/-- Rows that satisfy a condition are as they were if none of them was archived. -/
theorem liveRows_eq (h : Retires origin rows tx) (condition : kind.Row → Bool)
    (hrows : ∀ row, (⟨kind, row⟩ : AnyRow) ∈ rows → condition row = false) :
    (tx.working.table kind).liveRows condition = (origin.table kind).liveRows condition := by
  apply Table.eq_of_mem_iff (Table.ascending_liveRows _ _) (Table.ascending_liveRows _ _)
  intro row
  rw [Tables.mem_liveRows, Tables.mem_liveRows, h.live?_eq_some, and_assoc]
  constructor
  · exact fun ⟨hlive, _, hcondition⟩ => ⟨hlive, hcondition⟩
  · rintro ⟨hlive, hcondition⟩
    refine ⟨hlive, fun hkey => ?_, hcondition⟩
    obtain ⟨old, hmem, hid⟩ := AnyRow.exists_of_mem_keys hkey
    have hold := h.live hmem
    rw [hid, hlive] at hold
    cases hold
    rw [hrows row hmem] at hcondition
    cases hcondition

/-- One more live row may be archived. -/
theorem archiveOne (h : Retires origin rows tx) {row : kind.Row}
    (hlive : tx.working.live? (Row.id row) = some row) (moment : Moment) :
    Retires origin (rows ++ [⟨kind, row⟩]) (tx.write (Row.archive row moment) .archived) := by
  obtain ⟨horigin, hkey⟩ := h.live?_eq_some.mp hlive
  refine ⟨fun {other old} hmem => ?_, ?_, ?_⟩
  · rcases List.mem_append.mp hmem with hmem | hmem
    · exact h.live hmem
    · cases List.mem_singleton.mp hmem
      exact horigin
  · rw [List.map_append, List.map_singleton, List.nodup_append]
    refine ⟨h.distinct, List.pairwise_singleton _ _, ?_⟩
    intro first hfirst second hsecond heq
    rw [heq, List.mem_singleton.mp hsecond] at hfirst
    exact hkey hfirst
  · obtain ⟨stamped, hstamps, rfl⟩ := h.stamped
    refine ⟨stamped ++ [⟨kind, Row.archive row moment⟩], ?_, ?_⟩
    · exact List.rel_append hstamps (List.Forall₂.cons ⟨moment, rfl⟩ List.Forall₂.nil)
    · rw [Transaction.writeAll_append, Transaction.writeAll_cons, Transaction.writeAll_nil]

/-- So may all live rows that satisfy a condition. -/
theorem archiveWhere (h : Retires origin rows tx) (condition : kind.Row → Bool)
    (hrows : ∀ row, (⟨kind, row⟩ : AnyRow) ∈ rows → condition row = false) (moment : Moment) :
    Retires origin
      (rows ++ AnyRow.ofRows kind ((origin.table kind).liveRows condition))
      (tx.archiveWhere condition moment) := by
  rw [← h.liveRows_eq condition hrows]
  have hlive : ∀ {row : kind.Row}, row ∈ (tx.working.table kind).liveRows condition →
      origin.live? (Row.id row) = some row ∧
        (⟨kind, Row.id row⟩ : RowKey) ∉ rows.map AnyRow.key :=
    fun hrow => h.live?_eq_some.mp (Tables.mem_liveRows.mp hrow).1
  refine ⟨fun {other old} hmem => ?_, ?_, ?_⟩
  · rcases List.mem_append.mp hmem with hmem | hmem
    · exact h.live hmem
    · obtain ⟨row, hrow, heq⟩ := List.mem_map.mp hmem
      cases heq
      exact (hlive hrow).1
  · rw [AnyRow.ofRows, List.map_append, List.map_map, List.nodup_append]
    refine ⟨h.distinct, nodup_keys_liveRows _ _, ?_⟩
    intro first hfirst second hsecond heq
    obtain ⟨row, hrow, rfl⟩ := List.mem_map.mp hsecond
    rw [heq] at hfirst
    exact (hlive hrow).2 hfirst
  · rw [Transaction.archiveWhere_eq_writeAll]
    obtain ⟨stamped, hstamps, rfl⟩ := h.stamped
    refine ⟨stamped ++ archivedRows _ moment, ?_, (Transaction.writeAll_append _ _ _ _).symm⟩
    exact List.rel_append hstamps (stamps_archivedRows _ moment)

end Retires

section Calls

variable {origin : Tables} {rows : List AnyRow} {session after : Session}

theorem retires_of_run_archive {kind : EntityKind} {row : kind.Row} {moment : Moment}
    (h : Retires origin rows session.transaction)
    (hlive : origin.live? (Row.id row) = some row)
    (hrun : (archive (Row.id row)).run.run session = (.ok moment, after)) :
    Retires origin (rows ++ [⟨kind, row⟩]) after.transaction := by
  rw [run_archive] at hrun
  cases hfind : session.transaction.working.live? (Row.id row) with
  | none =>
      rw [hfind] at hrun
      cases hrun
  | some found =>
      rw [hfind] at hrun
      cases hrun
      have horigin := (h.live?_eq_some.mp hfind).1
      rw [hlive] at horigin
      cases horigin
      exact h.archiveOne hfind session.now

theorem retires_of_run_archiveWhere {kind : EntityKind} {condition : kind.Row → Bool}
    {count : Nat} (h : Retires origin rows session.transaction)
    (hrows : ∀ row, (⟨kind, row⟩ : AnyRow) ∈ rows → condition row = false)
    (hrun : (archiveWhere kind condition).run.run session = (.ok count, after)) :
    Retires origin
      (rows ++ AnyRow.ofRows kind ((origin.table kind).liveRows condition))
      after.transaction := by
  rw [run_archiveWhere] at hrun
  cases hrun
  exact h.archiveWhere condition hrows session.now

end Calls

end VariantCatalog.Memory
