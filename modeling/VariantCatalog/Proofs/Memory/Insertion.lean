/-
# Transactions that create

A transaction that does nothing but create is known by the rows that it created, in
the order in which it did (`Inserts`).  Their numbers ascend within each kind, so no
row is created over another, and the working tables are the old ones with exactly
these rows added.
-/

import VariantCatalog.Proofs.Memory.Answers

namespace VariantCatalog.Memory

/-- To the tables that a transaction began on, it has added some rows under ascending
numbers, and done nothing else. -/
structure Inserts (origin : Tables) (rows : List AnyRow) (tx : Transaction) : Prop where
  transaction : tx = (⟨origin, []⟩ : Transaction).writeAll rows .created
  ascending : rows.Pairwise fun first second =>
    first.kind = second.kind → first.number < second.number

/-- Rows under ascending numbers are under different keys. -/
theorem nodup_keys_of_ascending {rows : List AnyRow}
    (h : rows.Pairwise fun first second =>
      first.kind = second.kind → first.number < second.number) :
    (rows.map AnyRow.key).Nodup := by
  apply List.pairwise_map.mpr
  apply h.imp
  rintro ⟨firstKind, first⟩ ⟨secondKind, second⟩ hlt hkey
  obtain ⟨rfl, hid⟩ := RowKey.mk.inj hkey
  exact absurd (congrArg Id.number (eq_of_heq hid)) (Int.ne_of_lt (hlt rfl))

/-- Those of one kind among them are in the order of their numbers. -/
theorem precedes_of_ascending {rows : List AnyRow}
    (h : rows.Pairwise fun first second =>
      first.kind = second.kind → first.number < second.number)
    {kind : EntityKind} {created : List kind.Row}
    (hcreated : (AnyRow.ofRows kind created).Sublist rows) : created.Pairwise Row.Precedes :=
  (List.pairwise_map.mp (h.sublist hcreated)).imp fun hlt => hlt rfl

theorem Adds.inserts {origin : Tables} {rows : List AnyRow} {session after : Session}
    (h : Adds session rows after) (hsession : session.transaction = ⟨origin, []⟩) :
    Inserts origin rows after.transaction := by
  refine ⟨?_, h.ascending⟩
  rw [h.transaction, hsession]

namespace Adds

variable {before after : Session} {rows : List AnyRow} {kind : EntityKind} {id : Id kind}
  {row : kind.Row}

/-- What is there after some rows were created: those, and what was there before. -/
theorem find?_cases (h : Adds before rows after)
    (hrow : after.transaction.working.find? id = some row) :
    (⟨kind, row⟩ : AnyRow) ∈ rows ∨ before.transaction.working.find? id = some row := by
  rw [h.transaction] at hrow
  have hcases := (Tables.find?_putAll_eq_some rows _ (nodup_keys_of_ascending h.ascending)).mp hrow
  exact hcases.imp And.left And.right

theorem live?_cases (h : Adds before rows after)
    (hlive : after.transaction.working.live? id = some row) :
    (⟨kind, row⟩ : AnyRow) ∈ rows ∨ before.transaction.working.live? id = some row := by
  obtain ⟨hrow, hisLive⟩ := Tables.live?_eq_some.mp hlive
  exact (h.find?_cases hrow).imp_right fun hbefore => Tables.live?_eq_some.mpr ⟨hbefore, hisLive⟩

theorem find?_of_mem (h : Adds before rows after) (hrow : (⟨kind, row⟩ : AnyRow) ∈ rows) :
    after.transaction.working.find? (Row.id row) = some row := by
  rw [h.transaction]
  exact Tables.find?_putAll_of_mem rows _ (nodup_keys_of_ascending h.ascending) hrow

/-- A number that was drawn meanwhile led nowhere. -/
theorem find?_eq_none (h : Adds before rows after)
    (hdrawn : before.transaction.working.Drawn before.registers.sequences)
    (hrow : (⟨kind, row⟩ : AnyRow) ∈ rows) :
    before.transaction.working.find? (Row.id row) = Option.none :=
  hdrawn.find?_eq_none (h.drawn _ hrow).1

/-- So no row is created over another. -/
theorem find?_of_before (h : Adds before rows after)
    (hdrawn : before.transaction.working.Drawn before.registers.sequences)
    (hrow : before.transaction.working.find? id = some row) :
    after.transaction.working.find? id = some row := by
  have hkey : (⟨kind, id⟩ : RowKey) ∉ rows.map AnyRow.key := by
    intro hkey
    obtain ⟨new, hnew, rfl⟩ := AnyRow.exists_of_mem_keys hkey
    rw [h.find?_eq_none hdrawn hnew] at hrow
    cases hrow
  rw [h.transaction]
  exact (Tables.find?_putAll_of_not_mem id rows _ hkey).trans hrow

theorem isSome_of_before (h : Adds before rows after)
    (hdrawn : before.transaction.working.Drawn before.registers.sequences)
    (hsome : (before.transaction.working.find? id).isSome) :
    (after.transaction.working.find? id).isSome := by
  obtain ⟨found, hfound⟩ := Option.isSome_iff_exists.mp hsome
  exact Option.isSome_of_eq_some (h.find?_of_before hdrawn hfound)

end Adds

namespace Inserts

variable {origin : Tables} {rows : List AnyRow} {tx : Transaction} {kind : EntityKind}

theorem nodup_keys (h : Inserts origin rows tx) : (rows.map AnyRow.key).Nodup :=
  nodup_keys_of_ascending h.ascending

theorem journal_eq (h : Inserts origin rows tx) :
    tx.journal = rows.map fun any => ⟨any.kind, Row.id any.row, .created⟩ := by
  rw [h.transaction]
  exact List.nil_append _

theorem keys_eq (h : Inserts origin rows tx) : tx.keys = rows.map AnyRow.key := by
  rw [Transaction.keys, h.journal_eq, List.map_map]
  rfl

/-- The journal tells of creations only. -/
theorem mem_journal (h : Inserts origin rows tx) {id : Id kind} {action : Action} :
    (⟨kind, id, action⟩ : Entry) ∈ tx.journal ↔
      action = .created ∧ (⟨kind, id⟩ : RowKey) ∈ rows.map AnyRow.key := by
  rw [h.journal_eq]
  constructor
  · intro hentry
    obtain ⟨any, hany, heq⟩ := List.mem_map.mp hentry
    cases heq
    exact ⟨rfl, List.mem_map.mpr ⟨any, hany, rfl⟩⟩
  · rintro ⟨rfl, hkey⟩
    obtain ⟨row, hrow, rfl⟩ := AnyRow.exists_of_mem_keys hkey
    exact List.mem_map.mpr ⟨_, hrow, rfl⟩

/-- The working tables have the rows that were created, and those that were there under
other keys. -/
theorem find?_eq_some (h : Inserts origin rows tx) {id : Id kind} {row : kind.Row} :
    tx.working.find? id = some row ↔
      (⟨kind, row⟩ : AnyRow) ∈ rows ∧ Row.id row = id ∨
        (⟨kind, id⟩ : RowKey) ∉ rows.map AnyRow.key ∧ origin.find? id = some row := by
  rw [h.transaction]
  exact Tables.find?_putAll_eq_some rows origin h.nodup_keys

theorem find?_of_mem (h : Inserts origin rows tx) {row : kind.Row}
    (hmem : (⟨kind, row⟩ : AnyRow) ∈ rows) : tx.working.find? (Row.id row) = some row :=
  h.find?_eq_some.mpr (.inl ⟨hmem, rfl⟩)

end Inserts

end VariantCatalog.Memory
