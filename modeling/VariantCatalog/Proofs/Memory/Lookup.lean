/-
# Looking rows up

A table is a list in the order of identifiers, but what it means is a finite map:
the rows that can be looked up in it, each under its own identifier.  This module
says what every operation on tables does to that map.  Two tables with the same
lookups are equal, so nothing else about a table ever needs to be known.

A change of one kind of row never shows in a lookup of another kind, so the laws
of `Tables` come in pairs: at the row that was written, and elsewhere.  A `RowKey`
says which row of which kind is meant, so that rows of all kinds can stand in one
list and be put one after the other.
-/

import VariantCatalog.Memory.Store

namespace VariantCatalog

theorem Id.number_inj {kind : EntityKind} {first second : Id kind} :
    first.number = second.number ↔ first = second := by
  cases first
  cases second
  simp only [Id.mk.injEq]

/-! ## Lists under ascending numbers -/

section Ascending

variable {α : Type} (number : α → Int) {items others : List α}
  (hitems : items.Pairwise (number · < number ·)) (hothers : others.Pairwise (number · < number ·))

include hitems hothers

/-- Lists under ascending numbers are known by what is among them. -/
theorem eq_of_ascending (h : ∀ item, item ∈ items ↔ item ∈ others) : items = others := by
  have hdistinct : ∀ {items : List α}, items.Pairwise (number · < number ·) → items.Nodup := by
    intro items hitems
    apply hitems.imp
    rintro first second hlt rfl
    exact Int.lt_irrefl _ hlt
  have hperm := (List.perm_ext_iff_of_nodup (hdistinct hitems) (hdistinct hothers)).mpr h
  apply List.Perm.eq_of_pairwise _ hitems hothers hperm
  intro first second _ _ hlt hgt
  exact absurd (Int.lt_trans hlt hgt) (Int.lt_irrefl _)

/-- What is among others under ascending numbers is in their order. -/
theorem sublist_of_ascending (h : ∀ item ∈ items, item ∈ others) : items.Sublist others := by
  classical
  have hfilter := hothers.sublist (List.filter_sublist (p := fun item => decide (item ∈ items)))
  have heq := eq_of_ascending number hitems hfilter fun item => by
    simp only [List.mem_filter, decide_eq_true_eq]
    exact ⟨fun hitem => ⟨h item hitem, hitem⟩, And.right⟩
  rw [heq]
  exact List.filter_sublist

end Ascending

/-! ## One table -/

namespace Row

variable {kind : EntityKind}

theorem find?_insert (row : kind.Row) (rows : List kind.Row) (id : Id kind) :
    (insert row rows).find? (Row.id · = id) =
      if Row.id row = id then some row else rows.find? (Row.id · = id) := by
  induction rows with
  | nil =>
      simp only [insert, List.find?_cons, List.find?_nil]
      by_cases h : Row.id row = id <;> simp only [h, decide_true, decide_false, if_true, if_false]
  | cons first rest ih =>
      simp only [insert]
      split
      · rw [List.find?_cons]
        by_cases h : Row.id row = id <;>
          simp only [h, decide_true, decide_false, if_true, if_false]
      · split
        · next heq =>
          rw [List.find?_cons, List.find?_cons, ← Id.number_inj.mp heq]
          by_cases h : Row.id row = id <;>
            simp only [h, decide_true, decide_false, if_true, if_false]
        · next hne =>
          rw [List.find?_cons, List.find?_cons, ih]
          by_cases h : Row.id first = id
          · have hrow : Row.id row ≠ id := fun hrow =>
              hne (Id.number_inj.mpr (hrow.trans h.symm))
            simp only [h, hrow, decide_true, if_false]
          · simp only [h, decide_false]

/-- In a table, a row is what its own identifier leads to. -/
theorem find?_of_mem {row : kind.Row} :
    ∀ {rows : List kind.Row}, rows.Pairwise Precedes → row ∈ rows →
      rows.find? (Row.id · = Row.id row) = some row
  | first :: rest, hascending, hmem => by
      obtain ⟨hfirst, hrest⟩ := List.pairwise_cons.mp hascending
      rw [List.find?_cons]
      rcases List.mem_cons.mp hmem with rfl | hmem
      · simp only [decide_true]
      · have hne : Row.id first ≠ Row.id row := fun h =>
          absurd (Id.number_inj.mpr h) (Int.ne_of_lt (hfirst row hmem))
        simpa only [hne, decide_false] using find?_of_mem hrest hmem

end Row

namespace Table

variable {kind : EntityKind} {table other : Table kind} {row : kind.Row} {id : Id kind}

/-- Each row is stored under its own identifier. -/
theorem id_of_find? (h : table.find? id = some row) : Row.id row = id := by
  simpa only [decide_eq_true_eq] using List.find?_some h

theorem mem_of_find? (h : table.find? id = some row) : row ∈ table.rows :=
  List.mem_of_find?_eq_some h

theorem find?_of_mem (h : row ∈ table.rows) : table.find? (Row.id row) = some row :=
  Row.find?_of_mem table.ascending h

theorem mem_iff : row ∈ table.rows ↔ table.find? (Row.id row) = some row :=
  ⟨find?_of_mem, mem_of_find?⟩

/-- Rows in the order of their identifiers are known by what is among them. -/
theorem eq_of_mem_iff {rows others : List kind.Row} (hrows : rows.Pairwise Row.Precedes)
    (hothers : others.Pairwise Row.Precedes) (h : ∀ row, row ∈ rows ↔ row ∈ others) :
    rows = others :=
  eq_of_ascending (fun row => (Row.id row).number) hrows hothers h

/-- Tables in which every identifier leads to the same row are equal. -/
theorem ext_find? (h : ∀ id, table.find? id = other.find? id) : table = other := by
  apply Table.ext
  apply eq_of_mem_iff table.ascending other.ascending
  intro row
  rw [mem_iff, mem_iff, h]

theorem find?_put (row : kind.Row) (id : Id kind) :
    (table.put row).find? id = if Row.id row = id then some row else table.find? id :=
  Row.find?_insert row table.rows id

theorem find?_archiveWhere (condition : kind.Row → Bool) (moment : Calendar.Moment)
    (id : Id kind) :
    (table.archiveWhere condition moment).find? id =
      (table.find? id).map fun row =>
        if condition row then Row.archive row moment else row := by
  have hid : ∀ row : kind.Row,
      Row.id (if condition row then Row.archive row moment else row) = Row.id row := by
    intro row
    split
    · exact Row.id_archive row moment
    · rfl
  simp only [archiveWhere, find?, List.find?_map, Function.comp_def, hid]

theorem live?_eq_some : table.live? id = some row ↔ table.find? id = some row ∧ Row.isLive row := by
  rw [live?, Option.filter_eq_some_iff]

theorem mem_liveRows {condition : kind.Row → Bool} :
    row ∈ table.liveRows condition ↔ row ∈ table.rows ∧ Row.isLive row ∧ condition row := by
  simp only [liveRows, List.mem_filter, Bool.and_eq_true]

theorem ascending_liveRows (table : Table kind) (condition : kind.Row → Bool) :
    (table.liveRows condition).Pairwise Row.Precedes :=
  table.ascending.sublist List.filter_sublist

end Table

/-! ## All tables -/

namespace Tables

variable {tables other : Tables} {kind : EntityKind} {row : kind.Row} {id : Id kind}

@[simp] theorem table_setTable (tables : Tables) (table : Table kind) :
    (tables.setTable table).table kind = table := by
  cases kind <;> rfl

theorem table_setTable_of_ne (tables : Tables) {other : EntityKind} (table : Table kind)
    (h : kind ≠ other) : (tables.setTable table).table other = tables.table other := by
  cases kind <;> cases other <;> first | rfl | exact absurd rfl h

theorem id_of_find? (h : tables.find? id = some row) : Row.id row = id :=
  Table.id_of_find? h

theorem mem_iff : row ∈ (tables.table kind).rows ↔ tables.find? (Row.id row) = some row :=
  Table.mem_iff

/-- Catalogs in which every identifier leads to the same row are equal. -/
theorem ext_find? (h : ∀ {kind : EntityKind} (id : Id kind), tables.find? id = other.find? id) :
    tables = other := by
  have htable : ∀ kind, tables.table kind = other.table kind := fun kind =>
    Table.ext_find? fun id => h id
  cases tables
  cases other
  simp only [mk.injEq]
  exact ⟨htable .root, htable .option, htable .value, htable .product, htable .bridge⟩

@[simp] theorem find?_empty (id : Id kind) : empty.find? id = none := by
  cases kind <;> rfl

theorem find?_put (tables : Tables) (row : kind.Row) (id : Id kind) :
    (tables.put row).find? id = if Row.id row = id then some row else tables.find? id := by
  rw [put, find?, table_setTable, Table.find?_put]
  rfl

@[simp] theorem find?_put_self (tables : Tables) (row : kind.Row) :
    (tables.put row).find? (Row.id row) = some row := by
  rw [find?_put, if_pos rfl]

theorem find?_archiveWhere (tables : Tables) (condition : kind.Row → Bool)
    (moment : Calendar.Moment) (id : Id kind) :
    (tables.setTable ((tables.table kind).archiveWhere condition moment)).find? id =
      (tables.find? id).map fun row =>
        if condition row then Row.archive row moment else row := by
  rw [find?, table_setTable, Table.find?_archiveWhere]
  rfl

theorem find?_archiveWhere_of_ne (tables : Tables) {other : EntityKind}
    (condition : kind.Row → Bool) (moment : Calendar.Moment) (id : Id other) (h : kind ≠ other) :
    (tables.setTable ((tables.table kind).archiveWhere condition moment)).find? id =
      tables.find? id := by
  rw [find?, table_setTable_of_ne tables _ h]
  rfl

theorem live?_eq_some :
    tables.live? id = some row ↔ tables.find? id = some row ∧ Row.isLive row :=
  Table.live?_eq_some

theorem isSome_live? (hfind : tables.find? id = some row) (hlive : Row.isLive row) :
    (tables.live? id).isSome :=
  Option.isSome_of_eq_some (live?_eq_some.mpr ⟨hfind, hlive⟩)

theorem live?_of_find? (hfind : tables.find? id = some row) (hlive : (tables.live? id).isSome) :
    tables.live? id = some row := by
  obtain ⟨other, hother⟩ := Option.isSome_iff_exists.mp hlive
  obtain ⟨hfound, hisLive⟩ := live?_eq_some.mp hother
  rw [hfind] at hfound
  cases hfound
  exact hother

theorem mem_liveRows {condition : kind.Row → Bool} :
    row ∈ (tables.table kind).liveRows condition ↔
      tables.live? (Row.id row) = some row ∧ condition row := by
  rw [Table.mem_liveRows, mem_iff, live?_eq_some, and_assoc]

/-- Some row that satisfies a condition is live if not none is read. -/
theorem exists_of_liveRows {condition : kind.Row → Bool}
    (h : ((tables.table kind).liveRows condition).isEmpty = false) :
    ∃ row : kind.Row, tables.live? (Row.id row) = some row ∧ condition row = true := by
  obtain ⟨row, hrow⟩ := List.isEmpty_eq_false_iff_exists_mem.mp h
  exact ⟨row, mem_liveRows.mp hrow⟩

end Tables

/-! ## Rows of all kinds -/

/-- Which row of a catalog is meant. -/
structure RowKey where
  kind : EntityKind
  id : Id kind
  deriving DecidableEq

/-- A row of some kind. -/
structure AnyRow where
  kind : EntityKind
  row : kind.Row

/-- Where a row is stored. -/
def AnyRow.key (any : AnyRow) : RowKey := ⟨any.kind, Row.id any.row⟩

/-- Rows of one kind. -/
def AnyRow.ofRows (kind : EntityKind) (rows : List kind.Row) : List AnyRow :=
  rows.map fun row => ⟨kind, row⟩

theorem AnyRow.mem_ofRows {kind : EntityKind} {row : kind.Row} {rows : List kind.Row} :
    (⟨kind, row⟩ : AnyRow) ∈ ofRows kind rows ↔ row ∈ rows := by
  constructor
  · intro h
    obtain ⟨other, hmem, heq⟩ := List.mem_map.mp h
    cases heq
    exact hmem
  · exact fun h => List.mem_map.mpr ⟨row, h, rfl⟩

theorem AnyRow.kind_of_mem_ofRows {kind : EntityKind} {rows : List kind.Row} {any : AnyRow}
    (h : any ∈ ofRows kind rows) : any.kind = kind := by
  obtain ⟨row, _, rfl⟩ := List.mem_map.mp h
  rfl

theorem AnyRow.exists_of_mem_keys {rows : List AnyRow} {kind : EntityKind} {id : Id kind}
    (h : (⟨kind, id⟩ : RowKey) ∈ rows.map key) :
    ∃ row : kind.Row, (⟨kind, row⟩ : AnyRow) ∈ rows ∧ Row.id row = id := by
  obtain ⟨⟨other, row⟩, hmem, heq⟩ := List.mem_map.mp h
  cases heq
  exact ⟨row, hmem, rfl⟩

namespace Tables

variable {tables : Tables} {kind : EntityKind} {row : kind.Row} {id : Id kind}

theorem find?_put_of_key_ne (tables : Tables) {other : EntityKind} (row : kind.Row)
    (id : Id other) (h : (⟨kind, Row.id row⟩ : RowKey) ≠ ⟨other, id⟩) :
    (tables.put row).find? id = tables.find? id := by
  by_cases hkind : kind = other
  · subst hkind
    have hid : Row.id row ≠ id := fun heq => h (heq ▸ rfl)
    rw [find?_put, if_neg hid]
  · rw [put, find?, table_setTable_of_ne tables _ hkind]
    rfl

/-- What is found after a row was put: that row, or what was found before. -/
theorem of_find?_put {other : EntityKind} {new : kind.Row} {row : other.Row} {id : Id other}
    (h : (tables.put new).find? id = some row) :
    (⟨kind, new⟩ : AnyRow) = ⟨other, row⟩ ∨
      (⟨kind, Row.id new⟩ : RowKey) ≠ ⟨other, id⟩ ∧ tables.find? id = some row := by
  by_cases hkey : (⟨kind, Row.id new⟩ : RowKey) = ⟨other, id⟩
  · cases hkey
    rw [find?_put_self] at h
    cases h
    exact .inl rfl
  · exact .inr ⟨hkey, by rwa [find?_put_of_key_ne tables new id hkey] at h⟩

/-- The tables with some rows put one after the other. -/
def putAll (tables : Tables) (rows : List AnyRow) : Tables :=
  rows.foldl (fun next any => next.put any.row) tables

@[simp] theorem putAll_nil (tables : Tables) : tables.putAll [] = tables := rfl

@[simp] theorem putAll_cons (tables : Tables) (any : AnyRow) (rows : List AnyRow) :
    tables.putAll (any :: rows) = (tables.put any.row).putAll rows := rfl

theorem putAll_append (tables : Tables) (rows more : List AnyRow) :
    tables.putAll (rows ++ more) = (tables.putAll rows).putAll more :=
  List.foldl_append

theorem find?_putAll_of_not_mem (id : Id kind) (rows : List AnyRow) (tables : Tables)
    (h : (⟨kind, id⟩ : RowKey) ∉ rows.map AnyRow.key) :
    (tables.putAll rows).find? id = tables.find? id := by
  induction rows generalizing tables with
  | nil => rfl
  | cons any rest ih =>
      obtain ⟨hany, hrest⟩ := List.ne_and_not_mem_of_not_mem_cons h
      rw [putAll_cons, ih _ hrest, find?_put_of_key_ne tables any.row id hany.symm]

/-- Of rows under different keys, each one that was put is found. -/
theorem find?_putAll_of_mem (rows : List AnyRow) (tables : Tables)
    (hdistinct : (rows.map AnyRow.key).Nodup) (h : (⟨kind, row⟩ : AnyRow) ∈ rows) :
    (tables.putAll rows).find? (Row.id row) = some row := by
  induction rows generalizing tables with
  | nil => cases h
  | cons any rest ih =>
      obtain ⟨hany, hrest⟩ := List.nodup_cons.mp hdistinct
      rw [putAll_cons]
      rcases List.mem_cons.mp h with rfl | h
      · rw [find?_putAll_of_not_mem _ rest _ hany, find?_put_self]
      · exact ih _ hrest h

/-- The rows of the tables after some rows were put under different keys: those
rows, and what was there under other keys. -/
theorem find?_putAll_eq_some (rows : List AnyRow) (tables : Tables)
    (hdistinct : (rows.map AnyRow.key).Nodup) :
    (tables.putAll rows).find? id = some row ↔
      (⟨kind, row⟩ : AnyRow) ∈ rows ∧ Row.id row = id ∨
        (⟨kind, id⟩ : RowKey) ∉ rows.map AnyRow.key ∧ tables.find? id = some row := by
  constructor
  · intro h
    by_cases hkey : (⟨kind, id⟩ : RowKey) ∈ rows.map AnyRow.key
    · obtain ⟨other, hmem, rfl⟩ := AnyRow.exists_of_mem_keys hkey
      rw [find?_putAll_of_mem rows tables hdistinct hmem] at h
      cases h
      exact .inl ⟨hmem, rfl⟩
    · exact .inr ⟨hkey, by rwa [find?_putAll_of_not_mem id rows tables hkey] at h⟩
  · rintro (⟨hmem, rfl⟩ | ⟨hkey, h⟩)
    · exact find?_putAll_of_mem rows tables hdistinct hmem
    · rwa [find?_putAll_of_not_mem id rows tables hkey]

end Tables

end VariantCatalog
