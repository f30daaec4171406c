/-
# Tables of rows

A table holds rows of one kind, each under its own identifier and in the order of
the identifiers.  Identifiers are handed out in ascending order, so this is also
the order in which the rows were created.  The order is part of the type, and no
identifier can occur twice.
-/

import VariantCatalog.Entity.Row

namespace VariantCatalog

open VariantCatalog.Calendar

namespace Row

variable {kind : EntityKind}

/-- Whether one row comes before another. -/
def Precedes (first second : kind.Row) : Prop :=
  (id first).number < (id second).number

/-- Put a row where its identifier belongs, in place of a row that has the same
one. -/
def insert (row : kind.Row) : List kind.Row → List kind.Row
  | [] => [row]
  | other :: rest =>
    if (id row).number < (id other).number then row :: other :: rest
    else if (id row).number = (id other).number then row :: rest
    else other :: insert row rest

theorem mem_of_mem_insert {row other : kind.Row} :
    ∀ {rows : List kind.Row}, other ∈ insert row rows → other = row ∨ other ∈ rows
  | [], h => .inl (List.mem_singleton.mp h)
  | first :: rest, h => by
    simp only [insert] at h
    split at h
    · exact List.mem_cons.mp h
    · split at h
      · exact (List.mem_cons.mp h).imp_right (List.mem_cons_of_mem first)
      · rcases List.mem_cons.mp h with rfl | h
        · exact .inr List.mem_cons_self
        · exact (mem_of_mem_insert h).imp_right (List.mem_cons_of_mem first)

theorem pairwise_insert {row : kind.Row} :
    ∀ {rows : List kind.Row}, rows.Pairwise Precedes → (insert row rows).Pairwise Precedes
  | [], _ => List.pairwise_singleton _ _
  | first :: rest, h => by
    obtain ⟨hfirst, hrest⟩ := List.pairwise_cons.mp h
    simp only [insert]
    split
    · next hlt =>
      refine List.pairwise_cons.mpr ⟨fun other hother => ?_, h⟩
      rcases List.mem_cons.mp hother with rfl | hother
      · exact hlt
      · exact Int.lt_trans hlt (hfirst other hother)
    · split
      · next heq =>
        refine List.pairwise_cons.mpr ⟨fun other hother => ?_, hrest⟩
        exact Int.lt_of_le_of_lt (Int.le_of_eq heq) (hfirst other hother)
      · next hlt hne =>
        refine List.pairwise_cons.mpr ⟨fun other hother => ?_, pairwise_insert hrest⟩
        rcases mem_of_mem_insert hother with rfl | hother
        · exact Int.lt_iff_le_and_ne.mpr ⟨Int.not_lt.mp hlt, Ne.symm hne⟩
        · exact hfirst other hother

end Row

/-- The rows of a kind, in the order of their identifiers. -/
structure Table (kind : EntityKind) where
  rows : List kind.Row
  ascending : rows.Pairwise Row.Precedes

namespace Table

variable {kind : EntityKind}

@[ext] theorem ext {first second : Table kind} (h : first.rows = second.rows) :
    first = second := by
  cases first
  cases second
  cases h
  rfl

/-- The table without rows. -/
def empty : Table kind := ⟨[], List.Pairwise.nil⟩

/-- The row with an identifier. -/
def find? (table : Table kind) (id : Id kind) : Option kind.Row :=
  table.rows.find? (Row.id · = id)

/-- The row with an identifier, if it is live. -/
def live? (table : Table kind) (id : Id kind) : Option kind.Row :=
  (table.find? id).filter Row.isLive

/-- Whether there is a row with an identifier. -/
def contains (table : Table kind) (id : Id kind) : Bool :=
  (table.find? id).isSome

/-- The table with a row under its identifier. -/
def put (table : Table kind) (row : kind.Row) : Table kind :=
  ⟨Row.insert row table.rows, Row.pairwise_insert table.ascending⟩

/-- The live rows that satisfy a condition. -/
def liveRows (table : Table kind) (condition : kind.Row → Bool) : List kind.Row :=
  table.rows.filter fun row => Row.isLive row && condition row

/-- The number of rows that are archived. -/
def archivedCount (table : Table kind) : Nat :=
  table.rows.countP fun row => !Row.isLive row

/-- The table with the rows that satisfy a condition stamped as archived, those
that are archived already keeping their stamp. -/
def archiveWhere (table : Table kind) (condition : kind.Row → Bool) (moment : Moment) :
    Table kind where
  rows := table.rows.map fun row => if condition row then Row.archive row moment else row
  ascending := by
    refine List.pairwise_map.mpr (table.ascending.imp fun {first second} h => ?_)
    have hid : ∀ row : kind.Row,
        Row.id (if condition row then Row.archive row moment else row) = Row.id row := fun row => by
      split
      · exact Row.id_archive row moment
      · rfl
    simpa only [Row.Precedes, hid] using h

end Table

end VariantCatalog
