/-
# Statements read by place

What a database is taken to make of a statement, and no more: the expressions of an
insertion go to its columns by their places, an update writes each expression into
the column that it is listed with, a parameter is found by its place, and the columns
that are asked for come back.  Which number a new row gets, what the clock shows and
which statements are refused is up to the database.

The catalog writes its rows from lists of columns with their contents.  Read by place,
such a statement puts each content into its column.
-/

import VariantCatalog.Sql.Peer

namespace VariantCatalog.Sql

open VariantCatalog.Calendar

/-! ## Cells -/

/-- What the columns of a stored row hold. -/
abbrev Cells := String → Datum

namespace Cells

/-- The record of some columns. -/
def project (cells : Cells) (columns : List String) : Record :=
  columns.map fun column => (column, cells column)

/-- The cells after contents were written into columns. A column that none is for
keeps what it holds. -/
def write (cells : Cells) (contents : List (String × Datum)) : Cells := fun column =>
  (contents.lookup column).getD (cells column)

/-- Whether columns hold these contents. -/
def Shows (cells : Cells) (contents : List (String × Datum)) : Prop :=
  ∀ content ∈ contents, cells content.1 = content.2

/-- What a row holds before an insertion has filled its columns in: a number, the
moment of its creation, and no stamp. The other columns hold what the database
likes. -/
structure IsBlank (cells : Cells) (number : Int) (now : Moment) : Prop where
  id : cells "id" = .integer number
  createdOn : cells "created_on" = .moment now
  updatedOn : cells "updated_on" = .null
  archivedOn : cells "archived_on" = .null

variable {cells : Cells} {contents more : List (String × Datum)} {column : String}

theorem lookup_project {columns : List String} (h : column ∈ columns) :
    (cells.project columns).lookup column = some (cells column) := by
  induction columns with
  | nil => cases h
  | cons first rest ih =>
      by_cases hfirst : column = first
      · rw [hfirst, project, List.map_cons, List.lookup_cons_self]
      · have hmem : column ∈ rest := (List.mem_cons.mp h).resolve_left hfirst
        rw [← ih hmem, project, List.map_cons, List.lookup_cons, beq_false_of_ne hfirst]
        rfl

@[simp] theorem shows_nil : cells.Shows [] := by simp [Shows]

@[simp] theorem shows_cons {content : String × Datum} :
    cells.Shows (content :: contents) ↔ cells content.1 = content.2 ∧ cells.Shows contents := by
  simp [Shows]

@[simp] theorem shows_append :
    cells.Shows (contents ++ more) ↔ cells.Shows contents ∧ cells.Shows more := by
  simp [Shows, or_imp, forall_and]

theorem write_of_lookup {datum : Datum} (h : contents.lookup column = some datum) :
    cells.write contents column = datum := by
  rw [write, h, Option.getD_some]

theorem write_of_not_mem (h : column ∉ contents.map (·.1)) :
    cells.write contents column = cells column := by
  have hlookup : contents.lookup column = none := by
    rw [List.lookup_eq_none_iff]
    intro content hmem
    have hne : column ≠ content.1 := fun heq => h (heq ▸ List.mem_map_of_mem hmem)
    exact bne_iff_ne.mpr hne
  rw [write, hlookup, Option.getD_none]

/-- Where no column is listed twice, each content arrives. -/
theorem shows_write (cells : Cells) (h : (contents.map (·.1)).Nodup) :
    (cells.write contents).Shows contents := by
  intro content hmem
  refine write_of_lookup ?_
  induction contents with
  | nil => cases hmem
  | cons first rest ih =>
      rw [List.map_cons, List.nodup_cons] at h
      rcases List.mem_cons.mp hmem with rfl | hmem
      · exact List.lookup_cons_self
      · have hne : content.1 ≠ first.1 := fun heq => h.1 (heq ▸ List.mem_map_of_mem hmem)
        rw [List.lookup_cons, beq_false_of_ne hne]
        exact ih h.2 hmem

/-- Contents that are for other columns leave a row as new as it was. -/
theorem IsBlank.write {number : Int} {now : Moment} (h : cells.IsBlank number now)
    (hcolumns : ∀ column ∈ "id" :: lifecycleColumns, column ∉ contents.map (·.1)) :
    (cells.write contents).IsBlank number now := by
  simp only [lifecycleColumns, List.forall_mem_cons] at hcolumns
  obtain ⟨hid, hcreated, hupdated, harchived, -⟩ := hcolumns
  exact
    { id := (write_of_not_mem hid).trans h.id
      createdOn := (write_of_not_mem hcreated).trans h.createdOn
      updatedOn := (write_of_not_mem hupdated).trans h.updatedOn
      archivedOn := (write_of_not_mem harchived).trans h.archivedOn }

/-- The column that is written last, asked for by itself. -/
theorem project_write_last {datum : Datum} (h : (contents.map (·.1) ++ [column]).Nodup) :
    (cells.write (contents ++ [(column, datum)])).project [column] = [(column, datum)] := by
  have hnodup : ((contents ++ [(column, datum)]).map (·.1)).Nodup := by simpa using h
  have hshows := cells.shows_write hnodup
  rw [shows_append, shows_cons] at hshows
  rw [project, List.map_singleton, hshows.2.1]

end Cells

/-! ## Places -/

/-- The parameter at a place. -/
def parameterAt (parameters : List Datum) (place : Nat) : Datum :=
  parameters.getD (place - 1) .null

/-- A datum, or another one where it is null. -/
def Datum.orElse (datum other : Datum) : Datum :=
  match datum with
  | .null => other
  | datum => datum

/-- What an expression stands for. -/
def Expression.datum (now : Moment) (parameters : List Datum) : Expression → Datum
  | .parameter place => parameterAt parameters place
  | .parameterOrNow place => (parameterAt parameters place).orElse (.moment now)
  | .now => .moment now

/-- What columns are given by expressions. -/
def assigned (now : Moment) (parameters : List Datum) (entries : List (String × Expression)) :
    List (String × Datum) :=
  entries.map fun entry => (entry.1, entry.2.datum now parameters)

/-- Whether a row meets a condition. A null equals nothing. -/
def Condition.isMet (parameters : List Datum) (cells : Cells) : Condition → Bool
  | .equals column place =>
    cells column = parameterAt parameters place && cells column ≠ .null
  | .isNull column => cells column = .null

/-- The rows that a database with states `σ` keeps: by the name of their table and
the number that they were given there. -/
abbrev View (σ : Type) := σ → String → Int → Option Cells

variable {σ : Type}

/-- A row of a table that meets some conditions. -/
def View.Hits (stored : View σ) (state : σ) (table : String) (conditions : List Condition)
    (parameters : List Datum) (number : Int) (cells : Cells) : Prop :=
  stored state table number = some cells ∧
    ∀ condition ∈ conditions, condition.isMet parameters cells

/-- Whether a database refuses a command. -/
def Refuses (peer : Peer σ) (command : Command) (state : σ) : Prop :=
  ∃ refusal, (peer command state).1 = .refused refusal

/-- A database that reads the insertion of a row and an update by place, unless it
refuses them. -/
structure ByPlace (peer : Peer σ) (stored : View σ) : Prop where
  insert (layout : Layout) (table : String) (columns : List String) (group : List Expression)
    (returning : List String) (parameters : List Datum) (state : σ) :
    let command : Command := ⟨.insert layout table columns [group] returning, parameters⟩
    ¬ Refuses peer command state →
      ∃ (number : Int) (now : Moment) (blank : Cells) (after : σ), blank.IsBlank number now ∧
        let cells := blank.write (assigned now parameters (columns.zip group))
        peer command state = (.records [cells.project returning], after) ∧
          stored after table number = some cells
  update (table : String) (assignments : List (String × Expression))
    (conditions : List Condition) (returning : List String) (parameters : List Datum) (state : σ) :
    let command : Command := ⟨.update table assignments conditions returning, parameters⟩
    returning ≠ [] → ¬ Refuses peer command state →
      ∃ (now : Moment) (records : List Record) (after : σ),
        let contents := assigned now parameters assignments
        peer command state = (.records records, after) ∧
          (∀ record, record ∈ records ↔ ∃ number cells,
            stored.Hits state table conditions parameters number cells ∧
              record = (cells.write contents).project returning) ∧
          ∀ number cells, stored.Hits state table conditions parameters number cells →
            stored after table number = some (cells.write contents)

/-! ## Rows that the catalog writes -/

/-- A content as it is written by an insertion: the column that may be left to the
database is filled in where the content is null. -/
def filledIn (now : Moment) (content : String × Datum) : String × Datum :=
  (content.1, if content.1 = openColumn then content.2.orElse (.moment now) else content.2)

section Rows

variable {contents : List (String × Datum)} {index : Nat}

/-- The contents are the parameters, in the same order. -/
theorem parameterAt_succ (h : index < contents.length) :
    parameterAt (contents.map (·.2)) (index + 1) = contents[index].2 := by
  rw [parameterAt, Nat.add_sub_cancel, List.getD_eq_getElem?_getD, List.getElem?_map,
    List.getElem?_eq_getElem h]
  rfl

theorem datum_expressionFor (now : Moment) (h : index < contents.length) :
    (Command.expressionFor contents[index].1 (index + 1)).datum now (contents.map (·.2)) =
      (filledIn now contents[index]).2 := by
  rw [Command.expressionFor, filledIn]
  split <;> rw [Expression.datum, parameterAt_succ h]

/-- Each column of an insertion gets its own content. -/
theorem assigned_insertRow (now : Moment) (contents : List (String × Datum)) :
    assigned now (contents.map (·.2))
        ((contents.map (·.1)).zip
          (contents.mapIdx fun index content => Command.expressionFor content.1 (index + 1))) =
      contents.map (filledIn now) := by
  refine List.ext_getElem (by simp [assigned]) fun index _ hindex => ?_
  have hlt : index < contents.length := by simpa using hindex
  simp only [assigned, List.getElem_map, List.getElem_zip, List.getElem_mapIdx,
    datum_expressionFor now hlt]
  rfl

/-- Each column of an update gets its own content; the parameter at place one is the
identifier. -/
theorem assigned_updateRow (now : Moment) (id : Datum) (contents : List (String × Datum)) :
    assigned now (id :: contents.map (·.2))
        ((contents.mapIdx fun index content => (content.1, .parameter (index + 2))) ++
          [("updated_on", .now)]) =
      contents ++ [("updated_on", .moment now)] := by
  rw [assigned, List.map_append]
  congr 1
  refine List.ext_getElem (by simp) fun index _ hlt => ?_
  have hparameter : parameterAt (id :: contents.map (·.2)) (index + 2) = contents[index].2 :=
    parameterAt_succ hlt
  simp only [List.getElem_map, List.getElem_mapIdx, Expression.datum, hparameter]

end Rows

namespace ByPlace

variable {peer : Peer σ} {stored : View σ} {kind : EntityKind} {state : σ}

/-- An insertion of a row leaves each content in its column, and the columns of the
lifecycle as they are in a row that is new. -/
theorem insertRow (h : ByPlace peer stored) {layout : Layout} {contents : List (String × Datum)}
    (hcolumns : ("id" :: lifecycleColumns ++ contents.map (·.1)).Nodup)
    (hserved : ¬ Refuses peer (Command.insertRow layout kind contents) state) :
    ∃ (number : Int) (now : Moment) (cells : Cells) (after : σ), cells.IsBlank number now ∧
      cells.Shows (contents.map (filledIn now)) ∧
      peer (Command.insertRow layout kind contents) state =
        (.records [cells.project (columnNames kind)], after) ∧
      stored after (tableName kind) number = some cells := by
  obtain ⟨number, now, blank, after, hblank, hpeer, hstored⟩ := h.insert _ _ _ _ _ _ _ hserved
  rw [assigned_insertRow] at hpeer hstored
  have hnames : (contents.map (filledIn now)).map (·.1) = contents.map (·.1) := by
    rw [List.map_map]
    rfl
  obtain ⟨-, hnodup, hapart⟩ := List.nodup_append.mp hcolumns
  refine ⟨number, now, _, after, hblank.write fun column hmem => ?_,
    blank.shows_write (hnames ▸ hnodup), hpeer, hstored⟩
  rw [hnames]
  exact fun hwritten => hapart column hmem column hwritten rfl

/-- An update of a live row leaves each content in its column, stamps the row, and
touches no other column. -/
theorem updateRow (h : ByPlace peer stored) {id : Id kind} {contents : List (String × Datum)}
    {cells : Cells} (hstored : stored state (tableName kind) id.number = some cells)
    (hid : cells "id" = .integer id.number) (hlive : cells "archived_on" = .null)
    (hcolumns : (contents.map (·.1) ++ ["updated_on"]).Nodup)
    (hserved : ¬ Refuses peer (Command.updateRow id contents) state) :
    ∃ (now : Moment) (rest : List Record) (edited : Cells) (after : σ),
      edited.Shows (contents ++ [("updated_on", .moment now)]) ∧
      (∀ column ∉ contents.map (·.1) ++ ["updated_on"], edited column = cells column) ∧
      peer (Command.updateRow id contents) state =
        (.records ([("updated_on", .moment now)] :: rest), after) ∧
      stored after (tableName kind) id.number = some edited := by
  obtain ⟨now, records, after, hpeer, hrecords, hafter⟩ :=
    h.update _ _ _ _ _ _ (by decide) hserved
  rw [assigned_updateRow] at hrecords hafter
  have hhit : stored.Hits state (tableName kind) [.equals "id" 1, Command.live]
      (.integer id.number :: contents.map (·.2)) id.number cells := by
    refine ⟨hstored, ?_⟩
    simp [Condition.isMet, Command.live, parameterAt, hid, hlive]
  have hnodup : ((contents ++ [("updated_on", Datum.moment now)]).map (·.1)).Nodup := by
    simpa using hcolumns
  -- Whichever row a record is of, all that it has is the stamp.
  have hsame : ∀ record ∈ records, record = [("updated_on", .moment now)] := by
    intro record hmem
    obtain ⟨_, row, _, rfl⟩ := (hrecords record).mp hmem
    exact Cells.project_write_last hcolumns
  have hmem : [("updated_on", .moment now)] ∈ records :=
    (hrecords _).mpr ⟨_, cells, hhit, (Cells.project_write_last hcolumns).symm⟩
  have hothers : ∀ column ∉ contents.map (·.1) ++ ["updated_on"],
      cells.write (contents ++ [("updated_on", .moment now)]) column = cells column := by
    intro column hcolumn
    exact Cells.write_of_not_mem (by simpa using hcolumn)
  cases records with
  | nil => cases hmem
  | cons first rest =>
      rw [hsame first List.mem_cons_self] at hpeer
      exact ⟨now, rest, _, after, cells.shows_write hnodup, hothers, hpeer, hafter _ _ hhit⟩

end ByPlace

/-! ## A database that does nothing else -/

/-- A database of rows without constraints: the row with the number `n` is the `n`-th
that was stored in its table. -/
structure Shelf where
  clock : Nat
  rows : String → List Cells

namespace Shelf

/-- A database where nothing is stored. -/
def empty : Shelf := ⟨0, fun _ => []⟩

/-- The rows by their numbers. -/
def stored : View Shelf := fun shelf table number =>
  if 0 < number then (shelf.rows table)[(number - 1).toNat]? else none

/-- The database after the rows of a table were replaced. -/
def put (shelf : Shelf) (table : String) (rows : List Cells) : Shelf where
  clock := shelf.clock + 1
  rows other := if other = table then rows else shelf.rows other

/-- A row that nothing was written into. -/
def blank (number : Int) (now : Moment) : Cells := fun column =>
  if column = "id" then .integer number
  else if column = "created_on" then .moment now
  else .null

/-- Insertions of a row and updates are read by place, other commands refused. -/
def serve : Peer Shelf := fun command shelf =>
  let now : Moment := .reading shelf.clock
  match command.statement with
  | .insert _ table columns [group] returning =>
    let rows := shelf.rows table
    let cells := (blank (rows.length + 1) now).write
      (assigned now command.parameters (columns.zip group))
    (.records [cells.project returning], shelf.put table (rows ++ [cells]))
  | .update table assignments conditions returning =>
    let contents := assigned now command.parameters assignments
    let isHit (cells : Cells) := conditions.all (·.isMet command.parameters cells)
    let rows := shelf.rows table
    (.records ((rows.filter isHit).map fun cells => (cells.write contents).project returning),
      shelf.put table (rows.map fun cells => if isHit cells then cells.write contents else cells))
  | _ => (.refused ⟨"0A000", "feature not supported", none⟩, shelf)

variable {shelf : Shelf} {table : String} {cells : Cells}

theorem isBlank_blank (number : Int) (now : Moment) : (blank number now).IsBlank number now :=
  ⟨rfl, rfl, rfl, rfl⟩

theorem rows_put (rows : List Cells) : (shelf.put table rows).rows table = rows :=
  if_pos rfl

theorem mem_rows : cells ∈ shelf.rows table ↔ ∃ number, stored shelf table number = some cells := by
  rw [List.mem_iff_getElem?]
  constructor
  · rintro ⟨index, hindex⟩
    refine ⟨index + 1, ?_⟩
    rw [stored, if_pos (by omega), Int.add_sub_cancel, Int.toNat_natCast, hindex]
  · rintro ⟨number, hstored⟩
    rw [stored] at hstored
    split at hstored
    · exact ⟨_, hstored⟩
    · cases hstored

theorem not_refuses_insertRow (layout : Layout) (kind : EntityKind)
    (contents : List (String × Datum)) (shelf : Shelf) :
    ¬ Refuses serve (Command.insertRow layout kind contents) shelf := by
  rintro ⟨refusal, h⟩
  cases h

theorem not_refuses_updateRow {kind : EntityKind} (id : Id kind)
    (contents : List (String × Datum)) (shelf : Shelf) :
    ¬ Refuses serve (Command.updateRow id contents) shelf := by
  rintro ⟨refusal, h⟩
  cases h

theorem serve_byPlace : ByPlace serve stored where
  insert _ table columns group returning parameters shelf _ := by
    refine ⟨_, .reading shelf.clock, _, _, isBlank_blank _ _, rfl, ?_⟩
    rw [stored, if_pos (by omega), rows_put, Int.add_sub_cancel, Int.toNat_natCast,
      List.getElem?_concat_length]
  update table assignments conditions returning parameters shelf _ _ := by
    refine ⟨.reading shelf.clock, _, _, rfl, fun record => ?_, fun number cells hhit => ?_⟩
    · simp only [List.mem_map, List.mem_filter, mem_rows, List.all_eq_true, View.Hits]
      constructor
      · rintro ⟨cells, ⟨⟨number, hstored⟩, hmeets⟩, rfl⟩
        exact ⟨number, cells, ⟨hstored, hmeets⟩, rfl⟩
      · rintro ⟨number, cells, ⟨hstored, hmeets⟩, rfl⟩
        exact ⟨cells, ⟨⟨number, hstored⟩, hmeets⟩, rfl⟩
    · obtain ⟨hstored, hmeets⟩ := hhit
      rw [stored] at hstored ⊢
      split at hstored
      · next hpos =>
        rw [if_pos hpos, rows_put, List.getElem?_map, hstored, Option.map_some,
          if_pos (List.all_eq_true.mpr hmeets)]
      · cases hstored

end Shelf

end VariantCatalog.Sql
