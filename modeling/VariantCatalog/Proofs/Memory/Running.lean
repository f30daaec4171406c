/-
# Running the steps of a transaction

What each step of work does to a session, as an equation: the reply, and the
session that is left behind.  A session changes in five ways only — an identifier
is drawn, the clock is read, an armed fault is spent, a row is written, the live
rows that satisfy a condition are archived — and each has a name here.  Later
modules run a step by its equation and never open its definition.
-/

import VariantCatalog.Proofs.Memory.Lookup

namespace VariantCatalog.Memory

open VariantCatalog.Calendar

/-! ## Changes -/

/-- The transaction after one more row was written. -/
def Transaction.write (tx : Transaction) {kind : EntityKind} (row : kind.Row) (action : Action) :
    Transaction where
  working := tx.working.put row
  journal := tx.journal ++ [⟨kind, Row.id row, action⟩]

/-- The transaction after the live rows that satisfy a condition were archived. -/
def Transaction.archiveWhere (tx : Transaction) {kind : EntityKind} (condition : kind.Row → Bool)
    (moment : Moment) : Transaction where
  working := tx.working.setTable ((tx.working.table kind).archiveWhere condition moment)
  journal := tx.journal ++
    ((tx.working.table kind).liveRows condition).map fun row => ⟨kind, Row.id row, .archived⟩

namespace Session

/-- The session after an identifier was drawn. -/
def draw (session : Session) (kind : EntityKind) : Session :=
  { session with
    registers :=
      { session.registers with sequences := session.registers.sequences.advance kind } }

/-- The session after the clock was read. -/
def tick (session : Session) : Session :=
  { session with registers := { session.registers with clock := session.registers.clock + 1 } }

/-- The session after an armed fault has struck. -/
def disarm (session : Session) : Session :=
  { session with registers := { session.registers with fault := none } }

/-- The session after a row was written. -/
def write (session : Session) {kind : EntityKind} (row : kind.Row) (action : Action) : Session :=
  { session with transaction := session.transaction.write row action }

/-- The session after the live rows that satisfy a condition were archived. -/
def archiveWhere (session : Session) {kind : EntityKind} (condition : kind.Row → Bool)
    (moment : Moment) : Session :=
  { session with transaction := session.transaction.archiveWhere condition moment }

/-- The identifier that the next row of a kind gets. -/
def nextId (session : Session) (kind : EntityKind) : Id kind :=
  ⟨(session.registers.sequences.advance kind).last kind⟩

/-- The moment that the clock shows. -/
def now (session : Session) : Moment := .reading session.registers.clock

end Session

/-! ## Steps -/

/-- A step that fails ends the work, and what was done before stays done. -/
theorem run_bind {σ α β : Type} (state : σ) (work : ExceptT StoreError (StateM σ) α)
    (next : α → ExceptT StoreError (StateM σ) β) :
    (work >>= next).run.run state =
      match work.run.run state with
      | (.ok result, after) => (next result).run.run after
      | (.error error, after) => (.error error, after) := by
  simp only [ExceptT.run_bind, StateT.run_bind]
  generalize work.run.run state = outcome
  obtain ⟨_ | _, _⟩ := outcome <;> rfl

section Run

variable {α : Type} (session : Session)

theorem run_pure (result : α) : (pure result : Work α).run.run session = (.ok result, session) :=
  rfl

theorem run_workingTables :
    workingTables.run.run session = (.ok session.transaction.working, session) := rfl

theorem run_readClock : readClock.run.run session = (.ok session.now, session.tick) := rfl

theorem run_drawId (kind : EntityKind) :
    (drawId kind).run.run session = (.ok (session.nextId kind), session.draw kind) := rfl

theorem run_writeRow {kind : EntityKind} (row : kind.Row) (action : Action) :
    (writeRow row action).run.run session = (.ok (), session.write row action) := rfl

theorem run_ensureFits {kind : EntityKind} (row : kind.Row) :
    (ensureFits row).run.run session = (session.transaction.working.check row, session) := by
  rw [ensureFits, run_bind, run_workingTables]
  dsimp only
  cases session.transaction.working.check row <;> rfl

theorem run_findLive {kind : EntityKind} (id : Id kind) :
    (findLive id).run.run session =
      match session.transaction.working.live? id with
      | none => (.error (.notLive id), session)
      | some row => (.ok row, session) := by
  rw [findLive, run_bind, run_workingTables]
  dsimp only
  cases session.transaction.working.live? id <;> rfl

theorem run_passFault (point : FaultPoint) :
    (passFault point).run.run session =
      if session.registers.fault = some point then (.error point.error, session.disarm)
      else (.ok (), session) := by
  have hrun : (passFault point).run.run session =
      ((session.registers.strike point).1,
        { session with registers := (session.registers.strike point).2 }) := rfl
  rw [hrun, Registers.strike]
  split <;> rfl

theorem run_create (kind : EntityKind) (build : Id kind → kind.Row) :
    (create kind build).run.run session =
      match session.transaction.working.check (build (session.nextId kind)) with
      | .error error => (.error error, session.draw kind)
      | .ok () =>
        (.ok (build (session.nextId kind)),
          (session.draw kind).write (build (session.nextId kind)) .created) := by
  have hworking : (session.draw kind).transaction.working = session.transaction.working := rfl
  simp only [create, run_bind, run_drawId, run_ensureFits, run_writeRow, run_pure, hworking]
  cases session.transaction.working.check (build (session.nextId kind)) <;> rfl

theorem run_revise (kind : EntityKind) (id : Id kind) (edit : kind.Row → Moment → kind.Row) :
    (revise kind id edit).run.run session =
      match session.transaction.working.live? id with
      | none => (.error (.notLive id), session)
      | some row => (.ok session.now, session.tick.write (edit row session.now) .updated) := by
  simp only [revise, run_bind, run_findLive, run_readClock, run_writeRow, run_pure]
  cases session.transaction.working.live? id <;> rfl

theorem run_reviseChecked (kind : EntityKind) (id : Id kind)
    (edit : kind.Row → Moment → kind.Row) :
    (reviseChecked kind id edit).run.run session =
      match session.transaction.working.live? id with
      | none => (.error (.notLive id), session)
      | some row =>
        match session.transaction.working.check (edit row session.now) with
        | .error error => (.error error, session.tick)
        | .ok () => (.ok session.now, session.tick.write (edit row session.now) .updated) := by
  simp only [reviseChecked, run_bind, run_findLive, run_readClock, run_ensureFits, run_writeRow,
    run_pure]
  cases session.transaction.working.live? id with
  | none => rfl
  | some row =>
      have hworking : session.tick.transaction.working = session.transaction.working := rfl
      simp only [hworking]
      cases session.transaction.working.check (edit row session.now) <;> rfl

theorem run_archive {kind : EntityKind} (id : Id kind) :
    (archive id).run.run session =
      match session.transaction.working.live? id with
      | none => (.error (.notLive id), session)
      | some row =>
        (.ok session.now, session.tick.write (Row.archive row session.now) .archived) := by
  simp only [archive, run_bind, run_findLive, run_readClock, run_writeRow, run_pure]
  cases session.transaction.working.live? id <;> rfl

theorem run_archiveWhere (kind : EntityKind) (condition : kind.Row → Bool) :
    (archiveWhere kind condition).run.run session =
      (.ok ((session.transaction.working.table kind).liveRows condition).length,
        session.tick.archiveWhere condition session.now) := rfl

/-! ## Calls -/

/-- A query changes nothing and never fails. -/
theorem run_query (query : Query) :
    (answerCall (.query query)).run.run session =
      (.ok (answerQuery session.transaction.working query), session) := rfl

/-- A write is struck by the fault that is armed at its point, or carried out. -/
theorem run_write (change : Write) :
    (answerCall (.write change)).run.run session =
      if session.registers.fault = some (faultPoint change) then
        (.error (faultPoint change).error, session.disarm)
      else (carryOut change).run.run session := by
  rw [answerCall, run_bind, run_passFault]
  by_cases h : session.registers.fault = some (faultPoint change)
  · simp only [h, if_true]
  · simp only [h, if_false]

end Run

/-- The first half of a commit is struck by the fault that is armed there, or does
nothing. -/
theorem prepare_eq (memory : Memory) :
    memory.prepare =
      if memory.registers.fault = some .commit then
        (.error FaultPoint.commit.error,
          { memory with registers := { memory.registers with fault := none } })
      else (.ok (), memory) := by
  rw [prepare, Registers.strike]
  by_cases h : memory.registers.fault = some .commit
  · rw [if_pos h, if_pos h]
  · rw [if_neg h, if_neg h]

/-- Sequences only ever move up. -/
theorem Sequences.last_advance (sequences : Sequences) (kind : EntityKind) :
    (sequences.advance kind).last kind = sequences.last kind + 1 := by
  cases kind <;> rfl

theorem Sequences.last_advance_of_ne (sequences : Sequences) {kind other : EntityKind}
    (h : kind ≠ other) : (sequences.advance kind).last other = sequences.last other := by
  cases kind <;> cases other <;> first | rfl | exact absurd rfl h

end VariantCatalog.Memory
