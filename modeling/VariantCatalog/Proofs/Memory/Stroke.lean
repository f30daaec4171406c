/-
# What a call can do to a session

A call that no fault strikes does a sequence of strokes to its session, however it
ends: the clock is read, an identifier is drawn in vain, one row is created, edited
or archived.  `Stroke` says of each all that can be said without knowing the call,
and `strokes_answerCall` that there is nothing else.  An invariant of sessions is
therefore proved stroke by stroke, five cases in all, and never call by call.

An edit leaves alone what anchors a row in the catalog, and an archived row is
never touched again: `Row.Succeeds` is the relation between a row and what may
become of it.
-/

import VariantCatalog.Proofs.Memory.Running
import Mathlib.Logic.Relation

namespace VariantCatalog

open VariantCatalog.Calendar

/-! ## What becomes of a row -/

namespace Row

variable {kind : EntityKind}

@[simp] theorem withLifecycle_lifecycle (row : kind.Row) :
    withLifecycle row (lifecycle row) = row := by
  cases kind <;> rfl

theorem archive_of_not_live {row : kind.Row} (h : isLive row = false) (moment : Moment) :
    archive row moment = row := by
  have hlive : (lifecycle row).isLive = false := h
  simp only [archive, Lifecycle.archive, hlive, Bool.false_eq_true, if_false,
    withLifecycle_lifecycle]

theorem archive_of_isLive {row : kind.Row} (h : isLive row) (moment : Moment) :
    archive row moment = withLifecycle row { lifecycle row with archivedOn := some moment } := by
  have hlive : (lifecycle row).isLive = true := h
  rw [archive, Lifecycle.archive, if_pos hlive]

@[simp] theorem isLive_archive (row : kind.Row) (moment : Moment) :
    isLive (archive row moment) = false := by
  simp only [isLive, archive, lifecycle_withLifecycle, Lifecycle.archive]
  split
  · rfl
  · next h => simpa only [Bool.not_eq_true] using h

theorem createdOn_archive (row : kind.Row) (moment : Moment) :
    (lifecycle (archive row moment)).createdOn = (lifecycle row).createdOn := by
  simp only [archive, lifecycle_withLifecycle, Lifecycle.archive]
  split <;> rfl

/-- A row without anything that reads load into it from other rows. -/
def IsBare : {kind : EntityKind} → kind.Row → Prop
  | .root, _ => True
  | .option, row => ProductOption.values row = []
  | .value, _ => True
  | .product, row => Product.optionValues row = []
  | .bridge, _ => True

theorem isBare_archive {row : kind.Row} (moment : Moment) :
    IsBare (archive row moment) ↔ IsBare row := by
  cases kind <;> rfl

/-- What no edit can change: the prefix of a root, the place of a row in the
catalog, and the names that a variant was given. A bridge can be pointed
elsewhere. -/
def SameAnchor : {kind : EntityKind} → kind.Row → kind.Row → Prop
  | .root => fun (first second : ProductRoot) => second.skuPrefix = first.skuPrefix
  | .option => fun (first second : ProductOption) => second.root = first.root
  | .value => fun (first second : OptionValue) => second.option = first.option
  | .product => fun (first second : Product) =>
    second.root = first.root ∧ second.sku = first.sku ∧
      second.optionSummary = first.optionSummary
  | .bridge => fun _ _ => True

theorem sameAnchor_refl (row : kind.Row) : SameAnchor row row := by
  cases kind <;> simp only [SameAnchor, and_self]

theorem SameAnchor.trans {first second third : kind.Row} (h : SameAnchor first second)
    (hnext : SameAnchor second third) : SameAnchor first third := by
  cases kind with
  | root => exact Eq.trans hnext h
  | option => exact Eq.trans hnext h
  | value => exact Eq.trans hnext h
  | product => exact ⟨hnext.1.trans h.1, hnext.2.1.trans h.2.1, hnext.2.2.trans h.2.2⟩
  | bridge => trivial

theorem sameAnchor_withLifecycle (row : kind.Row) (new : Lifecycle) :
    SameAnchor row (withLifecycle row new) := by
  cases kind <;> simp only [SameAnchor, withLifecycle, and_self]

/-- What may become of a row: it keeps its identifier, the moment of its creation
and its anchor, and nothing becomes of it once it is archived. -/
structure Succeeds (old new : kind.Row) : Prop where
  id : Row.id new = Row.id old
  createdOn : (lifecycle new).createdOn = (lifecycle old).createdOn
  anchor : SameAnchor old new
  final : isLive old = false → new = old

namespace Succeeds

theorem refl (row : kind.Row) : Succeeds row row :=
  ⟨rfl, rfl, sameAnchor_refl row, fun _ => rfl⟩

theorem trans {first second third : kind.Row} (h : Succeeds first second)
    (hnext : Succeeds second third) : Succeeds first third where
  id := hnext.id.trans h.id
  createdOn := hnext.createdOn.trans h.createdOn
  anchor := h.anchor.trans hnext.anchor
  final hdead := by
    have hsecond := h.final hdead
    rw [hnext.final (by rw [hsecond]; exact hdead), hsecond]

/-- A row that becomes a live one was live. -/
theorem isLive_of_isLive {old new : kind.Row} (h : Succeeds old new) (hlive : isLive new) :
    isLive old := by
  cases hold : isLive old with
  | true => rfl
  | false =>
      rw [h.final hold, hold] at hlive
      exact absurd hlive Bool.false_ne_true

theorem archive (row : kind.Row) (moment : Moment) : Succeeds row (Row.archive row moment) where
  id := id_archive row moment
  createdOn := createdOn_archive row moment
  anchor := sameAnchor_withLifecycle row _
  final hdead := archive_of_not_live hdead moment

end Succeeds

end Row

/-- Whether all that the constraints say of the rows of a kind is about their anchors. -/
def EntityKind.IsAnchored : EntityKind → Prop
  | .root => True
  | .option => False
  | .value => False
  | .product => True
  | .bridge => False

namespace Memory

/-! ## Strokes -/

/-- One thing that a call can do to its session. -/
inductive Stroke : Session → Session → Prop
  /-- The clock is read. -/
  | tick (session : Session) : Stroke session session.tick
  /-- An identifier is drawn for a row that does not fit. -/
  | draw (session : Session) (kind : EntityKind) : Stroke session (session.draw kind)
  /-- A row that fits is created under a new identifier. -/
  | create (session : Session) {kind : EntityKind} (row : kind.Row)
      (id : Row.id row = session.nextId kind) (live : Row.isLive row) (bare : Row.IsBare row)
      (fits : session.transaction.working.check row = .ok ()) :
      Stroke session ((session.draw kind).write row .created)
  /-- A live row is edited. That it still fits is checked unless its anchor is all that its
  constraints are about. -/
  | revise (session : Session) {kind : EntityKind} (old new : kind.Row)
      (found : session.transaction.working.find? (Row.id new) = some old)
      (live : Row.isLive old) (stays : Row.isLive new) (succeeds : Row.Succeeds old new)
      (bare : Row.IsBare old → Row.IsBare new)
      (fits : kind.IsAnchored ∨ session.transaction.working.check new = .ok ()) :
      Stroke session (session.write new .updated)
  /-- A live row is archived. -/
  | retire (session : Session) {kind : EntityKind} (row : kind.Row) (moment : Moment)
      (found : session.transaction.working.find? (Row.id row) = some row)
      (live : Row.isLive row) :
      Stroke session (session.write (Row.archive row moment) .archived)

/-- Any number of strokes. -/
def Strokes : Session → Session → Prop := Relation.ReflTransGen Stroke

namespace Strokes

theorem refl (session : Session) : Strokes session session := Relation.ReflTransGen.refl

theorem single {session after : Session} (h : Stroke session after) : Strokes session after :=
  Relation.ReflTransGen.single h

theorem trans {first second third : Session} (h : Strokes first second)
    (hnext : Strokes second third) : Strokes first third :=
  Relation.ReflTransGen.trans h hnext

theorem tick (session : Session) : Strokes session session.tick := single (.tick session)

/-- No stroke touches the fault that is armed. -/
theorem fault_eq {session after : Session} (h : Strokes session after) :
    after.registers.fault = session.registers.fault := by
  induction h with
  | refl => rfl
  | tail _ hlast ih =>
      rw [← ih]
      cases hlast <;> rfl

end Strokes

/-! ## Archiving many rows -/

/-- The transaction after some rows were written, one after the other. -/
def Transaction.writeAll (tx : Transaction) (rows : List AnyRow) (action : Action) :
    Transaction where
  working := tx.working.putAll rows
  journal := tx.journal ++ rows.map fun any => ⟨any.kind, Row.id any.row, action⟩

theorem Transaction.writeAll_nil (tx : Transaction) (action : Action) :
    tx.writeAll [] action = tx := by
  simp only [writeAll, Tables.putAll_nil, List.map_nil, List.append_nil]

theorem Transaction.writeAll_cons (tx : Transaction) (any : AnyRow) (rows : List AnyRow)
    (action : Action) :
    tx.writeAll (any :: rows) action = (tx.write any.row action).writeAll rows action := by
  simp only [writeAll, write, Tables.putAll_cons, List.map_cons, List.append_assoc,
    List.singleton_append]

theorem Transaction.writeAll_append (tx : Transaction) (rows more : List AnyRow)
    (action : Action) :
    tx.writeAll (rows ++ more) action = (tx.writeAll rows action).writeAll more action := by
  simp only [writeAll, Tables.putAll_append, List.map_append, List.append_assoc]

/-- Rows of one kind, each as it is when it has been archived. -/
def archivedRows {kind : EntityKind} (rows : List kind.Row) (moment : Moment) : List AnyRow :=
  rows.map fun row => ⟨kind, Row.archive row moment⟩

theorem key_archivedRows {kind : EntityKind} (rows : List kind.Row) (moment : Moment) :
    (archivedRows rows moment).map AnyRow.key = rows.map fun row => ⟨kind, Row.id row⟩ := by
  simp only [archivedRows, List.map_map, Function.comp_def, AnyRow.key, Row.id_archive]

theorem nodup_keys_liveRows {kind : EntityKind} (table : Table kind)
    (condition : kind.Row → Bool) :
    ((table.liveRows condition).map fun row => (⟨kind, Row.id row⟩ : RowKey)).Nodup := by
  refine List.pairwise_map.mpr ((table.ascending_liveRows condition).imp ?_)
  intro first second hlt heq
  have hid : Row.id first = Row.id second := by
    simpa only [RowKey.mk.injEq, heq_eq_eq, true_and] using heq
  exact absurd (Id.number_inj.mpr hid) (Int.ne_of_lt hlt)

/-- To archive the live rows that satisfy a condition is to archive them one after
the other. -/
theorem Transaction.archiveWhere_eq_writeAll (tx : Transaction) {kind : EntityKind}
    (condition : kind.Row → Bool) (moment : Moment) :
    tx.archiveWhere condition moment =
      tx.writeAll (archivedRows ((tx.working.table kind).liveRows condition) moment)
        .archived := by
  have hkeys := key_archivedRows ((tx.working.table kind).liveRows condition) moment
  have hdistinct := nodup_keys_liveRows (tx.working.table kind) condition
  rw [← hkeys] at hdistinct
  have hworking : tx.working.setTable ((tx.working.table kind).archiveWhere condition moment) =
      tx.working.putAll
        (archivedRows ((tx.working.table kind).liveRows condition) moment) := by
    apply Tables.ext_find?
    intro other id
    by_cases hkey : (⟨other, id⟩ : RowKey) ∈
        (archivedRows ((tx.working.table kind).liveRows condition) moment).map AnyRow.key
    · rw [hkeys] at hkey
      obtain ⟨row, hrow, heq⟩ := List.mem_map.mp hkey
      cases heq
      obtain ⟨hmem, hlive, hcondition⟩ := Table.mem_liveRows.mp hrow
      have harchived : (⟨kind, Row.archive row moment⟩ : AnyRow) ∈
          archivedRows ((tx.working.table kind).liveRows condition) moment :=
        List.mem_map.mpr ⟨row, hrow, rfl⟩
      have hput := Tables.find?_putAll_of_mem _ tx.working hdistinct harchived
      rw [Row.id_archive] at hput
      rw [hput, Tables.find?_archiveWhere, Tables.mem_iff.mp hmem, Option.map_some,
        if_pos hcondition]
    · rw [Tables.find?_putAll_of_not_mem id _ tx.working hkey]
      by_cases hkind : kind = other
      · subst hkind
        rw [Tables.find?_archiveWhere]
        cases hfind : tx.working.find? id with
        | none => rfl
        | some row =>
            simp only [Option.map_some, Option.some.injEq]
            split
            · next hcondition =>
              -- Had the row been live, it would be among those that were archived.
              refine Row.archive_of_not_live (Bool.eq_false_iff.mpr fun hlive => hkey ?_) moment
              rw [hkeys, ← Tables.id_of_find? hfind]
              exact List.mem_map.mpr ⟨row, Table.mem_liveRows.mpr
                ⟨Table.mem_of_find? hfind, hlive, hcondition⟩, rfl⟩
            · rfl
      · exact Tables.find?_archiveWhere_of_ne tx.working condition moment id hkind
  simp only [archiveWhere, writeAll, hworking, archivedRows, List.map_map, Function.comp_def,
    Row.id_archive]

theorem strokes_writeAll_archivedRows {kind : EntityKind} (moment : Moment)
    (rows : List kind.Row) (session : Session)
    (hdistinct : (rows.map fun row => (⟨kind, Row.id row⟩ : RowKey)).Nodup)
    (hlive : ∀ row ∈ rows, session.transaction.working.find? (Row.id row) = some row ∧
      Row.isLive row) :
    Strokes session
      { session with
        transaction :=
          session.transaction.writeAll (archivedRows rows moment) .archived } := by
  induction rows generalizing session with
  | nil =>
      rw [archivedRows, List.map_nil, Transaction.writeAll_nil]
      exact Strokes.refl session
  | cons row rest ih =>
      obtain ⟨hrow, hrest⟩ := List.nodup_cons.mp hdistinct
      obtain ⟨hfound, hisLive⟩ := hlive row List.mem_cons_self
      apply (Strokes.single (.retire session row moment hfound hisLive)).trans
      rw [archivedRows, List.map_cons, Transaction.writeAll_cons]
      apply ih (session.write (Row.archive row moment) .archived) hrest
      intro other hother
      obtain ⟨hotherFound, hotherLive⟩ := hlive other (List.mem_cons_of_mem row hother)
      refine ⟨?_, hotherLive⟩
      -- The rows still to come have other identifiers, so the write left them alone.
      have hne : (⟨kind, Row.id (Row.archive row moment)⟩ : RowKey) ≠ ⟨kind, Row.id other⟩ := by
        rw [Row.id_archive]
        exact fun heq => hrow (List.mem_map.mpr ⟨other, hother, heq.symm⟩)
      exact (Tables.find?_put_of_key_ne _ _ _ hne).trans hotherFound

theorem strokes_archiveWhere (session : Session) {kind : EntityKind}
    (condition : kind.Row → Bool) (moment : Moment) :
    Strokes session (session.archiveWhere condition moment) := by
  rw [Session.archiveWhere, Transaction.archiveWhere_eq_writeAll]
  apply strokes_writeAll_archivedRows moment _ session (nodup_keys_liveRows _ condition)
  intro row hrow
  obtain ⟨hmem, hlive, _⟩ := Table.mem_liveRows.mp hrow
  exact ⟨Tables.mem_iff.mp hmem, hlive⟩

/-! ## Every call is a sequence of strokes -/

/-- Work that does nothing but strokes, however it ends. -/
def ByStrokes {α : Type} (work : Work α) : Prop :=
  ∀ session, Strokes session (work.run.run session).2

namespace ByStrokes

variable {α β : Type}

theorem bind {work : Work α} {next : α → Work β} (h : ByStrokes work)
    (hnext : ∀ result, ByStrokes (next result)) : ByStrokes (work >>= next) := by
  intro session
  have hwork := h session
  rw [run_bind]
  generalize work.run.run session = outcome at hwork ⊢
  obtain ⟨_ | result, after⟩ := outcome
  · exact hwork
  · exact hwork.trans (hnext result after)

theorem mapM {f : α → Work β} (h : ∀ item, ByStrokes (f item)) (items : List α) :
    ByStrokes (items.mapM f) := by
  induction items with
  | nil => exact fun session => Strokes.refl session
  | cons item rest ih =>
      rw [List.mapM_cons]
      exact (h item).bind fun _ => ih.bind fun _ session => Strokes.refl session

theorem readClock : ByStrokes readClock := fun session => Strokes.tick session

theorem create {kind : EntityKind} {build : Id kind → kind.Row}
    (hid : ∀ id, Row.id (build id) = id) (hlive : ∀ id, Row.isLive (build id))
    (hbare : ∀ id, Row.IsBare (build id)) : ByStrokes (Memory.create kind build) := by
  intro session
  rw [run_create]
  cases hcheck : session.transaction.working.check (build (session.nextId kind)) with
  | error error => exact Strokes.single (.draw session kind)
  | ok _ =>
      exact Strokes.single
        (.create session (build (session.nextId kind)) (hid _) (hlive _) (hbare _) hcheck)

/-- An edit that leaves a live row live, bare, and in its place. -/
def IsProperEdit {kind : EntityKind} (edit : kind.Row → Moment → kind.Row) : Prop :=
  ∀ row moment, Row.isLive row →
    Row.isLive (edit row moment) ∧ Row.Succeeds row (edit row moment) ∧
      (Row.IsBare row → Row.IsBare (edit row moment))

theorem edit {kind : EntityKind} {id : Id kind} {edit : kind.Row → Moment → kind.Row}
    (hedit : IsProperEdit edit) {session : Session} {row : kind.Row}
    (hfind : session.transaction.working.live? id = some row)
    (hfits : kind.IsAnchored ∨
      session.transaction.working.check (edit row session.now) = .ok ()) :
    Strokes session (session.tick.write (edit row session.now) .updated) := by
  obtain ⟨hfound, hlive⟩ := Tables.live?_eq_some.mp hfind
  obtain ⟨hstays, hsucceeds, hbare⟩ := hedit row session.now hlive
  refine (Strokes.tick session).trans
    (Strokes.single (.revise session.tick row _ ?_ hlive hstays hsucceeds hbare hfits))
  rw [hsucceeds.id, Tables.id_of_find? hfound]
  exact hfound

theorem revise {kind : EntityKind} (id : Id kind) {edit : kind.Row → Moment → kind.Row}
    (hkind : kind.IsAnchored) (hedit : IsProperEdit edit) :
    ByStrokes (Memory.revise kind id edit) := by
  intro session
  rw [run_revise]
  cases hfind : session.transaction.working.live? id with
  | none => exact Strokes.refl session
  | some row => exact ByStrokes.edit hedit hfind (.inl hkind)

theorem reviseChecked {kind : EntityKind} (id : Id kind) {edit : kind.Row → Moment → kind.Row}
    (hedit : IsProperEdit edit) : ByStrokes (Memory.reviseChecked kind id edit) := by
  intro session
  rw [run_reviseChecked]
  cases hfind : session.transaction.working.live? id with
  | none => exact Strokes.refl session
  | some row =>
      dsimp only
      cases hcheck : session.transaction.working.check (edit row session.now) with
      | error error => exact Strokes.tick session
      | ok _ => exact ByStrokes.edit hedit hfind (.inr hcheck)

theorem archive {kind : EntityKind} (id : Id kind) : ByStrokes (Memory.archive id) := by
  intro session
  rw [run_archive]
  cases hfind : session.transaction.working.live? id with
  | none => exact Strokes.refl session
  | some row =>
      obtain ⟨hfound, hlive⟩ := Tables.live?_eq_some.mp hfind
      refine (Strokes.tick session).trans
        (Strokes.single (.retire session.tick row session.now ?_ hlive))
      rw [Tables.id_of_find? hfound]
      exact hfound

theorem archiveWhere {kind : EntityKind} (condition : kind.Row → Bool) :
    ByStrokes (Memory.archiveWhere kind condition) := by
  intro session
  rw [run_archiveWhere]
  exact (Strokes.tick session).trans (strokes_archiveWhere session.tick condition session.now)

theorem createBridges (product : Id .product) (values : List (Id .value)) (moment : Moment) :
    ByStrokes (Memory.createBridges product values moment) := by
  refine mapM (fun value => ?_) values
  exact create (fun _ => rfl) (fun _ => rfl) fun _ => trivial

/-- An edit that keeps the identifier, the anchor, and all of the lifecycle but the
moment of the last edit, is a proper one. -/
theorem isProperEdit_of_update {kind : EntityKind} {edit : kind.Row → Moment → kind.Row}
    (hid : ∀ row moment, Row.id (edit row moment) = Row.id row)
    (hlifecycle : ∀ row moment,
      Row.lifecycle (edit row moment) = (Row.lifecycle row).update moment)
    (hanchor : ∀ row moment, Row.SameAnchor row (edit row moment))
    (hbare : ∀ row moment, Row.IsBare row → Row.IsBare (edit row moment)) :
    IsProperEdit edit := by
  intro row moment hlive
  have hstays : Row.isLive (edit row moment) := by
    rw [Row.isLive, hlifecycle]
    exact hlive
  refine ⟨hstays, ⟨hid row moment, ?_, hanchor row moment, ?_⟩, hbare row moment⟩
  · rw [hlifecycle]
    rfl
  · exact fun hdead => absurd hlive (Bool.eq_false_iff.mp hdead)

/-- Whatever a write does, it does by strokes. -/
theorem carryOut (change : Write) : ByStrokes (Memory.carryOut change) := by
  cases change with
  | createRoot new =>
      exact readClock.bind fun _ => create (fun _ => rfl) (fun _ => rfl) fun _ => trivial
  | createOption new =>
      exact readClock.bind fun _ => create (fun _ => rfl) (fun _ => rfl) fun _ => rfl
  | createValue new =>
      exact readClock.bind fun _ => create (fun _ => rfl) (fun _ => rfl) fun _ => trivial
  | createProduct new =>
      exact readClock.bind fun _ => create (fun _ => rfl) (fun _ => rfl) fun _ => rfl
  | createBridges product values =>
      exact readClock.bind fun moment => createBridges product values moment
  | updateRoot new =>
      apply revise new.id trivial
      exact isProperEdit_of_update (fun _ _ => rfl) (fun _ _ => rfl) (fun _ _ => rfl)
        fun _ _ _ => trivial
  | updateOption id name =>
      apply reviseChecked id
      exact isProperEdit_of_update (fun _ _ => rfl) (fun _ _ => rfl) (fun _ _ => rfl)
        fun _ _ hbare => hbare
  | updateValue id value =>
      apply reviseChecked id
      exact isProperEdit_of_update (fun _ _ => rfl) (fun _ _ => rfl) (fun _ _ => rfl)
        fun _ _ _ => trivial
  | updateProduct new =>
      apply revise new.id trivial
      exact isProperEdit_of_update (fun _ _ => rfl) (fun _ _ => rfl)
        (fun _ _ => ⟨rfl, rfl, rfl⟩) fun _ _ _ => rfl
  | updateBridge new =>
      apply reviseChecked new.id
      exact isProperEdit_of_update (fun _ _ => rfl) (fun _ _ => rfl) (fun _ _ => trivial)
        fun _ _ _ => trivial
  | archiveRoot id => exact archive id
  | archiveOption id => exact archive id
  | archiveValue id => exact archive id
  | archiveProduct id => exact archive id
  | archiveValuesOf option => exact archiveWhere _
  | archiveBridgesOfProduct product => exact archiveWhere _
  | archiveBridgesOfValue value => exact archiveWhere _

end ByStrokes

/-- A call is struck by a fault before it does anything, or whatever it does, however
it ends, it does by strokes. -/
theorem strokes_answerCall (call : Call) (session : Session) :
    (∃ error, (answerCall call).run.run session = (.error error, session.disarm)) ∨
      Strokes session ((answerCall call).run.run session).2 := by
  cases call with
  | query read => exact .inr (Strokes.refl session)
  | write change =>
      rw [run_write]
      split
      · exact .inl ⟨_, rfl⟩
      · exact .inr (ByStrokes.carryOut change session)

end Memory

end VariantCatalog
