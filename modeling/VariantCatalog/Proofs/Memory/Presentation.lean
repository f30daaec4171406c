/-
# Rows that can be shown

A catalog is read by people, so its names and texts should not be blank, its SKU prefixes
should fit into a web address, and its packages should not be empty.  The tables do not look
at any of this: a row that refers to rows which are there and claims no key of another may
say whatever it likes.

What the tables do is to keep rows as they are given.  A row that is created says what the
write says, an edited one what the write or the row before said, and an archived one what it
said before.  So as long as every write is presentable, all rows are
(`answers_write_presentable`).
-/

import VariantCatalog.Proofs.Memory.Answers
import VariantCatalog.Proofs.Request.Validation

namespace VariantCatalog

open Memory Calendar Text

/-! ## Presentable rows -/

/-- The details of a variant can be shown: it has a name, and a package holds something. -/
structure ProductDetails.IsPresentable (details : ProductDetails) : Prop where
  name : trim details.name ≠ ""
  package : 1 ≤ details.quantityPerPackage

/-- What a row says can be shown. A bridge says nothing. -/
def Row.IsPresentable : {kind : EntityKind} → kind.Row → Prop
  | .root => fun (row : ProductRoot) =>
    trim row.details.name ≠ "" ∧ Sku.IsRestricted row.skuPrefix
  | .option => fun (row : ProductOption) => trim row.name ≠ ""
  | .value => fun (row : OptionValue) => trim row.value ≠ ""
  | .product => fun (row : Product) => row.details.IsPresentable
  | .bridge => fun _ => True

theorem Row.isPresentable_archive {kind : EntityKind} {row : kind.Row} (moment : Moment) :
    IsPresentable (archive row moment) ↔ IsPresentable row := by
  cases kind <;> exact Iff.rfl

namespace Tables

/-- All rows can be shown, those that are archived as well. -/
def Presentable (tables : Tables) : Prop :=
  ∀ ⦃kind : EntityKind⦄ ⦃id : Id kind⦄ ⦃row : kind.Row⦄, tables.find? id = some row →
    Row.IsPresentable row

variable {tables : Tables} {kind : EntityKind}

theorem presentable_empty : empty.Presentable := by
  intro kind id row hfind
  rw [find?_empty] at hfind
  cases hfind

theorem Presentable.put (h : tables.Presentable) {row : kind.Row}
    (hrow : Row.IsPresentable row) : (tables.put row).Presentable := by
  intro other id found hfind
  rcases of_find?_put hfind with heq | ⟨_, hbefore⟩
  · cases heq
    exact hrow
  · exact h hbefore

theorem Presentable.archiveWhere (h : tables.Presentable) (condition : kind.Row → Bool)
    (moment : Moment) :
    (tables.setTable ((tables.table kind).archiveWhere condition moment)).Presentable := by
  intro other id found hfind
  by_cases hkind : kind = other
  · subst hkind
    rw [find?_archiveWhere] at hfind
    obtain ⟨row, hrow, rfl⟩ := Option.map_eq_some_iff.mp hfind
    split
    · exact (Row.isPresentable_archive moment).mpr (h hrow)
    · exact h hrow
  · rw [find?_archiveWhere_of_ne tables condition moment id hkind] at hfind
    exact h hfind

end Tables

/-- A merge leaves rows of the one side or of the other. -/
theorem Committed.presentable_overlay {tables : Tables} {tx : Transaction}
    (h : tables.Presentable) (hworking : tx.working.Presentable) :
    (overlay tables tx).Presentable := by
  intro kind id row hfind
  rw [find?_overlay] at hfind
  split at hfind
  · rcases Option.or_eq_some_iff.mp hfind with hwritten | ⟨_, hbefore⟩
    · exact hworking hwritten
    · exact h hbefore
  · exact h hfind

/-! ## Presentable writes -/

/-- What a write is to store can be shown. -/
def Write.IsPresentable : Write → Prop
  | .createRoot new => trim new.details.name ≠ "" ∧ Sku.IsRestricted new.skuPrefix
  | .createOption new => trim new.name ≠ ""
  | .createValue new => trim new.value ≠ ""
  | .createProduct new => new.details.IsPresentable
  | .updateRoot row => trim row.details.name ≠ ""
  | .updateOption _ name => trim name ≠ ""
  | .updateValue _ value => trim value ≠ ""
  | .updateProduct row => row.details.IsPresentable
  | _ => True

namespace Memory

/-- Work that leaves presentable tables presentable, however it ends. -/
def KeepsPresentable {α : Type} (work : Work α) : Prop :=
  ∀ session : Session, session.transaction.working.Presentable →
    (work.run.run session).2.transaction.working.Presentable

namespace KeepsPresentable

variable {α β : Type} {kind : EntityKind}

theorem bind {work : Work α} {next : α → Work β} (h : KeepsPresentable work)
    (hnext : ∀ result, KeepsPresentable (next result)) : KeepsPresentable (work >>= next) := by
  intro session hsession
  have hwork := h session hsession
  rw [run_bind]
  generalize work.run.run session = outcome at hwork ⊢
  obtain ⟨_ | result, after⟩ := outcome
  · exact hwork
  · exact hnext result after hwork

theorem mapM {f : α → Work β} (h : ∀ item, KeepsPresentable (f item)) (items : List α) :
    KeepsPresentable (items.mapM f) := by
  induction items with
  | nil => exact fun _ hsession => hsession
  | cons item rest ih =>
      rw [List.mapM_cons]
      exact (h item).bind fun _ => ih.bind fun _ _ hsession => hsession

theorem readClock : KeepsPresentable readClock := fun _ hsession => hsession

theorem create {build : Id kind → kind.Row} (hbuild : ∀ id, Row.IsPresentable (build id)) :
    KeepsPresentable (create kind build) := by
  intro session hsession
  rw [run_create]
  split
  · exact hsession
  · exact hsession.put (hbuild _)

theorem revise (id : Id kind) {edit : kind.Row → Moment → kind.Row}
    (hedit : ∀ row moment, Row.IsPresentable row → Row.IsPresentable (edit row moment)) :
    KeepsPresentable (revise kind id edit) := by
  intro session hsession
  rw [run_revise]
  split
  · exact hsession
  · next row hlive => exact hsession.put (hedit _ _ (hsession (Tables.live?_eq_some.mp hlive).1))

theorem reviseChecked (id : Id kind) {edit : kind.Row → Moment → kind.Row}
    (hedit : ∀ row moment, Row.IsPresentable row → Row.IsPresentable (edit row moment)) :
    KeepsPresentable (reviseChecked kind id edit) := by
  intro session hsession
  rw [run_reviseChecked]
  split
  · exact hsession
  · next row hlive =>
    split
    · exact hsession
    · exact hsession.put (hedit _ _ (hsession (Tables.live?_eq_some.mp hlive).1))

theorem archive (id : Id kind) : KeepsPresentable (archive id) := by
  intro session hsession
  rw [run_archive]
  split
  · exact hsession
  · next row hlive =>
    have hrow := hsession (Tables.live?_eq_some.mp hlive).1
    exact hsession.put ((Row.isPresentable_archive _).mpr hrow)

theorem archiveWhere (condition : kind.Row → Bool) :
    KeepsPresentable (archiveWhere kind condition) := by
  intro session hsession
  rw [run_archiveWhere]
  exact hsession.archiveWhere condition session.now

/-- A presentable write leaves the tables presentable. -/
theorem carryOut {change : Write} (h : change.IsPresentable) :
    KeepsPresentable (carryOut change) := by
  cases change with
  | createRoot new => exact readClock.bind fun _ => create fun _ => h
  | createOption new => exact readClock.bind fun _ => create fun _ => h
  | createValue new => exact readClock.bind fun _ => create fun _ => h
  | createProduct new => exact readClock.bind fun _ => create fun _ => h
  | createBridges product values =>
      refine readClock.bind fun _ => mapM (fun _ => create ?_) values
      exact fun _ => trivial
  | updateRoot new => exact revise new.id fun _ _ hrow => ⟨h, hrow.2⟩
  | updateOption id name => exact reviseChecked id fun _ _ _ => h
  | updateValue id value => exact reviseChecked id fun _ _ _ => h
  | updateProduct new => exact revise new.id fun _ _ _ => h
  | updateBridge new =>
      apply reviseChecked new.id
      exact fun _ _ _ => trivial
  | archiveRoot id => exact archive id
  | archiveOption id => exact archive id
  | archiveValue id => exact archive id
  | archiveProduct id => exact archive id
  | archiveValuesOf option => exact archiveWhere _
  | archiveBridgesOfProduct product => exact archiveWhere _
  | archiveBridgesOfValue value => exact archiveWhere _

end KeepsPresentable

/-- So does one that others move the registers for. -/
theorem answers_write_presentable {change : Write} {reply : change.Reply}
    {session after : Session} (hchange : change.IsPresentable)
    (h : Answers (.write change) session reply after)
    (hsession : session.transaction.working.Presentable) :
    after.transaction.working.Presentable := by
  obtain ⟨registers, _, hrun⟩ := answers_write h
  have hkept := KeepsPresentable.carryOut hchange ⟨registers, session.transaction⟩ hsession
  rwa [hrun] at hkept

end Memory

end VariantCatalog
