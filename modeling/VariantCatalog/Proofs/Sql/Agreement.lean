/-
# The two stores write the same rows

A store in a database binds the fields of a row to the places of a statement and reads
the columns of a record back by their names; the store in memory keeps the row itself.
For a database that reads statements by place, both come to the same: a row that is
created or edited there is the row that the store in memory makes of the same
arguments, up to the number and the moments that each store has from its own registers.

One difference remains.  A database keeps moments to the microsecond, so a date of
availability that is given more precisely is cut off; `toMicrosecond` says so, and it
leaves all other dates alone (`Instant.toMicrosecond_of_dvd`).
-/

import VariantCatalog.Proofs.Sql.Storing

namespace VariantCatalog

open VariantCatalog.Calendar

/-! ## Arguments -/

/-- An instant that a database can keep is kept as it is. -/
theorem Calendar.Instant.toMicrosecond_of_dvd {instant : Instant}
    (hnano : instant.nano < Instant.billion) (hmicro : 1000 ∣ instant.nano) :
    instant.toMicrosecond = instant := by
  obtain ⟨second, nano⟩ := instant
  obtain ⟨micro, rfl⟩ := hmicro
  have hlt : micro < 1000000 := by
    simp only [Instant.billion] at hnano
    omega
  have hmicros : ((second - Instant.startOf2000) * Instant.billion + (1000 * micro : Nat)).tdiv
      1000 = (second - Instant.startOf2000) * 1000000 + micro := by
    have hsum : (second - Instant.startOf2000) * Instant.billion + (1000 * micro : Nat) =
        1000 * ((second - Instant.startOf2000) * 1000000 + micro) := by
      simp only [Instant.billion]
      omega
    rw [hsum, Int.mul_tdiv_cancel_left _ (by decide)]
  simp only [Instant.toMicrosecond, hmicros, Instant.mk.injEq]
  omega

/-- A new root whose date is as precise as a database keeps it. -/
def NewRoot.toMicrosecond (new : NewRoot) : NewRoot :=
  { new with availableOn := new.availableOn.map Moment.toMicrosecond }

/-- A new variant whose date is as precise as a database keeps it. -/
def NewProduct.toMicrosecond (new : NewProduct) : NewProduct :=
  { new with availableOn := new.availableOn.map Moment.toMicrosecond }

/-- A root whose date is as precise as a database keeps it. -/
def ProductRoot.toMicrosecond (row : ProductRoot) : ProductRoot :=
  { row with availableOn := row.availableOn.toMicrosecond }

/-- A variant whose date is as precise as a database keeps it. -/
def Product.toMicrosecond (row : Product) : Product :=
  { row with availableOn := row.availableOn.toMicrosecond }

/-- A root after another one was written over it: number, prefix and creation stay. -/
def ProductRoot.overwrite (old new : ProductRoot) (moment : Moment) : ProductRoot :=
  { old with
    details := new.details
    availableOn := new.availableOn
    lifecycle := old.lifecycle.update moment }

/-- A variant after another one was written over it: number, root, SKU, summary and
creation stay. Values are derived from bridges and have no place in the row. -/
def Product.overwrite (old new : Product) (moment : Moment) : Product :=
  { old with
    details := new.details
    optionValues := []
    availableOn := new.availableOn
    lifecycle := old.lifecycle.update moment }

/-! ## In memory -/

namespace Memory

/-- Work that creates a row by a rule: the row comes back and is kept, or it does not
fit among the tables. -/
def Creates (kind : EntityKind) (work : Work kind.Row) (build : Moment → Id kind → kind.Row) :
    Prop :=
  ∀ session : Session,
    let row := build session.now (session.nextId kind)
    let fit := session.transaction.working.check row
    (work.run.run session).1 = fit.map (fun _ => row) ∧
      (fit = .ok () →
        (work.run.run session).2.transaction.working.find? (session.nextId kind) = some row)

/-- Work that edits the live row under an identifier by a rule. -/
def Edits (kind : EntityKind) (work : Work Moment) (id : Id kind)
    (edit : kind.Row → Moment → kind.Row) : Prop :=
  ∀ (session : Session) (old : kind.Row), session.transaction.working.live? id = some old →
    ∃ after, work.run.run session = (.ok session.now, after) ∧
      after.transaction.working.find? id = some (edit old session.now)

/-- The clock is read, a number is drawn, and the row is stored if it fits. -/
theorem creates_create {kind : EntityKind} {build : Moment → Id kind → kind.Row}
    (hid : ∀ moment id, Row.id (build moment id) = id) :
    Creates kind (readClock >>= fun moment => create kind (build moment)) build := by
  intro session row fit
  have hrow : Row.id row = session.nextId kind := hid _ _
  have hcheck : session.tick.transaction.working.check
      (build session.now (session.tick.nextId kind)) = fit := rfl
  rw [run_bind, run_readClock]
  dsimp only
  rw [run_create, hcheck, ← hrow]
  cases fit with
  | error error => exact ⟨rfl, fun h => by cases h⟩
  | ok _ => exact ⟨rfl, fun _ => Tables.find?_put_self session.transaction.working row⟩

theorem edits_revise {kind : EntityKind} {id : Id kind} {edit : kind.Row → Moment → kind.Row}
    (hid : ∀ row moment, Row.id (edit row moment) = Row.id row) :
    Edits kind (revise kind id edit) id edit := by
  intro session old hold
  have hrow : Row.id (edit old session.now) = id :=
    (hid _ _).trans (Tables.id_of_find? (Tables.live?_eq_some.mp hold).1)
  refine ⟨_, by rw [run_revise, hold], ?_⟩
  rw [← hrow]
  exact Tables.find?_put_self session.transaction.working _

end Memory

namespace Sql

open Memory (rootRow productRow)

variable {σ : Type} {peer : Peer σ} {stored : View σ}

/-! ## Roots and variants -/

/-- Cells stand for a root exactly if they hold what it says. -/
theorem row_root_eq_ok {cells : Cells} {row : ProductRoot} :
    cells.row .root = .ok row ↔ cells.Shows row.contents :=
  mapError_eq_ok.trans root_eq_ok

/-- Cells stand for a variant exactly if they hold what it says; they cannot tell its
values. -/
theorem row_product_eq_ok {cells : Cells} {row : Product} :
    cells.row .product = .ok row ↔ row.optionValues = [] ∧ cells.Shows row.contents :=
  mapError_eq_ok.trans product_eq_ok

/-- A date that is left open is the present moment; one that is given is cut. -/
theorem orElse_ofMoment? (date : Option Moment) (now : Moment) :
    (Datum.ofMoment? date).orElse (.moment now) =
      .moment ((date.map Moment.toMicrosecond).getD now) := by
  cases date <;> rfl

theorem Cells.IsBlank.shows_created {cells : Cells} {number : Int} {now : Moment}
    (h : cells.IsBlank number now) : cells.Shows (Lifecycle.created now).contents := by
  simp [Lifecycle.contents, Lifecycle.created, h.createdOn, h.updatedOn, h.archivedOn]

theorem Cells.Shows.archivedOn {cells : Cells} {lifecycle : Lifecycle}
    (h : cells.Shows lifecycle.contents) (hlive : lifecycle.isLive) :
    cells "archived_on" = .null := by
  have harchived : lifecycle.archivedOn = none := by simpa [Lifecycle.isLive] using hlive
  simp only [Lifecycle.contents, Cells.shows_cons, harchived] at h
  exact h.2.2.1

/-- A root arrives in its columns as it was drafted. -/
theorem creates_root (h : ByPlace peer stored) (new : NewRoot) :
    Creates .root peer stored (Command.insertRoot new) (carryOut peer (.createRoot new))
      (rootRow new.toMicrosecond) := by
  refine h.creates ?columns (fun _ _ => rfl) fun number now cells hblank hshows => ?built
  case columns =>
    simp only [dimensionContents_eq, List.map_append, List.map_cons, List.map_nil]
    decide
  case built =>
    -- Each column by its name: what was written there is what the row says.
    simp only [dimensionContents_eq, String.reduceAppend, List.cons_append, List.nil_append,
      List.map_cons, List.map_nil, filledIn, openColumn, String.reduceEq, if_true, if_false,
      orElse_ofMoment?, Cells.shows_cons, Cells.shows_nil, and_true] at hshows
    rw [row_root_eq_ok]
    simp [ProductRoot.contents, rootRow, NewRoot.toMicrosecond, dimensionContents_eq, hshows,
      hblank.id, hblank.shows_created]

/-- A variant arrives in its columns as it was drafted. -/
theorem creates_product (h : ByPlace peer stored) (new : NewProduct) :
    Creates .product peer stored (Command.insertProduct new)
      (carryOut peer (.createProduct new)) (productRow new.toMicrosecond) := by
  refine h.creates ?columns (fun _ _ => rfl) fun number now cells hblank hshows => ?built
  case columns =>
    simp only [dimensionContents_eq, List.map_append, List.map_cons, List.map_nil]
    decide
  case built =>
    simp only [dimensionContents_eq, String.reduceAppend, List.cons_append, List.nil_append,
      List.map_cons, List.map_nil, filledIn, openColumn, String.reduceEq, if_true, if_false,
      orElse_ofMoment?, Cells.shows_cons, Cells.shows_nil, and_true] at hshows
    rw [row_product_eq_ok]
    refine ⟨rfl, ?_⟩
    simp [Product.contents, productRow, NewProduct.toMicrosecond, dimensionContents_eq, hshows,
      hblank.id, hblank.shows_created]

/-- Four columns of a root are not written by an edit; all others are. -/
theorem edits_root (h : ByPlace peer stored) (new : ProductRoot) :
    Edits .root peer stored (Command.updateRoot new) (carryOut peer (.updateRoot new)) new.id
      fun old now => ProductRoot.overwrite old new.toMicrosecond now := by
  refine h.edits ["id", "sku_prefix", "created_on", "archived_on"] ?columns (fun _ _ => rfl)
    (fun cells old hrow hlive => ?live) fun cells edited old now hrow hshows hkept => ?edited
  case columns =>
    simp only [dimensionContents_eq, List.map_append, List.map_cons, List.map_nil]
    decide
  case live =>
    rw [row_root_eq_ok] at hrow
    simp only [ProductRoot.contents, Cells.shows_append, Cells.shows_cons] at hrow
    obtain ⟨⟨⟨⟨hid, -⟩, -⟩, -⟩, hlifecycle⟩ := hrow
    exact ⟨hid, hlifecycle.archivedOn hlive⟩
  case edited =>
    rw [row_root_eq_ok] at hrow ⊢
    simp only [ProductRoot.contents, Lifecycle.contents, Cells.shows_append,
      Cells.shows_cons] at hrow
    simp only [dimensionContents_eq, String.reduceAppend, Cells.shows_append,
      Cells.shows_cons] at hshows
    simp only [List.forall_mem_cons] at hkept
    simp [ProductRoot.contents, ProductRoot.overwrite, ProductRoot.toMicrosecond,
      Lifecycle.update, Lifecycle.contents, dimensionContents_eq, Datum.ofMoment, hshows, hkept,
      hrow]

/-- Six columns of a variant are not written by an edit; all others are. -/
theorem edits_product (h : ByPlace peer stored) (new : Product) :
    Edits .product peer stored (Command.updateProduct new) (carryOut peer (.updateProduct new))
      new.id fun old now => Product.overwrite old new.toMicrosecond now := by
  refine h.edits
    ["id", "product_root_id", "option_summary", "sku", "created_on", "archived_on"] ?columns
    (fun _ _ => rfl) (fun cells old hrow hlive => ?live)
    fun cells edited old now hrow hshows hkept => ?edited
  case columns =>
    simp only [dimensionContents_eq, List.map_append, List.map_cons, List.map_nil]
    decide
  case live =>
    rw [row_product_eq_ok] at hrow
    simp only [Product.contents, Cells.shows_append, Cells.shows_cons] at hrow
    obtain ⟨-, ⟨⟨⟨hid, -⟩, -⟩, -⟩, -, hlifecycle⟩ := hrow
    exact ⟨hid, hlifecycle.archivedOn hlive⟩
  case edited =>
    rw [row_product_eq_ok] at hrow ⊢
    simp only [Product.contents, Lifecycle.contents, Cells.shows_append, Cells.shows_cons] at hrow
    simp only [dimensionContents_eq, String.reduceAppend, Cells.shows_append,
      Cells.shows_cons] at hshows
    simp only [List.forall_mem_cons] at hkept
    refine ⟨rfl, ?_⟩
    simp [Product.contents, Product.overwrite, Product.toMicrosecond, Lifecycle.update,
      Lifecycle.contents, dimensionContents_eq, Datum.ofMoment, hshows, hkept, hrow]

/-! ## Agreement -/

/-- **The two stores write the same rows.** With a database that reads statements by
place, a root or a variant that is created comes back, and is kept, as the row that
the store in memory makes of the same arguments; and a live root or variant that is
edited is kept as the row that the store in memory writes over the same one.  Numbers
and readings of the clock are each store's own, and a date of availability is cut to
the microsecond in the database. -/
theorem stores_agree (h : ByPlace peer stored) :
    (∀ new : NewRoot,
      Creates .root peer stored (.insertRoot new) (carryOut peer (.createRoot new))
        (rootRow new.toMicrosecond) ∧
      Memory.Creates .root (Memory.carryOut (.createRoot new)) (rootRow new)) ∧
    (∀ new : NewProduct,
      Creates .product peer stored (.insertProduct new) (carryOut peer (.createProduct new))
        (productRow new.toMicrosecond) ∧
      Memory.Creates .product (Memory.carryOut (.createProduct new)) (productRow new)) ∧
    (∀ new : ProductRoot,
      Edits .root peer stored (.updateRoot new) (carryOut peer (.updateRoot new)) new.id
        (fun old now => ProductRoot.overwrite old new.toMicrosecond now) ∧
      Memory.Edits .root (Memory.carryOut (.updateRoot new)) new.id
        (fun old now => ProductRoot.overwrite old new now)) ∧
    (∀ new : Product,
      Edits .product peer stored (.updateProduct new) (carryOut peer (.updateProduct new)) new.id
        (fun old now => Product.overwrite old new.toMicrosecond now) ∧
      Memory.Edits .product (Memory.carryOut (.updateProduct new)) new.id
        (fun old now => Product.overwrite old new now)) := by
  refine ⟨fun new => ⟨creates_root h new, ?_⟩, fun new => ⟨creates_product h new, ?_⟩,
    fun new => ⟨edits_root h new, ?_⟩, fun new => ⟨edits_product h new, ?_⟩⟩
  · exact Memory.creates_create fun _ _ => rfl
  · exact Memory.creates_create fun _ _ => rfl
  · exact Memory.edits_revise fun _ _ => rfl
  · exact Memory.edits_revise fun _ _ => rfl

/-- A new root with a date of nine fraction digits. -/
def mug : NewRoot where
  skuPrefix := "mug"
  details := ⟨"Mug", none, "Stoneware.", none, some "Kiln", true, 350, .zero, .zero⟩
  availableOn := some (.given ⟨1551443696, 123456789⟩)

/-- A root to be written over that of the mug. -/
def jug (id : Id .root) : ProductRoot where
  id
  skuPrefix := "jug"
  details := ⟨"Jug", some "One litre", "Stoneware.", none, some "Kiln", true, 900, .zero, .zero⟩
  availableOn := .given ⟨1551443696, 123456789⟩
  lifecycle := .created (.given ⟨0, 0⟩)

/-- A mug is stored on a shelf, and a jug is written over it. -/
theorem stores_agree_mug :
    ByPlace Shelf.serve Shelf.stored ∧ ∃ now id shelf,
      (carryOut Shelf.serve (.createRoot mug)).run.run Shelf.empty =
        (.ok (rootRow mug.toMicrosecond now id), shelf) ∧
      ∃ later last,
        (carryOut Shelf.serve (.updateRoot (jug id))).run.run shelf = (.ok later, last) ∧
        Keeps .root Shelf.stored last
          ((rootRow mug.toMicrosecond now id).overwrite (jug id).toMicrosecond later) := by
  obtain ⟨hroot, -, hedit, -⟩ := stores_agree Shelf.serve_byPlace
  obtain ⟨now, id, shelf, hcreated, hkept⟩ :=
    (hroot mug).1 Shelf.empty (Shelf.not_refuses_insertRow _ _ _ _)
  obtain ⟨later, last, hedited, hlast⟩ :=
    (hedit (jug id)).1 shelf _ hkept rfl rfl (Shelf.not_refuses_updateRow _ _ _)
  exact ⟨Shelf.serve_byPlace, now, id, shelf, hcreated, later, last, hedited, hlast⟩

/-- The cut is not idle: no number and no moment make the row of a mug on a shelf the
row that the store in memory makes of it. -/
theorem not_creates_mug :
    ByPlace Shelf.serve Shelf.stored ∧
      Memory.Creates .root (Memory.carryOut (.createRoot mug)) (rootRow mug) ∧
      ¬ Creates .root Shelf.serve Shelf.stored (.insertRoot mug)
        (carryOut Shelf.serve (.createRoot mug)) (rootRow mug) := by
  refine ⟨Shelf.serve_byPlace, Memory.creates_create fun _ _ => rfl, fun hclaim => ?_⟩
  have hserved : ¬ Refuses Shelf.serve (.insertRoot mug) Shelf.empty :=
    Shelf.not_refuses_insertRow _ _ _ _
  obtain ⟨now, id, shelf, hrun, -⟩ := creates_root Shelf.serve_byPlace mug Shelf.empty hserved
  obtain ⟨now', id', shelf', hrun', -⟩ := hclaim Shelf.empty hserved
  have hrow : rootRow mug.toMicrosecond now id = rootRow mug now' id' :=
    Except.ok.inj (Prod.mk.inj (hrun.symm.trans hrun')).1
  have hdate : Moment.toMicrosecond (.given ⟨1551443696, 123456789⟩) =
      .given ⟨1551443696, 123456789⟩ := congrArg ProductRoot.availableOn hrow
  exact absurd hdate (by decide)

end Sql

end VariantCatalog
