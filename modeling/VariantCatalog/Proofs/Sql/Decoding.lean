/-
# Rows out of cells

A row is made of the record of its columns exactly if these columns hold what the
row says.  So the row that comes back tells everything that is stored, and the other
way round: decoding neither drops nor mixes up a column.
-/

import VariantCatalog.Proofs.Sql.Placement

namespace VariantCatalog

open VariantCatalog.Calendar VariantCatalog.Sql

/-! ## What rows say -/

/-- A moment as it is kept, or null. -/
def Sql.Datum.ofStamp? (value : Option Moment) : Datum :=
  (value.map .moment).getD .null

@[simp] theorem Sql.Datum.ofStamp?_none : Datum.ofStamp? none = .null := rfl

@[simp] theorem Sql.Datum.ofStamp?_some (moment : Moment) :
    Datum.ofStamp? (some moment) = .moment moment := rfl

/-- What the columns of a lifecycle hold. -/
def Lifecycle.contents (lifecycle : Lifecycle) : List (String × Datum) :=
  [("created_on", .moment lifecycle.createdOn), ("updated_on", .ofStamp? lifecycle.updatedOn),
    ("archived_on", .ofStamp? lifecycle.archivedOn)]

/-- What the columns of a root hold. -/
def ProductRoot.contents (row : ProductRoot) : List (String × Datum) :=
  [("id", .integer row.id.number), ("name", .text row.details.name),
    ("subtitle", .ofText? row.details.subtitle), ("description", .text row.details.description),
    ("sku_prefix", .text row.skuPrefix), ("manufacturer", .ofText? row.details.manufacturer),
    ("brand", .ofText? row.details.brand), ("available_on", .moment row.availableOn),
    ("taxable", .bool row.details.taxable), ("cost", .integer row.details.cost)] ++
  Command.dimensionContents "product" row.details.productDimensions ++
  Command.dimensionContents "package" row.details.packageDimensions ++
  row.lifecycle.contents

/-- What the columns of a variant hold. The values that it is made of have no column. -/
def Product.contents (row : Product) : List (String × Datum) :=
  [("id", .integer row.id.number), ("product_root_id", .integer row.root.number),
    ("name", .text row.details.name), ("subtitle", .ofText? row.details.subtitle),
    ("description", .text row.details.description), ("option_summary", .text row.optionSummary),
    ("sku", .text row.sku), ("upc", .ofText? row.details.upc),
    ("manufacturer", .ofText? row.details.manufacturer), ("brand", .ofText? row.details.brand),
    ("quantity", .smallInteger row.details.quantity),
    ("quantity_per_package", .smallInteger row.details.quantityPerPackage),
    ("taxable", .bool row.details.taxable), ("price", .integer row.details.price),
    ("on_sale", .bool row.details.onSale), ("sale_price", .ofInteger? row.details.salePrice),
    ("cost", .integer row.details.cost)] ++
  Command.dimensionContents "product" row.details.productDimensions ++
  Command.dimensionContents "package" row.details.packageDimensions ++
  ("available_on", .moment row.availableOn) :: row.lifecycle.contents

namespace Sql

theorem dimensionContents_eq (subject : String) (dimensions : Dimensions) :
    Command.dimensionContents subject dimensions =
      [(subject ++ "_weight", .real dimensions.weight),
        (subject ++ "_height", .real dimensions.height),
        (subject ++ "_width", .real dimensions.width),
        (subject ++ "_length", .real dimensions.length)] := rfl

/-! ## Reading a column -/

section Outcome

variable {ε ε' α β : Type}

theorem bind_eq_ok {outcome : Except ε α} {next : α → Except ε β} {result : β} :
    outcome >>= next = .ok result ↔ ∃ value, outcome = .ok value ∧ next value = .ok result := by
  cases outcome <;> simp [bind, Except.bind]

theorem pure_eq_ok {value result : α} :
    (pure value : Except ε α) = .ok result ↔ value = result := by
  simp [pure, Except.pure]

theorem mapError_eq_ok {outcome : Except ε α} {relabel : ε → ε'} {result : α} :
    outcome.mapError relabel = .ok result ↔ outcome = .ok result := by
  cases outcome with
  | error failure => constructor <;> intro h <;> cases h
  | ok value => constructor <;> intro h <;> cases h <;> rfl

end Outcome

/-- The data that a value is read from are those that it is written as. -/
structure Reads {α : Type} (take : Datum → Option α) (make : α → Datum) : Prop where
  null : take .null = none
  iff (datum : Datum) (value : α) : take datum = some value ↔ datum = make value

theorem reads_bool : Reads Datum.asBool? .bool :=
  ⟨rfl, fun datum value => by cases datum <;> simp [Datum.asBool?]⟩

theorem reads_smallInteger : Reads Datum.asSmallInteger? .smallInteger :=
  ⟨rfl, fun datum value => by cases datum <;> simp [Datum.asSmallInteger?]⟩

theorem reads_integer : Reads Datum.asInteger? .integer :=
  ⟨rfl, fun datum value => by cases datum <;> simp [Datum.asInteger?]⟩

theorem reads_real : Reads Datum.asReal? .real :=
  ⟨rfl, fun datum value => by cases datum <;> simp [Datum.asReal?]⟩

theorem reads_text : Reads Datum.asText? .text :=
  ⟨rfl, fun datum value => by cases datum <;> simp [Datum.asText?]⟩

theorem reads_moment : Reads Datum.asMoment? .moment :=
  ⟨rfl, fun datum value => by cases datum <;> simp [Datum.asMoment?]⟩

theorem Reads.ne_null {α : Type} {take : Datum → Option α} {make : α → Datum}
    (h : Reads take make) (value : α) : make value ≠ .null := by
  intro hmake
  have hnull := (h.iff .null value).mpr hmake.symm
  rw [h.null] at hnull
  cases hnull

section Columns

variable {α : Type} {take : Datum → Option α} {make : α → Datum}
variable {cells : Cells} {columns : List String} {column : String}

theorem readNullable_eq_ok (h : Reads take make) (hmem : column ∈ columns) {value : Option α} :
    (cells.project columns).readNullable column take = .ok value ↔
      cells column = (value.map make).getD .null := by
  rw [Record.readNullable, Cells.lookup_project hmem]
  split
  · next hnone => cases hnone
  · next hnull =>
    rw [Option.some.inj hnull]
    cases value with
    | none => simp
    | some value => simpa using (h.ne_null value).symm
  · next datum hdatum hsome =>
    rw [Option.some.inj hsome]
    cases value with
    | none =>
        have hne : datum ≠ .null := fun hnull => hdatum (by rw [hnull])
        cases htake : take datum <;> simp [hne]
    | some value =>
        rw [Option.map_some, Option.getD_some, ← h.iff]
        cases htake : take datum <;> simp

theorem read_eq_ok (h : Reads take make) (hmem : column ∈ columns) {value : α} :
    (cells.project columns).read column take = .ok value ↔ cells column = make value := by
  have hsome : (cells.project columns).readNullable column take = .ok (some value) ↔
      cells column = make value := readNullable_eq_ok h hmem
  rw [Record.read, ← hsome]
  split <;> simp [*]

theorem bool_eq_ok (h : column ∈ columns) {value : Bool} :
    (cells.project columns).bool column = .ok value ↔ cells column = .bool value :=
  read_eq_ok reads_bool h

theorem smallInteger_eq_ok (h : column ∈ columns) {value : Int} :
    (cells.project columns).smallInteger column = .ok value ↔
      cells column = .smallInteger value :=
  read_eq_ok reads_smallInteger h

theorem integer_eq_ok (h : column ∈ columns) {value : Int} :
    (cells.project columns).integer column = .ok value ↔ cells column = .integer value :=
  read_eq_ok reads_integer h

theorem integer?_eq_ok (h : column ∈ columns) {value : Option Int} :
    (cells.project columns).readNullable column Datum.asInteger? = .ok value ↔
      cells column = .ofInteger? value :=
  readNullable_eq_ok reads_integer h

theorem text_eq_ok (h : column ∈ columns) {value : String} :
    (cells.project columns).text column = .ok value ↔ cells column = .text value :=
  read_eq_ok reads_text h

theorem text?_eq_ok (h : column ∈ columns) {value : Option String} :
    (cells.project columns).text? column = .ok value ↔ cells column = .ofText? value :=
  readNullable_eq_ok reads_text h

theorem moment_eq_ok (h : column ∈ columns) {value : Moment} :
    (cells.project columns).moment column = .ok value ↔ cells column = .moment value :=
  read_eq_ok reads_moment h

theorem moment?_eq_ok (h : column ∈ columns) {value : Option Moment} :
    (cells.project columns).moment? column = .ok value ↔ cells column = .ofStamp? value :=
  readNullable_eq_ok reads_moment h

theorem id_eq_ok (h : column ∈ columns) {kind : EntityKind} {id : Id kind} :
    (cells.project columns).id column = .ok id ↔ cells column = .integer id.number := by
  simp only [Record.id, bind_eq_ok, integer_eq_ok h, pure_eq_ok]
  constructor
  · rintro ⟨number, hnumber, rfl⟩
    exact hnumber
  · intro hnumber
    exact ⟨id.number, hnumber, rfl⟩

/-! ## Reading a row -/

theorem dimensions_eq_ok {subject : String} (h : dimensionColumns subject ⊆ columns)
    {dimensions : Dimensions} :
    (cells.project columns).dimensions subject = .ok dimensions ↔
      cells.Shows (Command.dimensionContents subject dimensions) := by
  simp only [dimensionColumns, List.cons_subset] at h
  obtain ⟨hweight, hheight, hwidth, hlength, -⟩ := h
  simp only [Record.dimensions, bind_eq_ok, read_eq_ok reads_real hweight,
    read_eq_ok reads_real hheight, read_eq_ok reads_real hwidth, read_eq_ok reads_real hlength,
    pure_eq_ok, dimensionContents_eq, Cells.shows_cons, Cells.shows_nil, and_true]
  constructor
  · rintro ⟨weight, hweight, height, hheight, width, hwidth, length, hlength, rfl⟩
    exact ⟨hweight, hheight, hwidth, hlength⟩
  · rintro ⟨hweight, hheight, hwidth, hlength⟩
    exact ⟨_, hweight, _, hheight, _, hwidth, _, hlength, rfl⟩

theorem lifecycle_eq_ok (h : lifecycleColumns ⊆ columns) {lifecycle : Lifecycle} :
    (cells.project columns).lifecycle = .ok lifecycle ↔ cells.Shows lifecycle.contents := by
  simp only [lifecycleColumns, List.cons_subset] at h
  obtain ⟨hcreated, hupdated, harchived, -⟩ := h
  simp only [Record.lifecycle, bind_eq_ok, moment_eq_ok hcreated, moment?_eq_ok hupdated,
    moment?_eq_ok harchived, pure_eq_ok, Lifecycle.contents, Cells.shows_cons, Cells.shows_nil,
    and_true]
  constructor
  · rintro ⟨createdOn, hcreated, updatedOn, hupdated, archivedOn, harchived, rfl⟩
    exact ⟨hcreated, hupdated, harchived⟩
  · rintro ⟨hcreated, hupdated, harchived⟩
    exact ⟨_, hcreated, _, hupdated, _, harchived, rfl⟩

end Columns

variable {cells : Cells}

theorem root_eq_ok {row : ProductRoot} :
    (cells.project (columnNames .root)).root = .ok row ↔ cells.Shows row.contents := by
  simp (disch := decide) only [Record.root, bind_eq_ok, pure_eq_ok, id_eq_ok, text_eq_ok,
    text?_eq_ok, moment_eq_ok, bool_eq_ok, integer_eq_ok, dimensions_eq_ok, lifecycle_eq_ok]
  simp only [ProductRoot.contents, Cells.shows_append, Cells.shows_cons, Cells.shows_nil,
    and_true, and_assoc]
  constructor
  · rintro ⟨id, hid, name, hname, subtitle, hsubtitle, description, hdescription, skuPrefix,
      hskuPrefix, manufacturer, hmanufacturer, brand, hbrand, availableOn, havailableOn, taxable,
      htaxable, cost, hcost, productDimensions, hproduct, packageDimensions, hpackage, lifecycle,
      hlifecycle, rfl⟩
    exact ⟨hid, hname, hsubtitle, hdescription, hskuPrefix, hmanufacturer, hbrand, havailableOn,
      htaxable, hcost, hproduct, hpackage, hlifecycle⟩
  · rintro ⟨hid, hname, hsubtitle, hdescription, hskuPrefix, hmanufacturer, hbrand, havailableOn,
      htaxable, hcost, hproduct, hpackage, hlifecycle⟩
    exact ⟨_, hid, _, hname, _, hsubtitle, _, hdescription, _, hskuPrefix, _, hmanufacturer, _,
      hbrand, _, havailableOn, _, htaxable, _, hcost, _, hproduct, _, hpackage, _, hlifecycle,
      rfl⟩

/-- A variant that comes out of a record is not yet told its values. -/
theorem product_eq_ok {row : Product} :
    (cells.project (columnNames .product)).product = .ok row ↔
      row.optionValues = [] ∧ cells.Shows row.contents := by
  simp (disch := decide) only [Record.product, bind_eq_ok, pure_eq_ok, id_eq_ok, text_eq_ok,
    text?_eq_ok, moment_eq_ok, bool_eq_ok, integer_eq_ok, integer?_eq_ok, smallInteger_eq_ok,
    dimensions_eq_ok, lifecycle_eq_ok]
  simp only [Product.contents, Cells.shows_append, Cells.shows_cons, Cells.shows_nil, and_true,
    and_assoc]
  constructor
  · rintro ⟨id, hid, root, hroot, name, hname, subtitle, hsubtitle, description, hdescription,
      optionSummary, hsummary, sku, hsku, upc, hupc, manufacturer, hmanufacturer, brand, hbrand,
      quantity, hquantity, quantityPerPackage, hperPackage, taxable, htaxable, price, hprice,
      onSale, honSale, salePrice, hsalePrice, cost, hcost, productDimensions, hproduct,
      packageDimensions, hpackage, availableOn, havailableOn, lifecycle, hlifecycle, rfl⟩
    exact ⟨rfl, hid, hroot, hname, hsubtitle, hdescription, hsummary, hsku, hupc, hmanufacturer,
      hbrand, hquantity, hperPackage, htaxable, hprice, honSale, hsalePrice, hcost, hproduct,
      hpackage, havailableOn, hlifecycle⟩
  · obtain ⟨id, root, optionSummary, sku, details, optionValues, availableOn, lifecycle⟩ := row
    rintro ⟨rfl, hid, hroot, hname, hsubtitle, hdescription, hsummary, hsku, hupc, hmanufacturer,
      hbrand, hquantity, hperPackage, htaxable, hprice, honSale, hsalePrice, hcost, hproduct,
      hpackage, havailableOn, hlifecycle⟩
    exact ⟨_, hid, _, hroot, _, hname, _, hsubtitle, _, hdescription, _, hsummary, _, hsku, _,
      hupc, _, hmanufacturer, _, hbrand, _, hquantity, _, hperPackage, _, htaxable, _, hprice, _,
      honSale, _, hsalePrice, _, hcost, _, hproduct, _, hpackage, _, havailableOn, _, hlifecycle,
      rfl⟩

end Sql

end VariantCatalog
