/-
# Commands

A command is a statement with its parameters.  Rows are written from lists of
columns with their contents: the same list gives the columns, the places and the
parameters, so a content always goes to the column that it is listed with.  A
moment that is left open is filled in by the database.
-/

import VariantCatalog.Sql.Datum
import VariantCatalog.Sql.Schema
import VariantCatalog.Sql.Statement
import VariantCatalog.Store.Call

namespace VariantCatalog.Sql

/-- A statement with its parameters, the one at place one first. -/
structure Command where
  statement : Statement
  parameters : List Datum
  deriving DecidableEq

namespace Command

/-- A command without parameters. -/
def plain (statement : Statement) : Command := ⟨statement, []⟩

/-! ## Asking -/

/-- The condition that a row is live. -/
def live : Condition := .isNull "archived_on"

/-- Is there a live row with this identifier? -/
def testLive {kind : EntityKind} (id : Id kind) : Command :=
  ⟨.test .compact (tableName kind) [.equals "id" 1, live], [.integer id.number]⟩

/-- Is there a row with this text in a column? -/
def testText (kind : EntityKind) (column text : String) : Command :=
  ⟨.test .compact (tableName kind) [.equals column 1], [.text text]⟩

/-- Is there a live row below a parent with this text in a column? -/
def testChild {parent : EntityKind} (kind : EntityKind) (parentColumn : String) (id : Id parent)
    (column text : String) : Command :=
  ⟨.test .spread (tableName kind) [.equals parentColumn 1, .equals column 2, live],
    [.integer id.number, .text text]⟩

/-- The row with this identifier. -/
def selectById {kind : EntityKind} (id : Id kind) : Command :=
  ⟨.select (columnNames kind) (tableName kind) [.equals "id" 1] false, [.integer id.number]⟩

/-- The row with this text in a column. -/
def selectByText (kind : EntityKind) (column text : String) : Command :=
  ⟨.select (columnNames kind) (tableName kind) [.equals column 1] false, [.text text]⟩

/-- The live row below a parent with this text in a column. -/
def selectChild {parent : EntityKind} (kind : EntityKind) (parentColumn : String)
    (id : Id parent) (column text : String) : Command :=
  ⟨.select (columnNames kind) (tableName kind)
      [.equals parentColumn 1, .equals column 2, live] false,
    [.integer id.number, .text text]⟩

/-- The live rows below a parent. -/
def selectChildren {parent : EntityKind} (kind : EntityKind) (parentColumn : String)
    (id : Id parent) : Command :=
  ⟨.select (columnNames kind) (tableName kind) [.equals parentColumn 1, live] true,
    [.integer id.number]⟩

/-- The values that some variants are made of. -/
def selectBridgedValues (products : List (Id .product)) : Command :=
  ⟨.selectBridgedValues, [.integers (products.map (·.number))]⟩

/-! ## Creating -/

/-- What is written into a column from the parameter at a place. -/
def expressionFor (column : String) (place : Nat) : Expression :=
  if column = openColumn then .parameterOrNow place else .parameter place

/-- Store one row with these contents. -/
def insertRow (layout : Layout) (kind : EntityKind) (contents : List (String × Datum)) :
    Command where
  statement :=
    .insert layout (tableName kind) (contents.map (·.1))
      [contents.mapIdx fun index content => expressionFor content.1 (index + 1)]
      (columnNames kind)
  parameters := contents.map (·.2)

/-- The contents of the columns of some measurements. -/
def dimensionContents (subject : String) (dimensions : Dimensions) : List (String × Datum) :=
  (dimensionColumns subject).zip
    ([dimensions.weight, dimensions.height, dimensions.width, dimensions.length].map .real)

/-- Store a root. -/
def insertRoot (new : NewRoot) : Command :=
  insertRow .spread .root <|
    [("name", .text new.details.name), ("subtitle", .ofText? new.details.subtitle),
      ("description", .text new.details.description), ("sku_prefix", .text new.skuPrefix),
      ("manufacturer", .ofText? new.details.manufacturer),
      ("brand", .ofText? new.details.brand), ("available_on", .ofMoment? new.availableOn),
      ("taxable", .bool new.details.taxable), ("cost", .integer new.details.cost)] ++
    dimensionContents "product" new.details.productDimensions ++
    dimensionContents "package" new.details.packageDimensions

/-- Store an option. -/
def insertOption (new : NewOption) : Command :=
  insertRow .compact .option
    [("product_root_id", .integer new.root.number), ("name", .text new.name)]

/-- Store an option value. -/
def insertValue (new : NewValue) : Command :=
  insertRow .compact .value
    [("product_option_id", .integer new.option.number), ("value", .text new.value)]

/-- Store a variant. -/
def insertProduct (new : NewProduct) : Command :=
  insertRow .spread .product <|
    [("product_root_id", .integer new.root.number), ("name", .text new.details.name),
      ("subtitle", .ofText? new.details.subtitle),
      ("description", .text new.details.description), ("option_summary", .text new.optionSummary),
      ("sku", .text new.sku), ("upc", .ofText? new.details.upc),
      ("manufacturer", .ofText? new.details.manufacturer),
      ("brand", .ofText? new.details.brand), ("quantity", .smallInteger new.details.quantity),
      ("quantity_per_package", .smallInteger new.details.quantityPerPackage),
      ("taxable", .bool new.details.taxable), ("price", .integer new.details.price),
      ("on_sale", .bool new.details.onSale), ("sale_price", .ofInteger? new.details.salePrice),
      ("cost", .integer new.details.cost)] ++
    dimensionContents "product" new.details.productDimensions ++
    dimensionContents "package" new.details.packageDimensions ++
    [("available_on", .ofMoment? new.availableOn)]

/-- Store the bridges from a variant to some values, one group of parameters for
each value. -/
def insertBridges (product : Id .product) (values : List (Id .value)) : Command where
  statement :=
    .insert .compact (tableName .bridge) ["product_id", "product_option_value_id"]
      (values.mapIdx fun index _ =>
        [.parameter (2 * index + 1), .parameter (2 * index + 2)])
      (columnNames .bridge)
  parameters := values.flatMap fun value => [.integer product.number, .integer value.number]

/-! ## Editing -/

/-- Write contents into columns of a live row and stamp it as edited. -/
def updateRow {kind : EntityKind} (id : Id kind) (contents : List (String × Datum)) :
    Command where
  statement :=
    .update (tableName kind)
      ((contents.mapIdx fun index content => (content.1, .parameter (index + 2))) ++
        [("updated_on", .now)])
      [.equals "id" 1, live] ["updated_on"]
  parameters := .integer id.number :: contents.map (·.2)

/-- Replace what a root says. -/
def updateRoot (row : ProductRoot) : Command :=
  updateRow row.id <|
    [("name", .text row.details.name), ("subtitle", .ofText? row.details.subtitle),
      ("description", .text row.details.description),
      ("manufacturer", .ofText? row.details.manufacturer),
      ("brand", .ofText? row.details.brand), ("available_on", .ofMoment row.availableOn),
      ("taxable", .bool row.details.taxable), ("cost", .integer row.details.cost)] ++
    dimensionContents "product" row.details.productDimensions ++
    dimensionContents "package" row.details.packageDimensions

/-- Rename an option. -/
def updateOption (id : Id .option) (name : String) : Command :=
  updateRow id [("name", .text name)]

/-- Replace the text of a value. -/
def updateValue (id : Id .value) (value : String) : Command :=
  updateRow id [("value", .text value)]

/-- Replace what a variant says. -/
def updateProduct (row : Product) : Command :=
  updateRow row.id <|
    [("name", .text row.details.name), ("subtitle", .ofText? row.details.subtitle),
      ("description", .text row.details.description), ("upc", .ofText? row.details.upc),
      ("manufacturer", .ofText? row.details.manufacturer),
      ("brand", .ofText? row.details.brand), ("quantity", .smallInteger row.details.quantity),
      ("quantity_per_package", .smallInteger row.details.quantityPerPackage),
      ("taxable", .bool row.details.taxable), ("price", .integer row.details.price),
      ("on_sale", .bool row.details.onSale), ("sale_price", .ofInteger? row.details.salePrice),
      ("cost", .integer row.details.cost)] ++
    dimensionContents "product" row.details.productDimensions ++
    dimensionContents "package" row.details.packageDimensions ++
    [("available_on", .ofMoment row.availableOn)]

/-- Point a bridge at another variant or value. -/
def updateBridge (row : VariantBridge) : Command :=
  updateRow row.id
    [("product_id", .integer row.product.number),
      ("product_option_value_id", .integer row.value.number)]

/-! ## Archiving -/

/-- Stamp the live rows that have an identifier in a column as archived. -/
def archiveRows {target : EntityKind} (kind : EntityKind) (column : String) (id : Id target)
    (returning : List String) : Command :=
  ⟨.update (tableName kind) [("archived_on", .now)] [.equals column 1, live] returning,
    [.integer id.number]⟩

/-- Stamp a live row as archived. -/
def archiveRow {kind : EntityKind} (id : Id kind) : Command :=
  archiveRows kind "id" id ["archived_on"]

end Command

end VariantCatalog.Sql
