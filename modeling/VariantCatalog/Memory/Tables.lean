/-
# The tables of a catalog and their constraints

A catalog has one table for each kind of row.  `Tables.check` is what a row must
satisfy among them: the rows that it refers to exist, whatever their state, and
no other row claims the same unique key.  Prefixes and SKUs are claimed by every
row that ever had them; names, values and links only by live rows.
-/

import VariantCatalog.Error
import VariantCatalog.Memory.Table

namespace VariantCatalog

/-- The rows of a catalog. -/
structure Tables where
  roots : Table .root
  options : Table .option
  values : Table .value
  products : Table .product
  bridges : Table .bridge

namespace Tables

/-- A catalog without rows. -/
def empty : Tables := ⟨.empty, .empty, .empty, .empty, .empty⟩

/-- The table of a kind. -/
def table (tables : Tables) : (kind : EntityKind) → Table kind
  | .root => tables.roots
  | .option => tables.options
  | .value => tables.values
  | .product => tables.products
  | .bridge => tables.bridges

/-- The tables with another one for a kind. -/
def setTable (tables : Tables) : {kind : EntityKind} → Table kind → Tables
  | .root, roots => { tables with roots }
  | .option, options => { tables with options }
  | .value, values => { tables with values }
  | .product, products => { tables with products }
  | .bridge, bridges => { tables with bridges }

/-- The row with an identifier. -/
def find? (tables : Tables) {kind : EntityKind} (id : Id kind) : Option kind.Row :=
  (tables.table kind).find? id

/-- The row with an identifier, if it is live. -/
def live? (tables : Tables) {kind : EntityKind} (id : Id kind) : Option kind.Row :=
  (tables.table kind).live? id

/-- The tables with a row under its identifier. -/
def put (tables : Tables) {kind : EntityKind} (row : kind.Row) : Tables :=
  tables.setTable ((tables.table kind).put row)

/-- Whether a row exists and is archived. -/
def isArchived (tables : Tables) {kind : EntityKind} (id : Id kind) : Bool :=
  (tables.find? id).any (!Row.isLive ·)

/-- The tables with one row as it is in other tables, if it is there. -/
def copyRow (tables : Tables) {kind : EntityKind} (id : Id kind) (source : Tables) : Tables :=
  match source.find? id with
  | some row => tables.put row
  | none => tables

/-- The variant with the values of its live bridges, in the order of the
bridges. -/
def withOptionValues (tables : Tables) (product : Product) : Product :=
  { product with
    optionValues := (tables.bridges.liveRows (·.product = product.id)).filterMap fun bridge =>
      tables.values.find? bridge.value }

/-! ## Constraints -/

/-- The name under which a kind's unique key is known. -/
def uniqueKeyName : EntityKind → String
  | .root => "product_roots_sku_prefix_key"
  | .option => "product_options_root_name_live_idx"
  | .value => "product_option_values_option_value_live_idx"
  | .product => "products_sku_key"
  | .bridge => "product_variant_bridge_product_value_live_idx"

/-- Whether two rows claim the same unique key. -/
def clash : {kind : EntityKind} → kind.Row → kind.Row → Bool
  | .root => fun (first second : ProductRoot) => first.skuPrefix = second.skuPrefix
  | .option => fun (first second : ProductOption) =>
    first.lifecycle.isLive && second.lifecycle.isLive &&
      first.root = second.root && first.name = second.name
  | .value => fun (first second : OptionValue) =>
    first.lifecycle.isLive && second.lifecycle.isLive &&
      first.option = second.option && first.value = second.value
  | .product => fun (first second : Product) => first.sku = second.sku
  | .bridge => fun (first second : VariantBridge) =>
    first.lifecycle.isLive && second.lifecycle.isLive &&
      first.product = second.product && first.value = second.value

/-- The name of the first reference of a row that leads nowhere. -/
def brokenReference? (tables : Tables) : {kind : EntityKind} → kind.Row → Option String
  | .root, _ => none
  | .option, row =>
    if tables.roots.contains (ProductOption.root row) then none
    else some "product_options_product_root_id_fkey"
  | .value, row =>
    if tables.options.contains (OptionValue.option row) then none
    else some "product_option_values_product_option_id_fkey"
  | .product, row =>
    if tables.roots.contains (Product.root row) then none
    else some "products_product_root_id_fkey"
  | .bridge, row =>
    if !tables.products.contains (VariantBridge.product row) then
      some "product_variant_bridge_product_id_fkey"
    else if !tables.values.contains (VariantBridge.value row) then
      some "product_variant_bridge_product_option_value_id_fkey"
    else none

/-- Whether another row claims the unique key of a row. -/
def hasRival (tables : Tables) {kind : EntityKind} (row : kind.Row) : Bool :=
  (tables.table kind).rows.any fun other => Row.id other ≠ Row.id row && clash row other

/-- Reject a row that does not fit among the tables. -/
def check (tables : Tables) {kind : EntityKind} (row : kind.Row) : Except StoreError Unit :=
  match tables.brokenReference? row with
  | some reference => .error (.foreignKeyViolation reference)
  | none =>
    if tables.hasRival row then .error (.uniqueViolation (uniqueKeyName kind)) else .ok ()

/-! ## Counts -/

/-- The number of rows of each kind, of archived rows, and of all rows. -/
structure Stats where
  roots : Nat
  options : Nat
  values : Nat
  products : Nat
  bridges : Nat
  archived : Nat
  total : Nat
  deriving DecidableEq

/-- Count the rows. -/
def stats (tables : Tables) : Stats where
  roots := tables.roots.rows.length
  options := tables.options.rows.length
  values := tables.values.rows.length
  products := tables.products.rows.length
  bridges := tables.bridges.rows.length
  archived := tables.roots.archivedCount + tables.options.archivedCount +
    tables.values.archivedCount + tables.products.archivedCount + tables.bridges.archivedCount
  total := tables.roots.rows.length + tables.options.rows.length + tables.values.rows.length +
    tables.products.rows.length + tables.bridges.rows.length

end Tables

end VariantCatalog
