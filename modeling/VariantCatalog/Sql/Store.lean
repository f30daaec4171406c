/-
# The catalog in a database

Each call of a store is one command, or two where variants come back: then the
values that they are made of are asked for as well.  A transaction is one of the
database, which keeps the rows and enforces their constraints.  One that is let go
while it is open, as happens when its end is refused, is rolled back.
-/

import VariantCatalog.Sql.Peer
import VariantCatalog.Store.Transaction

namespace VariantCatalog.Sql

variable {σ : Type} (peer : Peer σ)

/-! ## Answering calls -/

/-- The variants with the values that they are made of. -/
def withOptionValues (products : List Product) : Exchange σ (List Product) := do
  if products.isEmpty then return []
  let records ← fetchAll peer bridgedValuesStep
    (.selectBridgedValues (products.map (·.id)))
  interpret (attachValues products records)

/-- Rows as queries return them: variants come with the values they are made of. -/
def loaded : (kind : EntityKind) → List kind.Row → Exchange σ (List kind.Row)
  | .product, products => withOptionValues peer products
  | .root, rows => return rows
  | .option, rows => return rows
  | .value, rows => return rows
  | .bridge, rows => return rows

/-- Send a command and take the row that comes back, if there is one. -/
def fetchRow? (kind : EntityKind) (step : String) (command : Command) :
    Exchange σ (Option kind.Row) := do
  match ← fetchFirst? peer step command with
  | none => return none
  | some record =>
    let row ← interpret (record.row kind)
    return (← loaded peer kind [row]).head?

/-- Send a command and take the rows that come back. -/
def fetchRows (kind : EntityKind) (step : String) (command : Command) :
    Exchange σ (List kind.Row) := do
  let records ← fetchAll peer step command
  loaded peer kind (← interpret (records.mapM (Record.row · kind)))

/-- Send a command that stores a row, and take the row as stored. -/
def fetchStored (kind : EntityKind) (step : String) (command : Command) :
    Exchange σ kind.Row := do
  let record ← fetchFirst peer step command
  interpret (record.row kind)

/-- Answer a query. -/
def answerQuery : (query : Query) → Exchange σ query.Reply
  | @Query.isLive kind id => fetchTruth peer (stepWord kind ++ "_exists") (.testLive id)
  | @Query.get kind id => fetchRow? peer kind ("get_" ++ stepWord kind) (.selectById id)
  | .hasPrefix skuPrefix =>
    fetchTruth peer "product_root_with_sku_prefix_exists"
      (.testText .root "sku_prefix" skuPrefix)
  | .hasOption root name =>
    fetchTruth peer "product_option_with_name_exists"
      (.testChild .option "product_root_id" root "name" name)
  | .hasValue option value =>
    fetchTruth peer "product_option_value_for_option_exists"
      (.testChild .value "product_option_id" option "value" value)
  | .hasSku sku => fetchTruth peer "product_with_sku_exists" (.testText .product "sku" sku)
  | .rootByPrefix skuPrefix =>
    fetchRow? peer .root "get_product_root_by_sku_prefix"
      (.selectByText .root "sku_prefix" skuPrefix)
  | .optionByName root name =>
    fetchRow? peer .option "get_product_option_by_name"
      (.selectChild .option "product_root_id" root "name" name)
  | .valueByText option value =>
    fetchRow? peer .value "get_product_option_value_for_option"
      (.selectChild .value "product_option_id" option "value" value)
  | .productBySku sku =>
    fetchRow? peer .product "get_product_by_sku" (.selectByText .product "sku" sku)
  | .optionsOf root =>
    fetchRows peer .option "list_product_options"
      (.selectChildren .option "product_root_id" root)
  | .valuesOf option =>
    fetchRows peer .value "list_product_option_values"
      (.selectChildren .value "product_option_id" option)
  | .productsOf root =>
    fetchRows peer .product "list_products" (.selectChildren .product "product_root_id" root)

/-- Link a variant to some values. Nothing is sent for no values. The bridges come
back in the order of their identifiers, which is the order of the values. -/
def createBridges (product : Id .product) (values : List (Id .value)) :
    Exchange σ (List VariantBridge) := do
  if values.isEmpty then return []
  let records ← fetchAll peer "create_variant_bridges" (.insertBridges product values)
  let bridges ← interpret (records.mapM (Record.row · .bridge))
  return bridges.mergeSort fun first second => first.id.number ≤ second.id.number

/-- Archive a live row. -/
def archive {kind : EntityKind} (id : Id kind) : Exchange σ Calendar.Moment :=
  fetchStamp peer ("archive_" ++ stepWord kind) "archived_on" (.archiveRow id)

/-- Archive the live rows that have an identifier in a column, and count them. -/
def archiveAll {target : EntityKind} (step : String) (kind : EntityKind) (column : String)
    (id : Id target) : Exchange σ Nat := do
  return (← send peer step (.archiveRows kind column id [])).count

/-- Carry out a write. -/
def carryOut : (write : Write) → Exchange σ write.Reply
  | .createRoot new => fetchStored peer .root "create_product_root" (.insertRoot new)
  | .createOption new => fetchStored peer .option "create_product_option" (.insertOption new)
  | .createValue new =>
    fetchStored peer .value "create_product_option_value" (.insertValue new)
  | .createProduct new => fetchStored peer .product "create_product" (.insertProduct new)
  | .createBridges product values => createBridges peer product values
  | .updateRoot row => fetchStamp peer "update_product_root" "updated_on" (.updateRoot row)
  | .updateOption id name =>
    fetchStamp peer "update_product_option" "updated_on" (.updateOption id name)
  | .updateValue id value =>
    fetchStamp peer "update_product_option_value" "updated_on" (.updateValue id value)
  | .updateProduct row => fetchStamp peer "update_product" "updated_on" (.updateProduct row)
  | .updateBridge row =>
    fetchStamp peer "update_variant_bridge" "updated_on" (.updateBridge row)
  | .archiveRoot id => archive peer id
  | .archiveOption id => archive peer id
  | .archiveValue id => archive peer id
  | .archiveProduct id => archive peer id
  | .archiveValuesOf option =>
    archiveAll peer "archive_product_option_values_for_option" .value "product_option_id" option
  | .archiveBridgesOfProduct product =>
    archiveAll peer "archive_variant_bridges_for_product" .bridge "product_id" product
  | .archiveBridgesOfValue value =>
    archiveAll peer "archive_variant_bridges_for_option_value" .bridge
      "product_option_value_id" value

/-- Answer a call. -/
def answerCall : (call : Call) → Exchange σ call.Reply
  | .query query => answerQuery peer query
  | .write write => carryOut peer write

/-! ## Transactions -/

/-- An open transaction. All that there is to know of it is with the database. -/
structure Transaction where
  deriving DecidableEq

/-- Open a transaction. -/
def begin : Exchange σ Transaction := do
  match ← send peer "begin_transaction" (.plain .begin) with
  | .idle => throw (Failure.inStep "begin_transaction" .outsideTransaction)
  | _ => return {}

/-- Let go of a transaction that is open: it is rolled back, and nobody asks how
that went. -/
def letGo (state : σ) : σ :=
  (peer (.plain .rollback) state).2

/-- End a transaction by a statement. If that is refused, the transaction is still
open and let go of. -/
def finish (step : String) (statement : Statement) (state : σ) : Except StoreError Unit × σ :=
  match (send peer step (.plain statement)).run.run state with
  | (.ok _, state) => (.ok (), state)
  | (.error error, state) => (.error error, letGo peer state)

/-- A database as a store. -/
def store : Store σ Transaction where
  begin := (begin peer).run.run
  answer call tx state :=
    match (answerCall peer call).run.run state with
    | (reply, state) => (reply, tx, state)
  commit _ := finish peer "commit_transaction" .commit
  rollback _ := finish peer "rollback" .rollback

/-- Set up the tables, unless they are. -/
def migrate : Exchange σ Unit :=
  discard (send peer "migrate" (.plain (.script schemaText)))

end VariantCatalog.Sql
