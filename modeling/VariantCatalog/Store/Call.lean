/-
# What a store can be asked

A store answers calls inside a transaction.  A `Query` reads: whether something
exists, one row, or the live rows below a parent.  A `Write` creates, edits or
archives rows.  Each call fixes the type of its reply.

Queries by identifier see rows of any state, except that `isLive` asks for a live
row.  Names and values are free again once their row is archived, so queries by
them see live rows only; SKUs and prefixes are never free again, so queries by
them see every row.
-/

import VariantCatalog.Request.Patch

namespace VariantCatalog

open VariantCatalog.Calendar

/-- A call that reads. -/
inductive Query where
  /-- Is there a live row with this identifier? -/
  | isLive {kind : EntityKind} (id : Id kind)
  /-- The row with this identifier. -/
  | get {kind : EntityKind} (id : Id kind)
  /-- Does a root, live or archived, have this SKU prefix? -/
  | hasPrefix (skuPrefix : String)
  /-- Does a live option of this root have this name? -/
  | hasOption (root : Id .root) (name : String)
  /-- Does a live value of this option have this text? -/
  | hasValue (option : Id .option) (value : String)
  /-- Does a variant, live or archived, have this SKU? -/
  | hasSku (sku : String)
  /-- The root with this SKU prefix. -/
  | rootByPrefix (skuPrefix : String)
  /-- The live option of this root with this name. -/
  | optionByName (root : Id .root) (name : String)
  /-- The live value of this option with this text. -/
  | valueByText (option : Id .option) (value : String)
  /-- The variant with this SKU. -/
  | productBySku (sku : String)
  /-- The live options of this root, in the order of their creation. -/
  | optionsOf (root : Id .root)
  /-- The live values of this option, in the order of their creation. -/
  | valuesOf (option : Id .option)
  /-- The live variants of this root, in the order of their creation. -/
  | productsOf (root : Id .root)

/-- The type of a query's reply. -/
@[reducible] def Query.Reply : Query → Type
  | .isLive _ => Bool
  | @Query.get kind _ => Option kind.Row
  | .hasPrefix _ => Bool
  | .hasOption _ _ => Bool
  | .hasValue _ _ => Bool
  | .hasSku _ => Bool
  | .rootByPrefix _ => Option ProductRoot
  | .optionByName _ _ => Option ProductOption
  | .valueByText _ _ => Option OptionValue
  | .productBySku _ => Option Product
  | .optionsOf _ => List ProductOption
  | .valuesOf _ => List OptionValue
  | .productsOf _ => List Product

/-- A call that changes rows. -/
inductive Write where
  /-- Store a new root. -/
  | createRoot (new : NewRoot)
  /-- Store a new option. -/
  | createOption (new : NewOption)
  /-- Store a new option value. -/
  | createValue (new : NewValue)
  /-- Store a new variant. -/
  | createProduct (new : NewProduct)
  /-- Link a variant to the values that it was made of, in their order. -/
  | createBridges (product : Id .product) (values : List (Id .value))
  /-- Replace what a live root says. -/
  | updateRoot (row : ProductRoot)
  /-- Rename a live option. -/
  | updateOption (id : Id .option) (name : String)
  /-- Replace the text of a live value. -/
  | updateValue (id : Id .value) (value : String)
  /-- Replace what a live variant says. -/
  | updateProduct (row : Product)
  /-- Point a live bridge at another variant or value. -/
  | updateBridge (row : VariantBridge)
  /-- Archive a live root. -/
  | archiveRoot (id : Id .root)
  /-- Archive a live option. -/
  | archiveOption (id : Id .option)
  /-- Archive a live value. -/
  | archiveValue (id : Id .value)
  /-- Archive a live variant. -/
  | archiveProduct (id : Id .product)
  /-- Archive the live values of an option. -/
  | archiveValuesOf (option : Id .option)
  /-- Archive the live bridges of a variant. -/
  | archiveBridgesOfProduct (product : Id .product)
  /-- Archive the live bridges to a value. -/
  | archiveBridgesOfValue (value : Id .value)

/-- The type of a write's reply: the rows as stored, the moment that was stamped,
or the number of rows that were. -/
@[reducible] def Write.Reply : Write → Type
  | .createRoot _ => ProductRoot
  | .createOption _ => ProductOption
  | .createValue _ => OptionValue
  | .createProduct _ => Product
  | .createBridges _ _ => List VariantBridge
  | .updateRoot _ => Moment
  | .updateOption _ _ => Moment
  | .updateValue _ _ => Moment
  | .updateProduct _ => Moment
  | .updateBridge _ => Moment
  | .archiveRoot _ => Moment
  | .archiveOption _ => Moment
  | .archiveValue _ => Moment
  | .archiveProduct _ => Moment
  | .archiveValuesOf _ => Nat
  | .archiveBridgesOfProduct _ => Nat
  | .archiveBridgesOfValue _ => Nat

/-- A call of a store within a transaction. -/
inductive Call where
  | query (read : Query)
  | write (change : Write)

/-- The type of a call's reply. -/
@[reducible] def Call.Reply : Call → Type
  | .query read => read.Reply
  | .write change => change.Reply

end VariantCatalog
