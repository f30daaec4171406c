/-
# The bodies of the operations

What each operation does within its transaction, as a program over whatever store
it runs on.  Rows are created from the root down and archived from the bridges up,
so at no point of a transaction does a row hang below one that is archived.

The questions asked before a row is written only make for a better answer: a store
that is asked to write a row which does not fit refuses it just the same.
-/

import VariantCatalog.Expansion.Combination
import VariantCatalog.Operation.Basic
import VariantCatalog.Store.Program

namespace VariantCatalog.Operation

open VariantCatalog.Calendar VariantCatalog.Expansion VariantCatalog.Program

/-! ## Creating -/

/-- Create a value of an option, unless a live one has its text. -/
def createValue (option : Id .option) (value : String) : Program OptionValue := do
  require (!(← ask (.hasValue option value))) (.valueTaken value option)
  order (.createValue ⟨option, value⟩)

/-- Create an option of a root with its values, unless a live one has its name. The
values follow those that the row came with. -/
def createOption (root : Id .root) (spec : OptionSpec) : Program ProductOption := do
  require (!(← ask (.hasOption root spec.name))) (.optionNameTaken spec.name root)
  let option ← order (.createOption ⟨root, spec.name⟩)
  let values ← spec.values.mapM (createValue option.id)
  return { option with values := option.values ++ values }

/-- Create the variant of a combination and its bridges to the chosen values. -/
def createVariant (root : ProductRoot) (draft : ProductDraft) (combination : Combination) :
    Program Product := do
  let product ← order (.createProduct (combinationVariant root draft combination))
  let _ ← order (.createBridges product.id combination.valueIds)
  return { product with optionValues := combination.values }

/-- Create the variants of a root: one for each combination of the values of its
options, or the only one of a root without options. -/
def createVariants (root : ProductRoot) (draft : ProductDraft) (options : List ProductOption) :
    Program (List Product) :=
  if options.isEmpty then
    return [← order (.createProduct (baseVariant root draft))]
  else
    match Combinations.ofOptions options with
    | .error flaw => .refuse (.ofFlaw flaw)
    | .ok walk => walk.mapM (createVariant root draft)

/-- Create everything that a creation asks for. -/
def createGraph (creation : Creation) : Program RootGraph := do
  let draft := creation.product
  require (!(← ask (.hasPrefix draft.sku))) (.skuTaken draft.sku)
  let root ← order (.createRoot (.ofDraft draft))
  let options ← creation.options.mapM (createOption root.id)
  let products ← createVariants root draft options
  return { root, options, products }

/-- Create an option of a live root. -/
def createOptionOf (root : Id .root) (spec : OptionSpec) : Program ProductOption := do
  require (← ask (.isLive root)) (.absent root)
  createOption root spec

/-- Create a value of a live option. -/
def createValueOf (option : Id .option) (value : String) : Program OptionValue := do
  require (← ask (.isLive option)) (.absent option)
  createValue option value

/-! ## Archiving -/

/-- Archive a root: the bridges of its live variants, the variants, the values of
its live options, the options, and then the root itself. -/
def retireRoot (id : Id .root) : Program Moment := do
  require (← ask (.isLive id)) (.absent id)
  let products ← ask (.productsOf id)
  products.forM fun product => discard (order (.archiveBridgesOfProduct product.id))
  products.forM fun product => discard (order (.archiveProduct product.id))
  let options ← ask (.optionsOf id)
  options.forM fun option => discard (order (.archiveValuesOf option.id))
  options.forM fun option => discard (order (.archiveOption option.id))
  order (.archiveRoot id)

/-- Archive a variant: its bridges, and then the variant itself. -/
def retireVariant (id : Id .product) : Program Moment := do
  require (← ask (.isLive id)) (.absent id)
  let _ ← order (.archiveBridgesOfProduct id)
  order (.archiveProduct id)

/-- Archive an option: the bridges of its live values, the values, and then the
option itself. -/
def retireOption (id : Id .option) : Program Moment := do
  require (← ask (.isLive id)) (.absent id)
  let values ← ask (.valuesOf id)
  values.forM fun value => discard (order (.archiveBridgesOfValue value.id))
  let _ ← order (.archiveValuesOf id)
  order (.archiveOption id)

/-- Archive a value: its bridges, and then the value itself. -/
def retireValue (id : Id .value) : Program Moment := do
  require (← ask (.isLive id)) (.absent id)
  let _ ← order (.archiveBridgesOfValue id)
  order (.archiveValue id)

/-! ## Editing -/

/-- The live row of an identifier. -/
def getLive {kind : EntityKind} (id : Id kind) : Program kind.Row := do
  let row ← ask (.get id)
  requireSome (row.filter Row.isLive) (.absent id)

/-- Edit the details of a variant. The result carries the moment of the edit. -/
def reviseProduct (id : Id .product) (patch : ProductPatch) : Program Product := do
  let product : Product := patch.apply (← getLive id)
  let moment ← order (.updateProduct product)
  return { product with lifecycle := product.lifecycle.update moment }

/-- Give an option another name, unless another live option of its root has it. The
result carries the moment of the edit and the live values of the option. -/
def reviseOption (id : Id .option) (name : String) : Program ProductOption := do
  let option : ProductOption ← getLive id
  if option.name ≠ name then
    let holder ← ask (.optionByName option.root name)
    require (holder.all (·.id = id)) (.optionNameTaken name option.root)
  let moment ← order (.updateOption id name)
  let values ← ask (.valuesOf id)
  return { option with name, values, lifecycle := option.lifecycle.update moment }

/-- Give a value another text, unless a live value of its option has it. The result
carries the moment of the edit. -/
def reviseValue (id : Id .value) (value : String) : Program OptionValue := do
  let current : OptionValue ← getLive id
  if current.value ≠ value then
    require (!(← ask (.hasValue current.option value))) (.valueTaken value current.option)
  let moment ← order (.updateValue id value)
  return { current with value, lifecycle := current.lifecycle.update moment }

/-! ## Reading -/

/-- An option with its live values. -/
def loadOption (option : ProductOption) : Program ProductOption := do
  return { option with values := ← ask (.valuesOf option.id) }

/-- A live root with its live options, their values, and its live variants. -/
def loadGraph (id : Id .root) : Program RootGraph := do
  let root : ProductRoot ← getLive id
  let options ← (← ask (.optionsOf id)).mapM loadOption
  let products ← ask (.productsOf id)
  return { root, options, products }

/-- The live variant with a SKU. -/
def loadProduct (sku : String) : Program Product := do
  let product ← ask (.productBySku sku)
  requireSome (product.filter fun row => row.lifecycle.isLive) (.absentSku sku)

/-- What an operation does within its transaction. -/
def body : (operation : Operation) → Program operation.Result
  | commit creation => createGraph creation
  | addOption root spec => createOptionOf root spec
  | addValue option value => createValueOf option value
  | archiveRoot id => retireRoot id
  | archiveVariant id => retireVariant id
  | archiveOption id => retireOption id
  | archiveValue id => retireValue id
  | updateProduct id patch => reviseProduct id patch
  | renameOption id name => reviseOption id name
  | updateValue id value => reviseValue id value
  | rootGraph id => loadGraph id
  | productBySku sku => loadProduct sku
  | skuExists sku => ask (.hasSku sku)

end VariantCatalog.Operation
