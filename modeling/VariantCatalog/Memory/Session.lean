/-
# Work within a transaction in memory

A transaction works on a private copy of the tables and keeps a journal of the
rows it wrote.  What all transactions share while they work are the `Registers`:
the sequences that identifiers are drawn from, the clock, and a fault that can be
armed to make one operation fail.  Registers are never given back, so a drawn
identifier is gone even if its transaction is rolled back.

A step of `Work` that fails keeps what the session had done until then.
-/

import VariantCatalog.Memory.Tables
import VariantCatalog.Store.Call

namespace VariantCatalog.Memory

open VariantCatalog.Calendar

/-! ## The journal -/

/-- What was done to a row. -/
inductive Action where
  | created
  | updated
  | archived
  deriving DecidableEq

/-- The name of an action. -/
def Action.name : Action → String
  | .created => "Created"
  | .updated => "Updated"
  | .archived => "Archived"

/-- One row that was written. -/
structure Entry where
  kind : EntityKind
  id : Id kind
  action : Action
  deriving DecidableEq

/-- The text of an entry, such as `Created Product 7`. -/
def Entry.text (entry : Entry) : String :=
  entry.action.name ++ " " ++ entry.kind.name ++ " " ++ entry.id.text

/-! ## Faults -/

/-- Where a fault can strike. -/
inductive FaultPoint where
  | create (kind : EntityKind)
  | update (kind : EntityKind)
  | archive (kind : EntityKind)
  | commit
  deriving DecidableEq

/-- The text of a fault point. -/
def FaultPoint.text : FaultPoint → String
  | .create kind => "Create(" ++ kind.name ++ ")"
  | .update kind => "Update(" ++ kind.name ++ ")"
  | .archive kind => "Archive(" ++ kind.name ++ ")"
  | .commit => "Commit"

/-- The error of a fault that strikes. -/
def FaultPoint.error (point : FaultPoint) : StoreError :=
  .database ("injected failure at " ++ point.text)

/-! ## Registers -/

/-- The last number handed out for each kind of row. -/
structure Sequences where
  roots : Int
  options : Int
  values : Int
  products : Int
  bridges : Int
  deriving DecidableEq

namespace Sequences

/-- Sequences that nothing was drawn from. -/
def start : Sequences := ⟨0, 0, 0, 0, 0⟩

/-- The last number handed out for a kind. -/
def last (sequences : Sequences) : EntityKind → Int
  | .root => sequences.roots
  | .option => sequences.options
  | .value => sequences.values
  | .product => sequences.products
  | .bridge => sequences.bridges

/-- The sequences after one more number was handed out for a kind. -/
def advance (sequences : Sequences) : EntityKind → Sequences
  | .root => { sequences with roots := sequences.roots + 1 }
  | .option => { sequences with options := sequences.options + 1 }
  | .value => { sequences with values := sequences.values + 1 }
  | .product => { sequences with products := sequences.products + 1 }
  | .bridge => { sequences with bridges := sequences.bridges + 1 }

end Sequences

/-- What all transactions share while they work: the sequences, the fault that is
armed, and the number of times that the clock was read. -/
structure Registers where
  sequences : Sequences
  fault : Option FaultPoint
  clock : Nat
  deriving DecidableEq

namespace Registers

/-- Registers that nothing was done with. -/
def start : Registers := ⟨.start, none, 0⟩

/-- Let an armed fault strike if it is armed at this point. It strikes once. -/
def strike (registers : Registers) (point : FaultPoint) : Except StoreError Unit × Registers :=
  if registers.fault = some point then
    (.error point.error, { registers with fault := none })
  else (.ok (), registers)

end Registers

/-! ## Work -/

/-- An open transaction: its copy of the tables, and what it wrote to them. -/
structure Transaction where
  working : Tables
  journal : List Entry

/-- What a step of work can see and change. -/
structure Session where
  registers : Registers
  transaction : Transaction

/-- Steps of work, each of which may fail. -/
abbrev Work := ExceptT StoreError (StateM Session)

/-- The tables that the transaction works on. -/
def workingTables : Work Tables :=
  return (← get).transaction.working

/-- Fail if a fault is armed at this point. -/
def passFault (point : FaultPoint) : Work Unit := do
  let session ← get
  let (outcome, registers) := session.registers.strike point
  set { session with registers }
  liftExcept outcome
where
  /-- An outcome as a step of work. -/
  liftExcept (outcome : Except StoreError Unit) : Work Unit := ExceptT.mk (pure outcome)

/-- Read the clock. -/
def readClock : Work Moment := do
  let session ← get
  let registers := session.registers
  set { session with registers := { registers with clock := registers.clock + 1 } }
  return .reading registers.clock

/-- Draw the next identifier of a kind. -/
def drawId (kind : EntityKind) : Work (Id kind) := do
  let session ← get
  let sequences := session.registers.sequences.advance kind
  set { session with registers := { session.registers with sequences } }
  return ⟨sequences.last kind⟩

/-- Fail unless a row fits among the tables. -/
def ensureFits {kind : EntityKind} (row : kind.Row) : Work Unit := do
  match (← workingTables).check row with
  | .error error => throw error
  | .ok () => return ()

/-- The live row of an identifier. -/
def findLive {kind : EntityKind} (id : Id kind) : Work kind.Row := do
  match (← workingTables).live? id with
  | none => throw (.notLive id)
  | some row => return row

/-- Write a row and enter it in the journal. -/
def writeRow {kind : EntityKind} (row : kind.Row) (action : Action) : Work Unit :=
  modify fun session =>
    { session with
      transaction :=
        { working := session.transaction.working.put row
          journal := session.transaction.journal ++ [⟨kind, Row.id row, action⟩] } }

/-- Store a new row under a new identifier. The identifier is drawn before the row
is looked at, so a row that does not fit uses it up. -/
def create (kind : EntityKind) (build : Id kind → kind.Row) : Work kind.Row := do
  let row := build (← drawId kind)
  ensureFits row
  writeRow row .created
  return row

/-- Edit a live row, given the moment of the edit. -/
def revise (kind : EntityKind) (id : Id kind) (edit : kind.Row → Moment → kind.Row) :
    Work Moment := do
  let row ← findLive id
  let moment ← readClock
  writeRow (edit row moment) .updated
  return moment

/-- Edit a live row, given the moment of the edit, unless the edited row does not
fit among the tables. -/
def reviseChecked (kind : EntityKind) (id : Id kind) (edit : kind.Row → Moment → kind.Row) :
    Work Moment := do
  let row ← findLive id
  let moment ← readClock
  ensureFits (edit row moment)
  writeRow (edit row moment) .updated
  return moment

/-- Archive a live row. -/
def archive {kind : EntityKind} (id : Id kind) : Work Moment := do
  let row ← findLive id
  let moment ← readClock
  writeRow (Row.archive row moment) .archived
  return moment

/-- Archive the live rows of a kind that satisfy a condition, and count them. -/
def archiveWhere (kind : EntityKind) (condition : kind.Row → Bool) : Work Nat := do
  let moment ← readClock
  let session ← get
  let table := session.transaction.working.table kind
  let archived := table.liveRows condition
  set { session with
    transaction :=
      { working := session.transaction.working.setTable (table.archiveWhere condition moment)
        journal := session.transaction.journal ++
          archived.map fun row => (⟨kind, Row.id row, .archived⟩ : Entry) } }
  return archived.length

/-! ## Answering calls -/

/-- A row as queries return it: a variant comes with the values it was made of. -/
def loaded (tables : Tables) : {kind : EntityKind} → kind.Row → kind.Row
  | .root, row => row
  | .option, row => row
  | .value, row => row
  | .product, row => tables.withOptionValues row
  | .bridge, row => row

/-- Answer a query from the tables. -/
def answerQuery (tables : Tables) : (query : Query) → query.Reply
  | .isLive id => (tables.live? id).isSome
  | .get id => (tables.find? id).map (loaded tables)
  | .hasPrefix skuPrefix => tables.roots.rows.any (·.skuPrefix = skuPrefix)
  | .hasOption root name =>
    !(tables.options.liveRows fun row => row.root = root && row.name = name).isEmpty
  | .hasValue option value =>
    !(tables.values.liveRows fun row => row.option = option && row.value = value).isEmpty
  | .hasSku sku => tables.products.rows.any (·.sku = sku)
  | .rootByPrefix skuPrefix => tables.roots.rows.find? (·.skuPrefix = skuPrefix)
  | .optionByName root name =>
    (tables.options.liveRows fun row => row.root = root && row.name = name).head?
  | .valueByText option value =>
    (tables.values.liveRows fun row => row.option = option && row.value = value).head?
  | .productBySku sku =>
    (tables.products.rows.find? (·.sku = sku)).map tables.withOptionValues
  | .optionsOf root => tables.options.liveRows (·.root = root)
  | .valuesOf option => tables.values.liveRows (·.option = option)
  | .productsOf root =>
    (tables.products.liveRows (·.root = root)).map tables.withOptionValues

/-- Where a fault can strike a write. -/
def faultPoint : Write → FaultPoint
  | .createRoot _ => .create .root
  | .createOption _ => .create .option
  | .createValue _ => .create .value
  | .createProduct _ => .create .product
  | .createBridges _ _ => .create .bridge
  | .updateRoot _ => .update .root
  | .updateOption _ _ => .update .option
  | .updateValue _ _ => .update .value
  | .updateProduct _ => .update .product
  | .updateBridge _ => .update .bridge
  | .archiveRoot _ => .archive .root
  | .archiveOption _ => .archive .option
  | .archiveValue _ => .archive .value
  | .archiveProduct _ => .archive .product
  | .archiveValuesOf _ => .archive .value
  | .archiveBridgesOfProduct _ => .archive .bridge
  | .archiveBridgesOfValue _ => .archive .bridge

/-- The row of a new root. Without a date of its own it is available from now on. -/
def rootRow (new : NewRoot) (moment : Moment) (id : Id .root) : ProductRoot where
  id
  skuPrefix := new.skuPrefix
  details := new.details
  availableOn := new.availableOn.getD moment
  lifecycle := .created moment

/-- The row of a new variant. Without a date of its own it is available from now
on. -/
def productRow (new : NewProduct) (moment : Moment) (id : Id .product) : Product where
  id
  root := new.root
  optionSummary := new.optionSummary
  sku := new.sku
  details := new.details
  optionValues := []
  availableOn := new.availableOn.getD moment
  lifecycle := .created moment

/-- Store the bridges from a variant to some values, one after the other. -/
def createBridges (product : Id .product) (values : List (Id .value)) (moment : Moment) :
    Work (List VariantBridge) :=
  values.mapM fun value =>
    create .bridge fun id => ⟨id, product, value, .created moment⟩

/-- Carry out a write that no fault strikes. -/
def carryOut : (write : Write) → Work write.Reply
  | .createRoot new => do create .root (rootRow new (← readClock))
  | .createOption new => do
    let moment ← readClock
    create .option fun id => ⟨id, new.root, new.name, [], .created moment⟩
  | .createValue new => do
    let moment ← readClock
    create .value fun id => ⟨id, new.option, new.value, .created moment⟩
  | .createProduct new => do create .product (productRow new (← readClock))
  | .createBridges product values => do createBridges product values (← readClock)
  | .updateRoot new =>
    revise .root new.id fun row moment =>
      { (row : ProductRoot) with
        details := new.details
        availableOn := new.availableOn
        lifecycle := row.lifecycle.update moment }
  | .updateOption id name =>
    reviseChecked .option id fun row moment =>
      { (row : ProductOption) with name, lifecycle := row.lifecycle.update moment }
  | .updateValue id value =>
    reviseChecked .value id fun row moment =>
      { (row : OptionValue) with value, lifecycle := row.lifecycle.update moment }
  | .updateProduct new =>
    revise .product new.id fun row moment =>
      { (row : Product) with
        details := new.details
        optionValues := []
        availableOn := new.availableOn
        lifecycle := row.lifecycle.update moment }
  | .updateBridge new =>
    reviseChecked .bridge new.id fun row moment =>
      { (row : VariantBridge) with
        product := new.product
        value := new.value
        lifecycle := row.lifecycle.update moment }
  | .archiveRoot id => archive id
  | .archiveOption id => archive id
  | .archiveValue id => archive id
  | .archiveProduct id => archive id
  | .archiveValuesOf option => archiveWhere .value fun row => row.option = option
  | .archiveBridgesOfProduct product =>
    archiveWhere .bridge fun row => row.product = product
  | .archiveBridgesOfValue value => archiveWhere .bridge fun row => row.value = value

/-- Answer a call. Only a write can fail or change anything. -/
def answerCall : (call : Call) → Work call.Reply
  | .query query => return answerQuery (← workingTables) query
  | .write write => do
    passFault (faultPoint write)
    carryOut write

end VariantCatalog.Memory
