/-
# Exchanges with a database

A `Peer` is a database as it is seen from here: it answers each command with a
reply and goes on to another state.  An `Exchange` is a piece of work that sends
commands; it fails with the error of a store, and commands sent before a failure
stay sent.
-/

import VariantCatalog.Sql.Command
import VariantCatalog.Sql.Row

namespace VariantCatalog.Sql

/-- What a database answers to a command. -/
inductive Reply where
  /-- Records, all of which have the same columns. -/
  | records (rows : List Record)
  /-- The number of rows that were written. -/
  | affected (n : Nat)
  /-- A refusal. -/
  | refused (refusal : Refusal)
  /-- The command was taken, but no transaction is open behind it. -/
  | idle
  deriving DecidableEq

/-- A database with states `σ`. -/
abbrev Peer (σ : Type) := Command → σ → Reply × σ

/-- Work that sends commands to a database with states `σ`. -/
abbrev Exchange (σ : Type) := ExceptT StoreError (StateM σ)

variable {σ α : Type} (peer : Peer σ)

/-- What a step made of the reply to a command, as part of an exchange. -/
def interpret (outcome : Except StoreError α) : Exchange σ α :=
  ExceptT.mk (pure outcome)

/-- Send a command and take the reply unless it is a refusal. -/
def send (step : String) (command : Command) : Exchange σ Reply := do
  match ← modifyGetThe σ (peer command) with
  | .refused refusal => throw (Failure.inStep step (.refused refusal))
  | reply => return reply

/-- The records of a reply. -/
def Reply.recordList : Reply → List Record
  | records rows => rows
  | _ => []

/-- The number of rows that a reply is about. -/
def Reply.count : Reply → Nat
  | records rows => rows.length
  | affected n => n
  | _ => 0

/-- Send a command and take all records of the reply. -/
def fetchAll (step : String) (command : Command) : Exchange σ (List Record) := do
  return (← send peer step command).recordList

/-- Send a command and take the first record of the reply, if there is one. -/
def fetchFirst? (step : String) (command : Command) : Exchange σ (Option Record) := do
  return (← fetchAll peer step command).head?

/-- Send a command and take the first record of the reply. -/
def fetchFirst (step : String) (command : Command) : Exchange σ Record := do
  match ← fetchFirst? peer step command with
  | none => throw (Failure.inStep step .noRecord)
  | some record => return record

/-- Send a command that is answered by a single truth value. -/
def fetchTruth (step : String) (command : Command) : Exchange σ Bool := do
  let record ← fetchFirst peer step command
  interpret ((record.readTruth).mapError (Failure.inStep step))

/-- Send a command that stamps a single row, and take the stamp. -/
def fetchStamp (step column : String) (command : Command) : Exchange σ Calendar.Moment := do
  match ← fetchFirst? peer step command with
  | none => throw (.rowNotFound (step ++ ": target does not exist or is archived"))
  | some record => interpret ((record.moment column).mapError (Failure.inStep step))

end VariantCatalog.Sql
