/-
# The answers of the store in memory

Between two calls of a transaction others may draw identifiers, read the clock and
arm faults; its own tables nobody else can touch.  `Answers` is what a call can be
answered then, and the theorems here say for each kind of call what the reply is
and what the transaction has become.

Rows that are created one after the other have ascending numbers, all of them above
every number that was drawn before: `Adds` puts creations together without ever
counting.
-/

import VariantCatalog.Proofs.Memory.Descent
import VariantCatalog.Proofs.Store.Reasoning
import Mathlib.Data.List.Forall2

namespace VariantCatalog

open Memory Calendar

/-- The number of a row. -/
def AnyRow.number (any : AnyRow) : Int := (Row.id any.row).number

namespace Memory

/-- What a call can be answered when others have used the registers meanwhile. -/
def Answers (request : Call) (session : Session) (reply : request.Reply) (after : Session) :
    Prop :=
  ∃ registers : Registers, session.registers.sequences ≤ registers.sequences ∧
    (answerCall request).run.run ⟨registers, session.transaction⟩ = (.ok reply, after)

/-- A program that ends, if it does, with a result of some kind, whatever others do
to the registers meanwhile. -/
abbrev Secures {α : Type} (ok : α → Session → Prop) (program : Program α) (session : Session) :
    Prop :=
  program.Ensures Answers ok (fun _ => True) session

theorem Strokes.sequences_le {session after : Session} (h : Strokes session after) :
    session.registers.sequences ≤ after.registers.sequences := by
  induction h with
  | refl => exact Sequences.le_refl _
  | tail _ hlast ih => exact Sequences.le_trans ih hlast.sequences_le

/-! ## Creations -/

/-- Some rows were created, one after the other. -/
structure Adds (before : Session) (rows : List AnyRow) (after : Session) : Prop where
  transaction : after.transaction = before.transaction.writeAll rows .created
  sequences_le : before.registers.sequences ≤ after.registers.sequences
  drawn : ∀ any ∈ rows, before.registers.sequences.last any.kind < any.number ∧
    any.number ≤ after.registers.sequences.last any.kind
  ascending : rows.Pairwise fun first second =>
    first.kind = second.kind → first.number < second.number

namespace Adds

variable {before middle after : Session} {rows more : List AnyRow}

theorem none (htransaction : after.transaction = before.transaction)
    (hle : before.registers.sequences ≤ after.registers.sequences) : Adds before [] after where
  transaction := htransaction.trans (Transaction.writeAll_nil _ _).symm
  sequences_le := hle
  drawn _ hmem := absurd hmem List.not_mem_nil
  ascending := List.Pairwise.nil

theorem trans (h : Adds before rows middle) (hnext : Adds middle more after) :
    Adds before (rows ++ more) after where
  transaction := by
    rw [hnext.transaction, h.transaction, Transaction.writeAll_append]
  sequences_le := Sequences.le_trans h.sequences_le hnext.sequences_le
  drawn any hmem := by
    rcases List.mem_append.mp hmem with hmem | hmem
    · obtain ⟨hlt, hle⟩ := h.drawn any hmem
      exact ⟨hlt, Int.le_trans hle (hnext.sequences_le any.kind)⟩
    · obtain ⟨hlt, hle⟩ := hnext.drawn any hmem
      exact ⟨Int.lt_of_le_of_lt (h.sequences_le any.kind) hlt, hle⟩
  ascending := by
    rw [List.pairwise_append]
    refine ⟨h.ascending, hnext.ascending, ?_⟩
    intro first hfirst second hsecond hkind
    -- The sequences stood between the two rows.
    have hle := (h.drawn first hfirst).2
    have hlt := (hnext.drawn second hsecond).1
    rw [← hkind] at hlt
    exact Int.lt_of_le_of_lt hle hlt

/-- Others may have drawn numbers before. -/
theorem widen (h : Adds middle rows after)
    (htransaction : middle.transaction = before.transaction)
    (hle : before.registers.sequences ≤ middle.registers.sequences) : Adds before rows after :=
  (none htransaction hle).trans h

end Adds

theorem adds_of_create {kind : EntityKind} {build : Id kind → kind.Row} {row : kind.Row}
    {session after : Session} (hid : ∀ id, Row.id (build id) = id)
    (h : (create kind build).run.run session = (.ok row, after)) :
    (∃ id, row = build id) ∧ Adds session [⟨kind, row⟩] after := by
  rw [run_create] at h
  split at h
  · cases h
  · cases h
    refine ⟨⟨_, rfl⟩, rfl, Sequences.le_advance _ kind, ?_, List.pairwise_singleton _ _⟩
    intro any hmem
    rw [List.mem_singleton.mp hmem]
    have hnumber : (Row.id (build (session.nextId kind))).number =
        session.registers.sequences.last kind + 1 := by
      rw [hid, Session.number_nextId]
    have hlast : ((session.draw kind).write (build (session.nextId kind))
        .created).registers.sequences.last kind =
          session.registers.sequences.last kind + 1 := Sequences.last_advance _ kind
    simp only [AnyRow.number, hnumber, hlast]
    omega

/-- The bridges of a variant, one for each value. -/
def Joins (product : Id .product) (values : List (Id .value)) (bridges : List VariantBridge) :
    Prop :=
  List.Forall₂ (fun value (bridge : VariantBridge) =>
    bridge.product = product ∧ bridge.value = value ∧ bridge.lifecycle.isLive) values bridges

theorem adds_of_createBridges {product : Id .product} {moment : Moment}
    (values : List (Id .value)) {bridges : List VariantBridge} {session after : Session}
    (h : (createBridges product values moment).run.run session = (.ok bridges, after)) :
    Joins product values bridges ∧
      Adds session (bridges.map fun bridge => ⟨.bridge, bridge⟩) after := by
  induction values generalizing bridges session with
  | nil =>
      cases h
      exact ⟨List.Forall₂.nil, Adds.none rfl (Sequences.le_refl _)⟩
  | cons value rest ih =>
      rw [createBridges, List.mapM_cons, ← createBridges, run_bind] at h
      split at h
      · next bridge middle hcreate =>
        obtain ⟨⟨id, rfl⟩, hadds⟩ := adds_of_create (fun _ => rfl) hcreate
        rw [run_bind] at h
        split at h
        · next more last hrest =>
          cases h
          obtain ⟨hjoins, hmore⟩ := ih hrest
          exact ⟨List.Forall₂.cons ⟨rfl, rfl, rfl⟩ hjoins, hadds.trans hmore⟩
        · cases h
      · cases h

/-! ## Edits -/

theorem write_of_run_revise {kind : EntityKind} {id : Id kind}
    {edit : kind.Row → Moment → kind.Row} {session after : Session} {moment : Moment}
    (h : (revise kind id edit).run.run session = (.ok moment, after)) :
    ∃ row, session.transaction.working.live? id = some row ∧
      after.transaction = session.transaction.write (edit row moment) .updated := by
  rw [run_revise] at h
  cases hfind : session.transaction.working.live? id with
  | none =>
      rw [hfind] at h
      cases h
  | some row =>
      rw [hfind] at h
      cases h
      exact ⟨row, rfl, rfl⟩

theorem write_of_run_reviseChecked {kind : EntityKind} {id : Id kind}
    {edit : kind.Row → Moment → kind.Row} {session after : Session} {moment : Moment}
    (h : (reviseChecked kind id edit).run.run session = (.ok moment, after)) :
    ∃ row, session.transaction.working.live? id = some row ∧
      after.transaction = session.transaction.write (edit row moment) .updated := by
  rw [run_reviseChecked] at h
  cases hfind : session.transaction.working.live? id with
  | none =>
      rw [hfind] at h
      cases h
  | some row =>
      rw [hfind] at h
      dsimp only at h
      split at h
      · cases h
      · cases h
        exact ⟨row, rfl, rfl⟩

/-! ## Calls -/

section Calls

variable {session after : Session}

theorem Answers.sequences_le {request : Call} {reply : request.Reply}
    (h : Answers request session reply after) :
    session.registers.sequences ≤ after.registers.sequences := by
  obtain ⟨registers, hle, hrun⟩ := h
  rcases strokes_answerCall request ⟨registers, session.transaction⟩ with
    ⟨error, hstruck⟩ | hstrokes
  · rw [hrun] at hstruck
    cases hstruck
  · rw [hrun] at hstrokes
    exact Sequences.le_trans hle hstrokes.sequences_le

/-- A question is answered from the working tables. -/
theorem answers_query {read : Query} {reply : read.Reply}
    (h : Answers (.query read) session reply after) :
    reply = answerQuery session.transaction.working read ∧
      after.transaction = session.transaction := by
  obtain ⟨registers, _, hrun⟩ := h
  rw [run_query] at hrun
  cases hrun
  exact ⟨rfl, rfl⟩

/-- A write that has a reply was carried out. -/
theorem answers_write {change : Write} {reply : change.Reply}
    (h : Answers (.write change) session reply after) :
    ∃ registers : Registers, session.registers.sequences ≤ registers.sequences ∧
      (carryOut change).run.run ⟨registers, session.transaction⟩ = (.ok reply, after) := by
  obtain ⟨registers, hle, hrun⟩ := h
  rw [run_write] at hrun
  split at hrun
  · cases hrun
  · exact ⟨registers, hle, hrun⟩

theorem answers_createRoot {new : NewRoot} {root : ProductRoot}
    (h : Answers (.write (.createRoot new)) session root after) :
    (∃ moment id, root = rootRow new moment id) ∧ Adds session [⟨.root, root⟩] after := by
  obtain ⟨registers, hle, hrun⟩ := answers_write h
  rw [carryOut, run_bind] at hrun
  obtain ⟨⟨id, hrow⟩, hadds⟩ := adds_of_create (fun _ => rfl) hrun
  exact ⟨⟨_, id, hrow⟩, hadds.widen rfl hle⟩

theorem answers_createOption {new : NewOption} {option : ProductOption}
    (h : Answers (.write (.createOption new)) session option after) :
    (∃ moment id, option = ⟨id, new.root, new.name, [], .created moment⟩) ∧
      Adds session [⟨.option, option⟩] after := by
  obtain ⟨registers, hle, hrun⟩ := answers_write h
  rw [carryOut, run_bind] at hrun
  obtain ⟨⟨id, hrow⟩, hadds⟩ := adds_of_create (fun _ => rfl) hrun
  exact ⟨⟨_, id, hrow⟩, hadds.widen rfl hle⟩

theorem answers_createValue {new : NewValue} {value : OptionValue}
    (h : Answers (.write (.createValue new)) session value after) :
    (∃ moment id, value = ⟨id, new.option, new.value, .created moment⟩) ∧
      Adds session [⟨.value, value⟩] after := by
  obtain ⟨registers, hle, hrun⟩ := answers_write h
  rw [carryOut, run_bind] at hrun
  obtain ⟨⟨id, hrow⟩, hadds⟩ := adds_of_create (fun _ => rfl) hrun
  exact ⟨⟨_, id, hrow⟩, hadds.widen rfl hle⟩

theorem answers_createProduct {new : NewProduct} {product : Product}
    (h : Answers (.write (.createProduct new)) session product after) :
    (∃ moment id, product = productRow new moment id) ∧
      Adds session [⟨.product, product⟩] after := by
  obtain ⟨registers, hle, hrun⟩ := answers_write h
  rw [carryOut, run_bind] at hrun
  obtain ⟨⟨id, hrow⟩, hadds⟩ := adds_of_create (fun _ => rfl) hrun
  exact ⟨⟨_, id, hrow⟩, hadds.widen rfl hle⟩

theorem answers_createBridges {product : Id .product} {values : List (Id .value)}
    {bridges : List VariantBridge}
    (h : Answers (.write (.createBridges product values)) session bridges after) :
    Joins product values bridges ∧
      Adds session (bridges.map fun bridge => ⟨.bridge, bridge⟩) after := by
  obtain ⟨registers, hle, hrun⟩ := answers_write h
  rw [carryOut, run_bind] at hrun
  obtain ⟨hjoins, hadds⟩ := adds_of_createBridges values hrun
  exact ⟨hjoins, hadds.widen rfl hle⟩

end Calls

end Memory

end VariantCatalog
