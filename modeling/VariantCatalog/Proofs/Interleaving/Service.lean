/-
# Operations in good faith

An operation that is under way among others meets a memory that they have moved on.
Still its transaction ends up as its body has it: what the others do between two of
its calls reaches it through the registers only, and that much interference every
body was proved against.  So whatever is known of the transaction at the end of a
body holds of an operation in any interleaving, from the end of its body up to its
commit (`System.Keeps`).

This is one of the things that can be said of an operation by how far it has come.  Whatever
outlasts what the operation itself does next, and the numbers that others draw meanwhile,
holds throughout if it holds at the outset (`System.upholds_run`).
-/

import VariantCatalog.Proofs.Interleaving.Scene
import VariantCatalog.Proofs.Memory.Answers

namespace VariantCatalog.Memory

/-- What is known of an operation at the end of its body: from the tables that it
began on, its result, and its transaction. -/
def Account := (operation : Operation) → Tables → operation.Result → Transaction → Prop

namespace Progress

variable {operation : Operation} {account : Account} {origin : Tables}

/-- Wherever an operation stands, its account will be right, or is. One that only
reads does not come to a commit. -/
def Keeps (account : Account) (origin : Tables) (sequences : Sequences) :
    Progress operation → Prop
  | .working tx rest => ∃ session : Session, session.transaction = tx ∧
      session.registers.sequences ≤ sequences ∧
        Secures (fun result after => account operation origin result after.transaction) rest
          session
  | .committing tx result => operation.isRead = false ∧ account operation origin result tx
  | .ended _ => True

theorem Keeps.mono {sequences more : Sequences} {progress : Progress operation}
    (h : progress.Keeps account origin sequences) (hle : sequences ≤ more) :
    progress.Keeps account origin more := by
  cases progress with
  | working tx rest =>
      obtain ⟨session, htx, hsequences, hrest⟩ := h
      exact ⟨session, htx, Sequences.le_trans hsequences hle, hrest⟩
  | committing tx result => exact h
  | ended outcome => trivial

/-- The next thing that an operation does keeps its account right. -/
theorem Keeps.advance {memory : Memory} {progress : Progress operation}
    (h : progress.Keeps account origin memory.registers.sequences) :
    (progress.advance memory).1.Keeps account origin
      (progress.advance memory).2.registers.sequences := by
  cases progress with
  | working tx rest =>
      obtain ⟨session, rfl, hle, hrest⟩ := h
      cases rest with
      | done result =>
          simp only [Progress.advance]
          split
          · trivial
          · next hread =>
            split
            · trivial
            · exact ⟨Bool.eq_false_iff.mpr hread, hrest⟩
      | refuse error => trivial
      | call request next =>
          simp only [Progress.advance, answer]
          generalize hrun : (answerCall request).run.run
            ⟨memory.registers, session.transaction⟩ = answered
          obtain ⟨_ | reply, after⟩ := answered
          · trivial
          · exact ⟨after, rfl, Sequences.le_refl _, hrest reply after ⟨memory.registers, hle, hrun⟩⟩
  | committing tx result =>
      simp only [Progress.advance]
      split <;> trivial
  | ended outcome => trivial

end Progress

theorem Event.sequences_le {scene after : Scene} (h : Event scene after) :
    scene.memory.registers.sequences ≤ after.memory.registers.sequences := by
  cases h with
  | turn => exact Sequences.le_refl _
  | begin => exact Sequences.le_refl _
  | stroke name origin tx later holds hstroke => exact hstroke.sequences_le
  | leave => exact Sequences.le_refl _
  | merge => exact Sequences.le_refl _

theorem Events.sequences_le {scene after : Scene} (h : Events scene after) :
    scene.memory.registers.sequences ≤ after.memory.registers.sequences := by
  induction h with
  | refl => exact Sequences.le_refl _
  | tail _ hlast ih => exact Sequences.le_trans ih hlast.sequences_le

namespace System

/-- What can be said of an operation under way: by the tables that it began on, and the
numbers that were drawn by now. -/
abbrev Tenet := (operation : Operation) → Tables → Sequences → Progress operation → Prop

/-- A tenet that outlasts whatever an operation does, and whatever others do meanwhile. -/
structure Tenet.Lasts (tenet : Tenet) : Prop where
  mono {operation : Operation} {origin : Tables} {sequences more : Sequences}
    {progress : Progress operation} :
    tenet operation origin sequences progress → sequences ≤ more →
      tenet operation origin more progress
  advance {operation : Operation} {origin : Tables} {memory : Memory}
    {progress : Progress operation} :
    tenet operation origin memory.registers.sequences progress →
      tenet operation origin (progress.advance memory).2.registers.sequences
        (progress.advance memory).1

variable {tenet : Tenet} {system : System}

/-- The tenet holds of every operation under way. -/
def Upholds (tenet : Tenet) (system : System) : Prop :=
  ∀ ⦃name : Nat⦄ ⦃origin : Tables⦄ ⦃operation : Operation⦄ ⦃progress : Progress operation⦄,
    system.client name = some ⟨origin, .serving operation progress⟩ →
      tenet operation origin system.memory.registers.sequences progress

/-- No move spoils a lasting tenet, as long as it holds of whoever sets out. -/
theorem Upholds.move (h : system.Upholds tenet) (hlasts : tenet.Lasts) (move : Move)
    (henter : ∀ limit operation, tenet operation system.memory.committed.tables
      system.memory.registers.sequences (.enter limit operation system.memory)) :
    (system.move move).Upholds tenet := by
  intro name origin operation progress hclient
  have hle : system.memory.registers.sequences ≤
      (system.move move).memory.registers.sequences := (system.events_move move).sequences_le
  cases arrives_move hclient with
  | stayed before => exact hlasts.mono (h before) hle
  | entered => exact hlasts.mono (henter _ operation) hle
  | advanced made before =>
      subst made
      rw [memory_move_advance before]
      exact hlasts.advance (h before)

/-- A lasting tenet that holds of whoever sets out holds in every interleaving. -/
theorem upholds_run (hlasts : tenet.Lasts)
    (henter : ∀ moves limit operation, tenet operation (run moves).memory.committed.tables
      (run moves).memory.registers.sequences (.enter limit operation (run moves).memory))
    (moves : List Move) : (run moves).Upholds tenet := by
  have hstart : start.Upholds tenet := by
    intro name origin operation progress hclient
    cases hclient
  refine @run_preserves (fun _ => True) (Upholds tenet) hstart ?_ moves fun _ _ => trivial
  exact fun done move _ hupholds => hupholds.move hlasts move (henter done)

variable {account : Account}

/-- The account of every operation under way will be right, or is. -/
def Keeps (account : Account) (system : System) : Prop :=
  ∀ ⦃name : Nat⦄ ⦃origin : Tables⦄ ⦃operation : Operation⦄ ⦃progress : Progress operation⦄,
    system.client name = some ⟨origin, .serving operation progress⟩ →
      progress.Keeps account origin system.memory.registers.sequences

/-- An account is right in every interleaving, as long as the bodies of the operations that are
not malformed make good on it when they set out from what is committed. -/
theorem keeps_of_secures
    (hbody : ∀ moves limit (operation : Operation), operation.screen limit = .ok () →
      Secures (fun result after =>
          account operation (run moves).memory.committed.tables result after.transaction)
        operation.body ⟨(run moves).memory.registers, (run moves).memory.begin⟩)
    (moves : List Move) : (run moves).Keeps account := by
  refine @upholds_run (fun _ origin sequences progress => progress.Keeps account origin sequences)
    ⟨Progress.Keeps.mono, Progress.Keeps.advance⟩ (fun done limit operation => ?_) moves
  rw [Progress.enter]
  cases hscreen : operation.screen limit with
  | error error => trivial
  | ok _ => exact ⟨_, rfl, Sequences.le_refl _, hbody done limit operation hscreen⟩

end System

end VariantCatalog.Memory
