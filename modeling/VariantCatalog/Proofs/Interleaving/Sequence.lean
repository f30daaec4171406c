/-
# One after the other

A catalog that only one works on at a time is a special case of a catalog that many work
on: between the steps of an operation nobody else moves.  So whatever holds of every
interleaving holds of operations that are carried out one after the other
(`exists_moves`), and what an operation does in one go is merged with the last of its
steps (`exists_completes_of_perform`).

Some things hold only when nobody comes in between.  Every operation then commits onto the
tables that it began on, and no row is left behind by those above it (`attached_sequel`).
-/

import VariantCatalog.Proofs.Interleaving.Attachment
import VariantCatalog.Proofs.Interleaving.Course

namespace VariantCatalog.Memory

open Juncture

/-- Something that is done to a catalog while nobody else works on it. -/
inductive Errand where
  /-- A fault is armed. -/
  | arm (point : FaultPoint)
  /-- An operation is carried out. -/
  | carry (limit : Option Nat) (operation : Operation)

/-- The catalog after one more errand. -/
def follow (memory : Memory) : Errand → Memory
  | .arm point => memory.arm point
  | .carry limit operation => (store.perform limit operation memory).2

/-- The catalog after some errands, from the empty one on. -/
def sequel (errands : List Errand) : Memory := errands.foldl follow start

theorem sequel_append (errands : List Errand) (last : Errand) :
    sequel (errands ++ [last]) = (sequel errands).follow last := by
  rw [sequel, List.foldl_append]
  rfl

/-- An operation that is seen to succeed has a result. -/
theorem exists_ok_of_isSome {limit : Option Nat} {operation : Operation} {memory : Memory}
    (h : (store.perform limit operation memory).1.toOption.isSome) :
    ∃ result, store.perform limit operation memory =
      (.ok result, (store.perform limit operation memory).2) := by
  generalize store.perform limit operation memory = outcome at h ⊢
  obtain ⟨error | result, after⟩ := outcome
  · cases h
  · exact ⟨result, rfl⟩

/-! ## What is committed in one go -/

variable {operation : Operation}

/-- An operation that nobody disturbs has committed nothing as long as it has not
succeeded. -/
theorem Juncture.committed_course {here : Juncture operation} (steps : Nat) :
    (here.course alone steps).memory.committed = here.memory.committed ∨
      ∃ result, (here.course alone steps).progress = .ended (.ok result) := by
  induction steps with
  | zero => exact .inl rfl
  | succ steps ih =>
      rcases ih with hsame | ⟨result, hresult⟩
      · rcases committed_next (here.course alone steps) with hnext | hended
        · exact .inl (hnext.trans hsame)
        · exact .inr hended
      · exact .inr ⟨result, course_of_ended hresult 1⟩

theorem committed_perform (limit : Option Nat) (operation : Operation) (memory : Memory) :
    (store.perform limit operation memory).2.committed = memory.committed ∨
      ∃ result, (store.perform limit operation memory).1 = .ok result := by
  obtain ⟨steps, hsteps⟩ := perform_eq_course limit operation memory
  have hcases := @committed_course _ (outset limit operation memory) steps
  rw [hsteps] at hcases
  exact hcases.imp_right fun ⟨result, hresult⟩ => ⟨result, Progress.ended.inj hresult⟩

theorem committed_run {α : Type} (program : Program α) (tx : Transaction) (memory : Memory) :
    (store.run program tx memory).2.2.committed = memory.committed := by
  induction program generalizing tx memory with
  | done result => rfl
  | refuse error => rfl
  | call request next ih =>
      have hanswer : store.answer request tx memory = memory.answer request tx := rfl
      rw [Store.run, hanswer, answer]
      generalize (answerCall request).run.run ⟨memory.registers, tx⟩ = answered
      obtain ⟨error | reply, after⟩ := answered
      · rfl
      · exact ih reply _ _

/-- Nor has one that only reads. -/
theorem committed_perform_of_read {operation : Operation} (hread : operation.isRead = true)
    (limit : Option Nat) (memory : Memory) :
    (store.perform limit operation memory).2.committed = memory.committed := by
  have hbegin : store.begin memory = (.ok memory.begin, memory) := rfl
  rw [Store.perform, hread]
  cases operation.screen limit with
  | error error => rfl
  | ok _ =>
      simp only [if_true, Store.observe, hbegin]
      exact committed_run operation.body memory.begin memory

/-- An operation arms no fault. -/
theorem fault_perform (limit : Option Nat) (operation : Operation) {memory : Memory}
    (h : memory.registers.fault = none) :
    (store.perform limit operation memory).2.registers.fault = none := by
  obtain ⟨whole, hwhole⟩ := perform_eq_course limit operation memory
  have hcourse : ∀ steps, ((outset limit operation memory).course alone
      steps).memory.registers.fault = none := by
    intro steps
    induction steps with
    | zero => exact h
    | succ steps ih =>
        have hspared := @fault_next _ ((outset limit operation memory).course alone steps)
          fun point hfires => by
            rw [Fires, ih] at hfires
            cases hfires.1
        exact hspared.trans ih
  have hlast := hcourse whole
  rw [hwhole] at hlast
  exact hlast

namespace System

/-! ## An operation with nobody in between -/

/-- A client sets out on an operation and does some steps of it. -/
def turn (name : Nat) (limit : Option Nat) (operation : Operation) (steps : Nat) : List Move :=
  .enter name limit operation :: List.replicate steps (.advance name)

theorem isService_of_mem_turn {name : Nat} {limit : Option Nat} {operation : Operation}
    {steps : Nat} {move : Move} (h : move ∈ turn name limit operation steps) :
    move.isService := by
  rcases List.mem_cons.mp h with rfl | h
  · rfl
  · rw [List.eq_of_mem_replicate h]
    rfl

theorem run_turn_succ (moves : List Move) (name : Nat) (limit : Option Nat)
    (operation : Operation) (steps : Nat) :
    run (moves ++ turn name limit operation (steps + 1)) =
      (run (moves ++ turn name limit operation steps)).move (.advance name) := by
  rw [turn, List.replicate_succ', ← List.cons_append, ← List.append_assoc, run_append]
  rfl

/-- With nobody in between, an operation takes the course that it takes alone. -/
theorem run_turn (moves : List Move) (name : Nat) (limit : Option Nat) (operation : Operation)
    (steps : Nat) :
    (run (moves ++ turn name limit operation steps)).memory =
        ((outset limit operation (run moves).memory).course alone steps).memory ∧
      (run (moves ++ turn name limit operation steps)).client name =
        some ⟨(run moves).memory.committed.tables, .serving operation
          ((outset limit operation (run moves).memory).course alone steps).progress⟩ := by
  induction steps with
  | zero =>
      rw [turn, List.replicate_zero, run_append]
      exact ⟨rfl, client_seat_self _ _ _⟩
  | succ steps ih =>
      obtain ⟨hmemory, hclient⟩ := ih
      rw [run_turn_succ]
      simp only [move, hclient, hmemory]
      exact ⟨rfl, client_seat_self _ _ _⟩

/-- So some moves bring about what an operation comes to in one go. -/
theorem exists_turn (moves : List Move) (name : Nat) (limit : Option Nat)
    (operation : Operation) :
    ∃ steps, (run (moves ++ turn name limit operation steps)).memory =
      (store.perform limit operation (run moves).memory).2 := by
  obtain ⟨steps, hsteps⟩ := perform_eq_course limit operation (run moves).memory
  refine ⟨steps, ?_⟩
  rw [(run_turn moves name limit operation steps).1, hsteps]

/-- An operation that changes the catalog in one go completes in as many moves, and until the
last of them nothing is committed. -/
theorem exists_completes_of_perform {moves : List Move} {limit : Option Nat}
    {operation : Operation} {result : operation.Result} {after : Memory} (name : Nat)
    (h : store.perform limit operation (run moves).memory = (.ok result, after)) :
    ∃ steps,
      (run (moves ++ turn name limit operation steps)).memory.committed =
          (run moves).memory.committed ∧
        (run (moves ++ turn name limit operation steps)).Completes name
          (run moves).memory.committed.tables operation result ∧
        ((run (moves ++ turn name limit operation steps)).move (.advance name)).memory =
          after := by
  obtain ⟨whole, hwhole⟩ := perform_eq_course limit operation (run moves).memory
  rw [h] at hwhole
  have hopen : (outset limit operation (run moves).memory).progress.isEnded = false := by
    cases hscreen : operation.screen limit with
    | ok _ =>
        rw [outset, Progress.enter, hscreen]
        rfl
    | error error =>
        rw [Store.perform, hscreen] at h
        cases h
  obtain ⟨steps, hbefore, hlast⟩ := exists_last_step hopen (congrArg Juncture.progress hwhole)
  rw [hwhole] at hlast
  obtain ⟨hmemory, hclient⟩ := run_turn moves name limit operation steps
  obtain ⟨hmemoryLast, hclientLast⟩ := run_turn moves name limit operation (steps + 1)
  rw [run_turn_succ, hlast] at hmemoryLast hclientLast
  refine ⟨steps, ?_, ⟨⟨_, hbefore steps (Nat.le_refl steps), hclient⟩, hclientLast⟩,
    hmemoryLast⟩
  rw [hmemory]
  refine (committed_course steps).resolve_right ?_
  rintro ⟨ending, hending⟩
  have hopen := hbefore steps (Nat.le_refl steps)
  rw [hending] at hopen
  cases hopen

/-! ## Errands -/

/-- Errands are moves that nobody disturbs. -/
theorem exists_moves (errands : List Errand) :
    ∃ moves : List Move, (∀ move ∈ moves, move.isService) ∧
      (run moves).memory = sequel errands := by
  induction errands using List.reverseRecOn with
  | nil => exact ⟨[], fun _ hmem => absurd hmem List.not_mem_nil, rfl⟩
  | append_singleton errands last ih =>
      obtain ⟨moves, hservice, hmemory⟩ := ih
      rw [sequel_append, ← hmemory]
      cases last with
      | arm point =>
          refine ⟨moves ++ [.arm point], fun move hmem => ?_, ?_⟩
          · rcases List.mem_append.mp hmem with hmem | hmem
            · exact hservice move hmem
            · rw [List.mem_singleton.mp hmem]
              rfl
          · rw [run_append]
            rfl
      | carry limit operation =>
          obtain ⟨steps, hsteps⟩ := exists_turn moves 0 limit operation
          refine ⟨moves ++ turn 0 limit operation steps, fun move hmem => ?_, hsteps⟩
          rcases List.mem_append.mp hmem with hmem | hmem
          · exact hservice move hmem
          · exact isService_of_mem_turn hmem

/-- What an operation that has succeeded in one go has merged. -/
structure Settles (before : Committed) (operation : Operation) (result : operation.Result)
    (tx : Transaction) (after : Committed) : Prop where
  effect : operation.Effect before.tables result tx
  departs : Departs before.tables tx
  fresh {kind : EntityKind} {id : Id kind} : (⟨kind, id, .created⟩ : Entry) ∈ tx.journal →
    before.tables.find? id = none
  merged : before.merge tx = .ok after

/-- An operation that changes the catalog in one go has merged its effect. -/
theorem exists_settles {moves : List Move} {limit : Option Nat} {operation : Operation}
    {result : operation.Result} {after : Memory} (hwrites : operation.isRead = false)
    (h : store.perform limit operation (run moves).memory = (.ok result, after)) :
    ∃ tx, Settles (run moves).memory.committed operation result tx after.committed := by
  obtain ⟨steps, hcommitted, hcompletes, hafter⟩ := exists_completes_of_perform 0 h
  obtain ⟨tx, committed, hclient, hmerge, hlast⟩ := hcompletes.merged hwrites
  rw [hafter] at hlast
  rw [hcommitted, ← hlast] at hmerge
  have hholds := draft_scene hclient rfl
  have horderly := orderly_run (moves ++ turn 0 limit operation steps)
  refine ⟨tx, (keeps_run _ hclient).2, horderly.departs hholds, fun hcreated => ?_, hmerge⟩
  rw [← hcommitted]
  exact horderly.fresh hholds hcreated

theorem coherent_sequel (errands : List Errand) :
    (sequel errands).committed.tables.Coherent := by
  obtain ⟨moves, hservice, hmemory⟩ := exists_moves errands
  rw [← hmemory]
  exact (coherent_of_initial hservice (List.prefix_refl moves)).committed

/-- **When operations are carried out one after the other, no option outlives its root and no
value its option.** -/
theorem attached_sequel (errands : List Errand) :
    (sequel errands).committed.tables.Attached := by
  induction errands using List.reverseRecOn with
  | nil => exact Tables.attached_empty
  | append_singleton errands last ih =>
      obtain ⟨moves, hservice, hmemory⟩ := exists_moves errands
      have hcoherent := coherent_sequel errands
      rw [← hmemory] at ih hcoherent
      rw [sequel_append, ← hmemory]
      cases last with
      | arm point => exact ih
      | carry limit operation =>
          by_cases hwrites : operation.isRead = true
          · rw [follow, committed_perform_of_read hwrites]
            exact ih
          rw [Bool.not_eq_true] at hwrites
          rcases committed_perform limit operation (run moves).memory with
            hcommitted | ⟨result, houtcome⟩
          · rw [follow, hcommitted]
            exact ih
          · obtain ⟨tx, hsettles⟩ := exists_settles hwrites (Prod.ext houtcome rfl)
            have hdeed := hsettles.effect.deed hwrites
            have hattaches := hdeed.attaches hsettles.departs ih
            have hrooted := (hdeed.upkeep hsettles.departs hcoherent).2
            have hmeets : Meets (run moves).memory.committed.tables (run moves).memory.committed
                tx (store.perform limit operation (run moves).memory).2.committed :=
              ⟨Tables.becomes_refl _, Tables.foreruns_refl _, hsettles.departs, hrooted,
                hsettles.fresh, hsettles.merged⟩
            exact hmeets.attached_after ih hattaches
              (.of_undisturbed hsettles.departs hattaches)

end System

end VariantCatalog.Memory
