/-
# The course of an operation

A `Juncture` is where an operation stands and the memory that it meets there.  Between
two of its steps others may do anything to the memory, and a course takes what they
do as given: whatever holds of every course holds of the operation among whatever
others.  If they do nothing, then the course comes to what `Store.perform` does in
one go (`perform_eq_course`).

A course goes on for ever, but every operation ends after some steps, and from then
on nothing changes.
-/

import VariantCatalog.Proofs.Interleaving.System
import VariantCatalog.Proofs.Memory.Stroke

namespace VariantCatalog.Memory

variable {operation : Operation}

/-- Where an operation stands, and the memory that it meets. -/
structure Juncture (operation : Operation) where
  progress : Progress operation
  memory : Memory

/-- The point at which a fault can strike the next step of an operation. -/
def Progress.point? : Progress operation → Option FaultPoint
  | .working _ (.call (.write change) _) => some (faultPoint change)
  | .working _ (.done _) => if operation.isRead then none else some .commit
  | _ => none

namespace Juncture

/-- An operation that sets out. -/
def outset (limit : Option Nat) (operation : Operation) (memory : Memory) : Juncture operation :=
  ⟨.enter limit operation memory, memory⟩

/-- The juncture after the operation has done the next thing. -/
def next (here : Juncture operation) : Juncture operation :=
  match here.progress.advance here.memory with
  | (progress, memory) => ⟨progress, memory⟩

/-- The juncture after others have done something to the memory. -/
def disturb (here : Juncture operation) (other : Memory → Memory) : Juncture operation :=
  match here with
  | ⟨progress, memory⟩ => ⟨progress, other memory⟩

/-- The juncture after some steps, when others do something to the memory after each. -/
def course (others : Nat → Memory → Memory) (here : Juncture operation) : Nat → Juncture operation
  | 0 => here
  | steps + 1 => (here.course others steps).next.disturb (others steps)

/-- Others who leave the memory alone. -/
def alone : Nat → Memory → Memory := fun _ memory => memory

/-- Whether a fault strikes the next step. -/
def Fires (here : Juncture operation) (point : FaultPoint) : Prop :=
  here.memory.registers.fault = some point ∧ here.progress.point? = some point

instance (here : Juncture operation) (point : FaultPoint) : Decidable (here.Fires point) :=
  inferInstanceAs (Decidable (_ ∧ _))

/-! ## One step -/

variable {here : Juncture operation} {point : FaultPoint}

/-- A step that a fault strikes ends the operation with the error of the fault, and
does nothing but to spend it. -/
theorem next_of_fires (h : here.Fires point) :
    here.next = ⟨.ended (.error (.storage point.error)),
      { here.memory with registers := { here.memory.registers with fault := none } }⟩ := by
  obtain ⟨progress, memory⟩ := here
  obtain ⟨hfault, hpoint⟩ := h
  dsimp only at hfault hpoint
  cases progress with
  | working tx rest =>
      cases rest with
      | done result =>
          simp only [Progress.point?] at hpoint
          split at hpoint
          · cases hpoint
          · next hread =>
            cases hpoint
            simp only [next, Progress.advance, if_neg hread, prepare_eq, if_pos hfault]
            rfl
      | refuse error => cases hpoint
      | call request rest =>
          cases request with
          | query read => cases hpoint
          | write change =>
              cases hpoint
              have hrun : (answerCall (.write change)).run.run ⟨memory.registers, tx⟩ =
                  (.error (faultPoint change).error,
                    Session.disarm ⟨memory.registers, tx⟩) := by
                rw [run_write, if_pos hfault]
              rw [next, Progress.advance, answer, hrun]
              rfl
  | committing tx result => cases hpoint
  | ended outcome => cases hpoint

/-- A step that no fault strikes leaves the fault that is armed alone. -/
theorem fault_next (h : ∀ point, ¬ here.Fires point) :
    here.next.memory.registers.fault = here.memory.registers.fault := by
  obtain ⟨progress, memory⟩ := here
  cases progress with
  | working tx rest =>
      cases rest with
      | done result =>
          rw [next, Progress.advance]
          by_cases hread : operation.isRead
          · rw [if_pos hread]
          · have hfault : memory.registers.fault ≠ some .commit :=
              fun hfault => h .commit ⟨hfault, if_neg hread⟩
            rw [if_neg hread, prepare_eq, if_neg hfault]
      | refuse error => rfl
      | call request rest =>
          have hsession : ((answerCall request).run.run
              ⟨memory.registers, tx⟩).2.registers.fault = memory.registers.fault := by
            cases request with
            | query read => rfl
            | write change =>
                have hfault : memory.registers.fault ≠ some (faultPoint change) :=
                  fun hfault => h _ ⟨hfault, rfl⟩
                rw [run_write, if_neg hfault]
                exact (ByStrokes.carryOut change ⟨memory.registers, tx⟩).fault_eq
          rw [next, Progress.advance, answer]
          generalize (answerCall request).run.run ⟨memory.registers, tx⟩ = answered at hsession ⊢
          obtain ⟨_ | reply, after⟩ := answered
          · exact hsession
          · exact hsession
  | committing tx result =>
      rw [next, Progress.advance, apply]
      cases memory.committed.merge tx with
      | error error => rfl
      | ok committed => rfl
  | ended outcome => rfl

/-- A step that commits something is the last one, and the operation has succeeded. -/
theorem committed_next (here : Juncture operation) :
    here.next.memory.committed = here.memory.committed ∨
      ∃ result, here.next.progress = .ended (.ok result) := by
  rcases here.progress.committed_advance here.memory with
    hcommitted | ⟨_, result, _, _, _, hadvance⟩
  · exact .inl hcommitted
  · right
    rw [next, hadvance]
    exact ⟨result, rfl⟩

theorem next_of_ended {outcome : Except CatalogError operation.Result}
    (h : here.progress = .ended outcome) : here.next = here := by
  obtain ⟨progress, memory⟩ := here
  cases h
  rfl

/-! ## Many steps -/

variable {others : Nat → Memory → Memory} {outcome other : Except CatalogError operation.Result}

theorem progress_disturb (here : Juncture operation) (other : Memory → Memory) :
    (here.disturb other).progress = here.progress := rfl

/-- An operation that has ended stays as it is. -/
theorem course_of_ended {steps : Nat} (h : (here.course others steps).progress = .ended outcome)
    (more : Nat) : (here.course others (steps + more)).progress = .ended outcome := by
  induction more with
  | zero => exact h
  | succ more ih =>
      rw [← Nat.add_assoc, course, progress_disturb, next_of_ended ih]
      exact ih

/-- An operation has one outcome. -/
theorem outcome_unique {first second : Nat}
    (h : (here.course others first).progress = .ended outcome)
    (hother : (here.course others second).progress = .ended other) : outcome = other := by
  have hfirst := course_of_ended h second
  have hsecond := course_of_ended hother first
  rw [Nat.add_comm, hsecond] at hfirst
  exact (Progress.ended.inj hfirst).symm

/-- The first step may be taken apart. -/
theorem course_succ (others : Nat → Memory → Memory) (here : Juncture operation) (steps : Nat) :
    here.course others (steps + 1) =
      (here.next.disturb (others 0)).course (fun step => others (step + 1)) steps := by
  induction steps with
  | zero => rfl
  | succ steps ih =>
      rw [course, ih]
      rfl

theorem ends_of_next
    (h : ∃ steps outcome, ((here.next.disturb (others 0)).course
      (fun step => others (step + 1)) steps).progress = .ended outcome) :
    ∃ steps outcome, (here.course others steps).progress = .ended outcome := by
  obtain ⟨steps, outcome, hended⟩ := h
  rw [← course_succ] at hended
  exact ⟨steps + 1, outcome, hended⟩

/-- Whatever others do, every operation comes to an end. -/
theorem course_ends (others : Nat → Memory → Memory) (here : Juncture operation) :
    ∃ steps outcome, (here.course others steps).progress = .ended outcome := by
  obtain ⟨progress, memory⟩ := here
  have hcommitting : ∀ (others : Nat → Memory → Memory) (tx : Transaction)
      (result : operation.Result) (memory : Memory), ∃ steps outcome,
        (course others ⟨.committing tx result, memory⟩ steps).progress = .ended outcome := by
    intro others tx result memory
    refine ⟨1, ?_⟩
    rw [course, course, progress_disturb, next, Progress.advance, apply]
    cases memory.committed.merge tx with
    | error error => exact ⟨_, rfl⟩
    | ok committed => exact ⟨_, rfl⟩
  cases progress with
  | ended outcome => exact ⟨0, outcome, rfl⟩
  | committing tx result => exact hcommitting others tx result memory
  | working tx rest =>
      induction rest generalizing others tx memory with
      | refuse error => exact ⟨1, _, rfl⟩
      | done result =>
          apply ends_of_next
          rw [next, Progress.advance]
          by_cases hread : operation.isRead
          · rw [if_pos hread]
            exact ⟨0, _, rfl⟩
          · rw [if_neg hread]
            generalize memory.prepare = prepared
            obtain ⟨_ | _, after⟩ := prepared
            · exact ⟨0, _, rfl⟩
            · exact hcommitting _ tx result _
      | call request rest ih =>
          apply ends_of_next
          rw [next, Progress.advance]
          generalize memory.answer request tx = answered
          obtain ⟨_ | reply, later, after⟩ := answered
          · exact ⟨0, _, rfl⟩
          · exact ih reply _ _ later

/-! ## Nobody else -/

/-- Where an operation stands when its body has come to an end. -/
def stopped : Except CatalogError operation.Result × Transaction × Memory → Juncture operation
  | (.error error, _, memory) => ⟨.ended (.error error), memory⟩
  | (.ok result, tx, memory) => ⟨.working tx (.done result), memory⟩

/-- Where an operation ends that nobody disturbs, there it stays. -/
theorem course_alone_of_ended {steps : Nat}
    (h : (here.course alone steps).progress = .ended outcome) (more : Nat) :
    here.course alone (steps + more) = here.course alone steps := by
  induction more with
  | zero => rfl
  | succ more ih =>
      rw [← Nat.add_assoc, course, ih, next_of_ended h]
      rfl

theorem course_alone_unique {first second : Nat}
    (h : (here.course alone first).progress = .ended outcome)
    (hother : (here.course alone second).progress = .ended other) :
    here.course alone first = here.course alone second := by
  rw [← course_alone_of_ended h second, ← course_alone_of_ended hother first, Nat.add_comm]

/-- What nobody disturbs ends with some step, and not before. -/
theorem exists_last_step {whole : Nat} (hopen : here.progress.isEnded = false)
    (hended : (here.course alone whole).progress = .ended outcome) :
    ∃ steps, (∀ earlier ≤ steps, (here.course alone earlier).progress.isEnded = false) ∧
      here.course alone (steps + 1) = here.course alone whole := by
  induction whole with
  | zero =>
      have hstart : here.progress = .ended outcome := hended
      rw [hstart] at hopen
      cases hopen
  | succ whole ih =>
      cases hprogress : (here.course alone whole).progress with
      | ended other =>
          have hnext := course_alone_of_ended hprogress 1
          rw [hnext] at hended ⊢
          exact ih hended
      | _ =>
          refine ⟨whole, fun earlier hle => ?_, rfl⟩
          cases hearlier : (here.course alone earlier).progress with
          | ended other =>
              have hlast := course_of_ended hearlier (whole - earlier)
              rw [Nat.add_sub_cancel' hle, hprogress] at hlast
              cases hlast
          | _ => rfl

theorem course_run (program : Program operation.Result) (tx : Transaction) (memory : Memory) :
    ∃ steps, course alone ⟨.working tx program, memory⟩ steps =
      stopped (store.run program tx memory) := by
  induction program generalizing tx memory with
  | done result => exact ⟨0, rfl⟩
  | refuse error => exact ⟨1, rfl⟩
  | call request rest ih =>
      have hanswer : store.answer request tx memory = memory.answer request tx := rfl
      have hnext : (⟨.working tx (.call request rest), memory⟩ : Juncture operation).next =
          ⟨(Progress.advance (.working tx (.call request rest)) memory).1,
            (Progress.advance (.working tx (.call request rest)) memory).2⟩ := rfl
      rw [Progress.advance] at hnext
      rw [Store.run, hanswer]
      generalize memory.answer request tx = answered at hnext ⊢
      obtain ⟨error | reply, later, after⟩ := answered
      · refine ⟨1, ?_⟩
        rw [course, course, hnext]
        rfl
      · obtain ⟨steps, hsteps⟩ := ih reply later after
        refine ⟨steps + 1, ?_⟩
        rw [course_succ, hnext]
        exact hsteps

/-- What an operation does when its body has come to an end. -/
theorem course_conclude (tx : Transaction) (result : operation.Result) (memory : Memory) :
    ∃ steps, course alone ⟨.working tx (.done result), memory⟩ steps =
      if operation.isRead then ⟨.ended (.ok result), memory⟩
      else
        match memory.commit tx with
        | (.error error, memory) => ⟨.ended (.error (.ofStore error)), memory⟩
        | (.ok (), memory) => ⟨.ended (.ok result), memory⟩ := by
  by_cases hread : operation.isRead
  · refine ⟨1, ?_⟩
    rw [course, course, next, Progress.advance, if_pos hread, if_pos hread]
    rfl
  · rw [if_neg hread, commit]
    have hnext : (⟨.working tx (.done result), memory⟩ : Juncture operation).next =
        match memory.prepare with
        | (.error error, memory) => ⟨.ended (.error (.ofStore error)), memory⟩
        | (.ok (), memory) => ⟨.committing tx result, memory⟩ := by
      rw [next, Progress.advance, if_neg hread]
      generalize memory.prepare = prepared
      obtain ⟨_ | _, after⟩ := prepared <;> rfl
    generalize memory.prepare = prepared at hnext ⊢
    obtain ⟨error | _, after⟩ := prepared
    · refine ⟨1, ?_⟩
      rw [course, course, hnext]
      rfl
    · refine ⟨2, ?_⟩
      rw [course_succ, hnext, course, course]
      simp only [next, disturb, Progress.advance, alone]
      generalize after.apply tx = applied
      obtain ⟨error | _, last⟩ := applied <;> rfl

theorem course_alone_add (here : Juncture operation) (steps more : Nat) :
    here.course alone (steps + more) = (here.course alone steps).course alone more := by
  induction more with
  | zero => rfl
  | succ more ih =>
      rw [← Nat.add_assoc, course, ih]
      rfl

/-- An operation that nobody disturbs comes to what it comes to in one go. -/
theorem perform_eq_course (limit : Option Nat) (operation : Operation) (memory : Memory) :
    ∃ steps, (outset limit operation memory).course alone steps =
      ⟨.ended (store.perform limit operation memory).1,
        (store.perform limit operation memory).2⟩ := by
  rw [Store.perform, outset, Progress.enter]
  cases operation.screen limit with
  | error error => exact ⟨0, rfl⟩
  | ok _ =>
      have hbegin : store.begin memory = (.ok memory.begin, memory) := rfl
      obtain ⟨steps, hsteps⟩ := course_run operation.body memory.begin memory
      simp only [Store.observe, Store.transact, hbegin]
      generalize store.run operation.body memory.begin memory = ran at hsteps ⊢
      obtain ⟨error | result, tx, after⟩ := ran
      · refine ⟨steps, hsteps.trans ?_⟩
        by_cases hread : operation.isRead
        · rw [if_pos hread]
          rfl
        · rw [if_neg hread]
          rfl
      · obtain ⟨more, hmore⟩ := course_conclude tx result after
        refine ⟨steps + more, ?_⟩
        rw [course_alone_add, hsteps, stopped, hmore]
        by_cases hread : operation.isRead
        · rw [if_pos hread, if_pos hread]
          rfl
        · have hcommit : store.commit tx after = after.commit tx := rfl
          rw [if_neg hread, if_neg hread]
          simp only [hcommit]
          generalize after.commit tx = ended
          obtain ⟨error | _, last⟩ := ended <;> rfl

end Juncture

end VariantCatalog.Memory
