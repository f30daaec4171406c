/-
# How operations fail

An operation can fail at every call that it makes and at its commit, by a fault, by a
row that does not fit, or by what others have done meanwhile.  However it fails, it
leaves nothing behind: what is committed changes with the last step of an operation
that succeeds, and with no other.  A fault that strikes is never passed over, since
no body goes on after a call that has failed.

`Clean` is what is promised, of each step of an operation among whatever others, and
of an operation as a whole that nobody disturbs.
-/

import VariantCatalog.Proofs.Interleaving.Growth
import VariantCatalog.Proofs.Operation.Refusal

namespace VariantCatalog.Memory

open Juncture

variable {operation : Operation}

/-- What is promised of a step of an operation, or of all of it, given the outcome of
the operation, the memory before and after, and where a fault has struck. -/
structure Clean (outcome : Except CatalogError operation.Result) (before after : Memory)
    (struck : FaultPoint → Prop) : Prop where
  /-- If the operation fails, then nothing was committed. -/
  untouched : ∀ error, outcome = .error error → after.committed = before.committed
  /-- A fault that has struck is what the operation fails with, and is spent. -/
  surfaced : ∀ point, struck point →
    outcome = .error (.storage point.error) ∧ after.registers.fault = none
  /-- If the operation succeeds, then whatever fault was armed still is. -/
  spared : ∀ result, outcome = .ok result → after.registers.fault = before.registers.fault
  /-- If the operation is rejected as malformed, then nothing has happened at all. -/
  rejected : ∀ detail, outcome = .error (.validation detail) → after = before

/-! ## Rejections -/

/-- An operation under way will not be rejected as malformed, and has not been. -/
def Progress.Accepted : Progress operation → Prop
  | .working _ rest => rest.Accepts fun _ => True
  | .committing _ _ => True
  | .ended (.error error) => error.isRejection = false
  | .ended (.ok _) => True

theorem isRejection_ofStore (error : StoreError) :
    (CatalogError.ofStore error).isRejection = false := by
  cases error <;> rfl

theorem Progress.Accepted.advance {progress : Progress operation} (h : progress.Accepted)
    (memory : Memory) : (progress.advance memory).1.Accepted := by
  cases progress with
  | working tx rest =>
      cases rest with
      | done result =>
          rw [Progress.advance]
          by_cases hread : operation.isRead
          · rw [if_pos hread]
            trivial
          · rw [if_neg hread]
            generalize memory.prepare = prepared
            obtain ⟨error | _, after⟩ := prepared
            · exact isRejection_ofStore error
            · trivial
      | refuse error => exact CatalogError.isRejection_of_isFinding h
      | call request next =>
          rw [Progress.advance]
          generalize memory.answer request tx = answered
          obtain ⟨error | reply, later, after⟩ := answered
          · exact isRejection_ofStore error
          · exact h reply () trivial
  | committing tx result =>
      rw [Progress.advance]
      generalize memory.apply tx = applied
      obtain ⟨error | _, after⟩ := applied
      · exact isRejection_ofStore error
      · trivial
  | ended outcome => exact h

namespace Juncture

variable {here : Juncture operation} {others : Nat → Memory → Memory}

theorem accepted_course (h : here.progress.Accepted) (others : Nat → Memory → Memory)
    (steps : Nat) : (here.course others steps).progress.Accepted := by
  induction steps with
  | zero => exact h
  | succ steps ih => exact ih.advance _

/-- An operation that is malformed ends before it begins, and any other one will not
be rejected. -/
theorem outset_cases (limit : Option Nat) (operation : Operation) (memory : Memory) :
    (∃ ending, (outset limit operation memory).progress = .ended ending) ∨
      (outset limit operation memory).progress.Accepted := by
  rw [outset, Progress.enter]
  cases hscreen : operation.screen limit with
  | error error => exact .inl ⟨.error error, rfl⟩
  | ok _ => exact .inr (Operation.accepts_body hscreen)

/-! ## Every step is clean -/

theorem clean_step (h : (∃ ending, here.progress = .ended ending) ∨ here.progress.Accepted)
    {last : Nat} {outcome : Except CatalogError operation.Result}
    (hended : (here.course others last).progress = .ended outcome) (step : Nat) :
    Clean outcome (here.course others step).memory (here.course others step).next.memory
      (here.course others step).Fires := by
  -- Where a step ends the operation, it ends it with this outcome.
  have houtcome : ∀ ending, (here.course others step).next.progress = .ended ending →
      outcome = ending := by
    intro ending hending
    have hnext : (here.course others (step + 1)).progress = .ended ending := by
      rw [course, progress_disturb]
      exact hending
    exact outcome_unique hended hnext
  have hsurfaced : ∀ point, (here.course others step).Fires point →
      outcome = .error (.storage point.error) ∧
        (here.course others step).next.memory.registers.fault = none := by
    intro point hfires
    have hnext := next_of_fires hfires
    rw [hnext] at houtcome ⊢
    exact ⟨houtcome _ rfl, rfl⟩
  refine ⟨?_, hsurfaced, ?_, ?_⟩
  · rintro error rfl
    rcases committed_next (here.course others step) with hcommitted | ⟨result, hresult⟩
    · exact hcommitted
    · cases houtcome _ hresult
  · rintro result rfl
    apply fault_next
    intro point hfires
    cases (hsurfaced point hfires).1
  · rintro detail rfl
    rcases h with ⟨ending, hending⟩ | haccepted
    · have hstep := @course_of_ended _ _ others _ 0 hending step
      rw [Nat.zero_add] at hstep
      rw [next_of_ended hstep]
    · have hlast := accepted_course haccepted others last
      rw [hended] at hlast
      cases hlast

/-! ## So is the whole -/

/-- What no step changes, an operation that nobody disturbs does not change. -/
theorem course_alone_eq {α : Type} (view : Memory → α)
    (h : ∀ step, view (here.course alone step).next.memory =
      view (here.course alone step).memory) (steps : Nat) :
    view (here.course alone steps).memory = view here.memory := by
  induction steps with
  | zero => rfl
  | succ steps ih =>
      rw [← ih, ← h steps]
      rfl

end Juncture

/-- **Operations fail cleanly.** -/
theorem perform_clean (limit : Option Nat) (operation : Operation) (memory : Memory) :
    Clean (store.perform limit operation memory).1 memory
        (store.perform limit operation memory).2
        (fun point => ∃ step, ((outset limit operation memory).course alone step).Fires point) ∧
      ∀ (others : Nat → Memory → Memory) (last : Nat)
        (outcome : Except CatalogError operation.Result),
        ((outset limit operation memory).course others last).progress = .ended outcome →
          ∀ step, Clean outcome ((outset limit operation memory).course others step).memory
            ((outset limit operation memory).course others step).next.memory
            ((outset limit operation memory).course others step).Fires := by
  have houtset := outset_cases limit operation memory
  constructor
  · obtain ⟨steps, hsteps⟩ := perform_eq_course limit operation memory
    have hended : ((outset limit operation memory).course alone steps).progress =
        .ended (store.perform limit operation memory).1 := congrArg Juncture.progress hsteps
    have hmemory : ((outset limit operation memory).course alone steps).memory =
        (store.perform limit operation memory).2 := congrArg Juncture.memory hsteps
    have hclean := clean_step houtset hended
    rw [← hmemory]
    constructor
    · intro error herror
      apply course_alone_eq Memory.committed
      exact fun step => (hclean step).untouched error herror
    · rintro point ⟨step, hfires⟩
      obtain ⟨houtcome, hfault⟩ := (hclean step).surfaced point hfires
      have hstruck : ((outset limit operation memory).course alone (step + 1)).progress =
          .ended (.error (.storage point.error)) := by
        rw [course, progress_disturb, next_of_fires hfires]
      rw [course_alone_unique hended hstruck]
      exact ⟨houtcome, hfault⟩
    · intro result hresult
      apply course_alone_eq fun memory => memory.registers.fault
      exact fun step => (hclean step).spared result hresult
    · intro detail hdetail
      apply course_alone_eq id
      exact fun step => (hclean step).rejected detail hdetail
  · intro others last outcome hended step
    exact clean_step houtset hended step

/-- While the shirt is being created, somebody else creates it. -/
def shirtRival (step : Nat) (memory : Memory) : Memory :=
  if step = 3 then (store.perform none (.commit System.shirt) memory).2 else memory

/-- The shirt fails at its first bridge when a fault is armed there, and at its commit
when somebody else was faster. -/
theorem perform_clean_shirt :
    ((store.perform none (.commit System.shirt) (start.arm (.create .bridge))).1 =
        .error (.storage (FaultPoint.create .bridge).error) ∧
      (store.perform none (.commit System.shirt)
        (start.arm (.create .bridge))).2.registers.fault = none ∧
      (store.perform none (.commit System.shirt)
        (start.arm (.create .bridge))).2.committed = start.committed) ∧
    ∀ step,
      ((outset none (.commit System.shirt) start).course shirtRival step).next.memory.committed =
        ((outset none (.commit System.shirt) start).course shirtRival step).memory.committed := by
  constructor
  · have hfires : ((outset none (.commit System.shirt)
        (start.arm (.create .bridge))).course alone 9).Fires (.create .bridge) := by
      decide +kernel
    have hclean := (perform_clean none (.commit System.shirt) (start.arm (.create .bridge))).1
    obtain ⟨houtcome, hfault⟩ := hclean.surfaced (.create .bridge) ⟨9, hfires⟩
    exact ⟨houtcome, hfault, hclean.untouched _ houtcome⟩
  · have hfails : ((outset none (.commit System.shirt) start).course shirtRival
        14).progress.failure? = some (.conflict "product_roots_sku_prefix_key already taken") := by
      decide +kernel
    have hclean := (perform_clean none (.commit System.shirt) start).2 shirtRival 14 _
      (Progress.eq_of_failure? hfails)
    exact fun step => (hclean step).untouched _ rfl

end VariantCatalog.Memory
