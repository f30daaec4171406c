/-
# Operations that nobody disturbs

An operation that is carried out in one go commits onto the tables that it began on.  So
once its body has come to a result nothing can keep it from succeeding, and if it fails, it
fails for the reason that its body has (`perform_cases`).

The body is looked at as a program on a session, and a session is what a store in memory
passes along.
-/

import VariantCatalog.Proofs.Memory.Passage
import VariantCatalog.Proofs.Operation.Deed

namespace VariantCatalog

open Memory

namespace Memory

open Operation

/-- How a program concludes on a session it concludes on the store. -/
theorem run_of_concludes {α : Type} {program : Program α} {memory : Memory} {tx : Transaction}
    {ok : α → Session → Prop} {bad : CatalogError → Prop}
    (h : program.Concludes (fun request before => (answerCall request).run.run before) ok bad
      ⟨memory.registers, tx⟩) :
    (∃ result after, store.run program tx memory =
        (.ok result, after.transaction, { memory with registers := after.registers }) ∧
          ok result after) ∨
      ∃ error rest, store.run program tx memory = (.error error, rest) ∧ bad error := by
  induction program generalizing memory tx with
  | done result => exact .inl ⟨result, ⟨memory.registers, tx⟩, rfl, h⟩
  | refuse error => exact .inr ⟨error, _, rfl, h⟩
  | call request next ih =>
      have hrun : store.answer request tx memory = memory.answer request tx := rfl
      rw [Store.run, hrun, answer]
      rw [Program.Concludes] at h
      generalize (answerCall request).run.run ⟨memory.registers, tx⟩ = answered at h ⊢
      obtain ⟨error | reply, after⟩ := answered
      · exact .inr ⟨_, _, rfl, h⟩
      · exact ih reply h

/-- Where no fault is armed, to commit is to merge. -/
theorem commit_of_calm {memory : Memory} (hcalm : memory.registers.fault = none)
    (tx : Transaction) : store.commit tx memory = memory.apply tx := by
  have hprepare : memory.prepare = (.ok (), memory) := by
    rw [prepare_eq, if_neg]
    rw [hcalm]
    nofun
  show memory.commit tx = _
  rw [commit, hprepare]

/-! ## How a unit of work ends -/

/-- How a unit of work ends whose body has come to its end. -/
def settle {α : Type} (tx : Transaction) (result : α) (memory : Memory) :
    Except CatalogError α × Memory :=
  match store.commit tx memory with
  | (.error error, memory) => (.error (.ofStore error), memory)
  | (.ok (), memory) => (.ok result, memory)

/-- A unit of work is its body, and then what it ends with. -/
theorem transact_eq {α : Type} (program : Program α) (memory : Memory) :
    store.transact program memory =
      match store.run program memory.begin memory with
      | (.error error, _, memory) => (.error error, memory)
      | (.ok result, tx, memory) => settle tx result memory := by
  have hbegin : store.begin memory = (.ok memory.begin, memory) := rfl
  rw [Store.transact, hbegin]
  dsimp only
  generalize store.run program memory.begin memory = ran
  obtain ⟨error | result, tx, after⟩ := ran
  · rfl
  · dsimp only [settle]
    generalize store.commit tx after = ended
    obtain ⟨error | _, last⟩ := ended <;> rfl

section Calm

variable {α : Type} {tx : Transaction} {memory : Memory} (hcalm : memory.registers.fault = none)
  (result : α)

include hcalm

theorem settle_of_merge_eq_ok {after : Committed} (hmerge : memory.committed.merge tx = .ok after) :
    settle tx result memory = (.ok result, { memory with committed := after }) := by
  rw [settle, commit_of_calm hcalm, apply, hmerge]

theorem settle_of_merge_eq_error {error : StoreError}
    (hmerge : memory.committed.merge tx = .error error) :
    settle tx result memory = (.error (.ofStore error), memory) := by
  rw [settle, commit_of_calm hcalm, apply, hmerge]

end Calm

/-! ## Operations -/

/-- On sound tables, an operation that is not malformed succeeds, or fails for the reason
that its body has. -/
theorem perform_cases {memory : Memory} {limit : Option Nat} {operation : Operation}
    {ok : operation.Result → Session → Prop} {bad : CatalogError → Prop}
    (h : Session.Sound ⟨memory.registers, memory.begin⟩) (hwrites : operation.isRead = false)
    (hcheck : operation.check limit = .ok ())
    (hbody : operation.body.Concludes (fun request before => (answerCall request).run.run before)
      ok bad ⟨memory.registers, memory.begin⟩) :
    (∃ result last, (store.perform limit operation memory).1 = .ok result ∧
        last.transaction.working.Intact ∧ Departs memory.committed.tables last.transaction ∧
        operation.Effect memory.committed.tables result last.transaction ∧ ok result last) ∨
      ∃ error, (store.perform limit operation memory).1 = .error error ∧ bad error := by
  have hperform : store.perform limit operation memory = store.transact operation.body memory := by
    rw [Store.perform, Operation.screen, hcheck, hwrites]
    rfl
  have hconcludes := (concludes_strokes hbody).and_ensures answers_of_run
    (secures_effect h.intact operation rfl)
  rw [hperform, transact_eq]
  rcases run_of_concludes hconcludes with
    ⟨result, last, hrun, ⟨hok, hstrokes⟩, heffect⟩ | ⟨error, rest, hrun, hbad⟩
  · have hlast := h.strokes hstrokes
    have hdeparts := h.departs hstrokes (Departs.refl memory.committed.tables)
    have hmerge := hdeparts.merge_eq_ok hlast.intact
      (h.spares hstrokes (Departs.refl memory.committed.tables) (spares_nil _ _))
    have hsettle := @settle_of_merge_eq_ok _ _ { memory with registers := last.registers }
      hlast.calm result _ hmerge
    simp only [hrun, hsettle]
    exact .inl ⟨result, last, rfl, hlast.intact, hdeparts, heffect, hok⟩
  · simp only [hrun]
    exact .inr ⟨error, rfl, hbad⟩

end Memory

end VariantCatalog
