/-
# What calls come to

Of the ways in which a call can fail, a fault that somebody has armed is no business of the
program that makes the call.  `Comes` is what a call can come to among others, with faults or
without, and `Withstands` says of a program that each of its errors has a reason, unless it
is that of a fault.  What is said of a program once then serves both: where faults may be
armed anything that is not the error of a fault has its reason, and where none is armed there
is nothing else.
-/

import VariantCatalog.Proofs.Memory.Answers
import VariantCatalog.Proofs.Store.Endurance

namespace VariantCatalog.Memory

variable {α β : Type} {calm : Prop} {reason : CatalogError → Prop} {session : Session}

/-- What a call can come to when others have used the registers meanwhile. When it is calm,
they have armed no fault. -/
def Comes (calm : Prop) (request : Call) (session : Session)
    (outcome : Except StoreError request.Reply) (after : Session) : Prop :=
  ∃ registers : Registers, (calm → registers.fault = none) ∧
    (answerCall request).run.run ⟨registers, session.transaction⟩ = (outcome, after)

/-- An error that has a reason, or is that of a fault when it is not calm. -/
def Explained (calm : Prop) (reason : CatalogError → Prop) (error : CatalogError) : Prop :=
  reason error ∨ ¬ calm ∧ ∃ point : FaultPoint, error = .ofStore point.error

theorem Explained.mono {worse : CatalogError → Prop} {error : CatalogError}
    (h : Explained calm reason error) (hworse : ∀ error, reason error → worse error) :
    Explained calm worse error :=
  h.imp_left (hworse error)

/-- A program that, whatever others do to the registers meanwhile, ends with a result of some
kind or with an error that can be explained. -/
abbrev Withstands (calm : Prop) (ok : α → Session → Prop) (reason : CatalogError → Prop)
    (program : Program α) (session : Session) : Prop :=
  program.Endures (Comes calm) ok (Explained calm reason) session

/-- What it ends with is what it ends with anyway. -/
theorem Withstands.secures {ok : α → Session → Prop} {program : Program α}
    (h : Withstands False ok reason program session) : Secures ok program session :=
  h.ensures (fun ⟨registers, _, hrun⟩ => ⟨registers, False.elim, hrun⟩) fun _ _ => trivial

/-- To ask something changes nothing, and never fails. -/
theorem withstands_askThen {read : Query} {next : read.Reply → Program α}
    {ok : α → Session → Prop}
    (hnext : ∀ after, after.transaction = session.transaction →
      Withstands calm ok reason (next (answerQuery session.transaction.working read)) after) :
    Withstands calm ok reason (Program.ask read >>= next) session := by
  apply Program.endures_bind.mpr
  constructor
  · rintro error after ⟨registers, _, hrun⟩
    rw [run_query] at hrun
    cases hrun
  · rintro reply after ⟨registers, _, hrun⟩
    rw [run_query] at hrun
    cases hrun
    exact hnext _ rfl

/-- An order is carried out, unless a fault is armed for it. -/
theorem withstands_order {change : Write} {ok : change.Reply → Session → Prop}
    (hok : ∀ registers reply after,
      (carryOut change).run.run ⟨registers, session.transaction⟩ = (.ok reply, after) →
        ok reply after)
    (herror : ∀ registers error after,
      (carryOut change).run.run ⟨registers, session.transaction⟩ = (.error error, after) →
        reason (.ofStore error)) :
    Withstands calm ok reason (Program.order change) session := by
  constructor
  · rintro error after ⟨registers, hcalm, hrun⟩
    rw [run_write] at hrun
    split at hrun
    · next hfault =>
      cases hrun
      refine .inr ⟨fun calm => ?_, faultPoint change, rfl⟩
      have hnone : registers.fault = some (faultPoint change) := hfault
      rw [hcalm calm] at hnone
      cases hnone
    · exact .inl (herror registers error after hrun)
  · rintro reply after ⟨registers, _, hrun⟩
    rw [run_write] at hrun
    split at hrun
    · cases hrun
    · exact hok registers reply after hrun

/-- A write that is carried out by some work on the session. -/
structure IsWork (change : Write) (work : Work α) : Prop where
  ok {session after : Session} {reply : change.Reply} :
    (carryOut change).run.run session = (.ok reply, after) →
      ∃ result, work.run.run session = (.ok result, after)
  error {session after : Session} {error : StoreError} :
    (carryOut change).run.run session = (.error error, after) →
      work.run.run session = (.error error, after)

theorem IsWork.self (change : Write) : IsWork change (carryOut change) where
  ok hrun := ⟨_, hrun⟩
  error hrun := hrun

end VariantCatalog.Memory
