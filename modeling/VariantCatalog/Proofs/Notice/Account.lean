/-
# The account of a subscription

A subscription is answered message by message in the order of publication, or is told how many
it missed.  So the messages published since it was made fall into two parts: those that its
answers cover, and those still before it.  A message that is published joins the latter, and an
answer moves some of them to the former; what an answer says is told by them alone and by how
many of them are kept.
-/

import Mathlib.Data.List.Forall2
import VariantCatalog.Proofs.Notice.Log

namespace VariantCatalog.Bus

variable {α : Type}

/-! ## Accounts -/

/-- What a subscription is answered with some messages before it, of which so many are kept. -/
def due (memory : Nat) (isClosed : Bool) (pending : List α) :
    Except SubscriptionError (Option α) :=
  if memory < pending.length then .error (.lagged (pending.length - memory))
  else
    match pending with
    | message :: _ => .ok (some message)
    | [] => if isClosed then .error .closed else .ok none

theorem due_of_lt {memory : Nat} {pending : List α} (h : memory < pending.length)
    (isClosed : Bool) :
    due memory isClosed pending = .error (.lagged (pending.length - memory)) := by
  rw [due.eq_def, if_pos h]

theorem due_nil (memory : Nat) (isClosed : Bool) :
    due memory isClosed ([] : List α) = if isClosed then .error .closed else .ok none := by
  rw [due.eq_def, if_neg (by simp)]

theorem due_cons {memory : Nat} {message : α} {rest : List α}
    (h : ¬ memory < (message :: rest).length) (isClosed : Bool) :
    due memory isClosed (message :: rest) = .ok (some message) := by
  rw [due.eq_def, if_neg h]

/-- What an answer covers are the messages that come first. A message is missed only if so many
others came after it that they fill the memory. -/
theorem covers_due (memory : Nat) (isClosed : Bool) (pending : List α) :
    List.Forall₂ (fun place message => place = none ∨ place = some message)
        (covers (due memory isClosed pending))
        (pending.take (covers (due memory isClosed pending)).length) ∧
      (none ∈ covers (due memory isClosed pending) →
        memory ≤ (pending.drop (covers (due memory isClosed pending)).length).length) := by
  by_cases hlt : memory < pending.length
  · rw [due_of_lt hlt, covers, List.length_replicate]
    refine ⟨List.forall₂_iff_get.mpr ⟨?_, fun index hindex _ => .inl ?_⟩, fun _ => ?_⟩
    · rw [List.length_replicate, List.length_take]
      omega
    · rw [List.get_eq_getElem, List.getElem_replicate]
    · rw [List.length_drop]
      omega
  · cases pending with
    | nil =>
        rw [due_nil]
        cases isClosed <;> exact ⟨.nil, fun h => absurd h List.not_mem_nil⟩
    | cons message rest =>
        rw [due_cons hlt]
        refine ⟨.cons (.inr rfl) ?_, fun h => ?_⟩
        · show List.Forall₂ _ [] (rest.take 0)
          rw [List.take_zero]
          exact .nil
        · cases List.mem_singleton.mp h

namespace Log

/-- The account of a subscription: the messages published since it was made are those that its
answers cover, in order, and those still before it. Of a message that was missed, so many others
were published behind it. -/
structure Accounts (log : Log α) (subscription recent : Nat) (accounted pending : List α) :
    Prop where
  since_eq : log.since subscription = accounted ++ pending
  places : List.Forall₂ (fun place message => place = none ∨ place = some message)
    (log.places subscription) accounted
  old : ∀ index : Nat, (log.places subscription)[index]? = some none →
    index + recent < (log.since subscription).length

variable {log : Log α} {entry : Act α × Answer α} {subscription recent : Nat}
  {accounted pending : List α}

/-- Messages are accounted for once. -/
theorem Accounts.length_eq (h : log.Accounts subscription recent accounted pending) :
    (log.received subscription).length + log.missed subscription + pending.length =
      (log.since subscription).length := by
  rw [h.since_eq, List.length_append, ← h.places.length_eq, length_places]

/-- An answer moves what it covers from the messages before a subscription to those that are
accounted for. -/
theorem Accounts.answered {covered : List α} {outcome : Except SubscriptionError (Option α)}
    (h : log.Accounts subscription recent accounted (covered ++ pending))
    (hmade : subscription ∈ log.made) (hanswers : answers? subscription entry = some outcome)
    (hcovers : List.Forall₂ (fun place message => place = none ∨ place = some message)
      (covers outcome) covered)
    (hold : none ∈ covers outcome → recent ≤ pending.length) :
    (log ++ [entry]).Accounts subscription recent (accounted ++ covered) pending := by
  have hpublishes : publishes? entry = none := by
    rw [eq_of_answers? hanswers]
    rfl
  have hsince : (log ++ [entry]).since subscription = log.since subscription := by
    rw [since_append _ hmade, hpublishes]
    exact List.append_nil _
  have hplaces : (log ++ [entry]).places subscription =
      log.places subscription ++ covers outcome := by
    rw [Log.places, outcomes_append, List.flatMap_append, hanswers, Log.places]
    simp
  refine
    { since_eq := by rw [hsince, h.since_eq, List.append_assoc]
      places := hplaces ▸ List.rel_append h.places hcovers
      old := fun index hindex => ?_ }
  rw [hsince]
  rw [hplaces] at hindex
  by_cases hlt : index < (log.places subscription).length
  · rw [List.getElem?_append_left hlt] at hindex
    exact h.old index hindex
  · rw [List.getElem?_append_right (Nat.le_of_not_lt hlt)] at hindex
    have hmissed := hold (List.mem_of_getElem? hindex)
    have hcovered := (List.getElem?_eq_some_iff.mp hindex).1
    rw [hcovers.length_eq] at hcovered
    rw [h.since_eq, List.length_append, List.length_append, ← h.places.length_eq]
    omega

/-- What is published is before every subscription that is there. -/
theorem Accounts.published (h : log.Accounts subscription recent accounted pending)
    (hmade : subscription ∈ log.made) (hanswers : answers? subscription entry = none) :
    (log ++ [entry]).Accounts subscription recent accounted
      (pending ++ (publishes? entry).toList) := by
  have hsince := since_append entry hmade
  have hplaces : (log ++ [entry]).places subscription = log.places subscription := by
    rw [Log.places, outcomes_append, hanswers, Option.toList_none, List.append_nil, Log.places]
  refine
    { since_eq := by rw [hsince, h.since_eq, List.append_assoc]
      places := hplaces ▸ h.places
      old := fun index hindex => ?_ }
  have hlt := h.old index (hplaces ▸ hindex)
  rw [hsince, List.length_append]
  omega

/-- The account of a new subscription is empty. -/
theorem accounts_of_makes (hmade : subscription ∉ log.made)
    (hmakes : makes? entry = some subscription) (houtcomes : log.outcomes subscription = [])
    (hanswers : answers? subscription entry = none) :
    (log ++ [entry]).Accounts subscription recent [] [] := by
  have hplaces : (log ++ [entry]).places subscription = [] := by
    rw [places, outcomes_append, houtcomes, hanswers]
    rfl
  refine
    { since_eq := since_append_of_makes hmade hmakes
      places := hplaces ▸ .nil
      old := fun index hindex => ?_ }
  rw [hplaces] at hindex
  cases hindex

end Log

end VariantCatalog.Bus
