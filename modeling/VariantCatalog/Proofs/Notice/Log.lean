/-
# What was done with a bus

A `Log` is the course of a bus as its users see it: what they did and what came of it,
without any look inside.  Who is subscribed, what was published since a subscription was made
and what it was answered are all read off the log, and each of these says how it goes on when
one more entry is made.
-/

import Mathlib.Algebra.Ring.Nat
import Mathlib.Data.List.TakeWhile
import VariantCatalog.Notice.Bus

namespace VariantCatalog.Bus

variable {α : Type} {channel : Channel α}

/-- Acts with their answers, the earliest first. -/
abbrev Log (α : Type) := List (Act α × Answer α)

/-- Do one more thing with a bus and write it down. -/
def advance (course : Bus channel × Log α) (act : Act α) : Bus channel × Log α :=
  let (answer, after) := course.1.perform act
  (after, course.2 ++ [(act, answer)])

/-- Do one thing after the other with a bus. -/
def run (bus : Bus channel) (acts : List (Act α)) : Bus channel × Log α :=
  acts.foldl advance (bus, [])

/-! ## Reading a log -/

/-- The message that an entry publishes. -/
def publishes? : Act α × Answer α → Option α
  | (.publish message, .delivered _) => some message
  | _ => none

/-- The subscription that an entry makes. -/
def makes? : Act α × Answer α → Option Nat
  | (.subscribe, .subscribed subscription) => some subscription
  | _ => none

/-- The subscription that an entry drops. -/
def drops? : Act α × Answer α → Option Nat
  | (.drop subscription, .done) => some subscription
  | _ => none

/-- Whether an entry closes the bus. -/
def closes : Act α × Answer α → Bool
  | (.close, .done) => true
  | _ => false

/-- What an entry answers to a subscription that asks for a message. -/
def answers? (subscription : Nat) :
    Act α × Answer α → Option (Except SubscriptionError (Option α))
  | (.receive asking, .received outcome) => if asking = subscription then some outcome else none
  | _ => none

/-- What an answer covers of the messages, one place for each: the message where it was
received, and nothing where it was missed. -/
def covers : Except SubscriptionError (Option α) → List (Option α)
  | .ok (some message) => [some message]
  | .error (.lagged missed) => List.replicate missed none
  | _ => []

/-- An entry that makes a subscription does nothing else. -/
theorem eq_of_makes? {entry : Act α × Answer α} {subscription : Nat}
    (h : makes? entry = some subscription) : entry = (.subscribe, .subscribed subscription) := by
  unfold makes? at h
  split at h
  · cases h
    rfl
  · cases h

/-- An entry that answers a subscription does nothing else. -/
theorem eq_of_answers? {entry : Act α × Answer α} {subscription : Nat}
    {outcome : Except SubscriptionError (Option α)}
    (h : answers? subscription entry = some outcome) :
    entry = (.receive subscription, .received outcome) := by
  unfold answers? at h
  split at h
  · split at h
    · next hasking =>
      cases h
      rw [hasking]
    · cases h
  · cases h

namespace Log

/-- The messages that were published, in their order. -/
def published (log : Log α) : List α := log.filterMap publishes?

/-- The subscriptions that were made. -/
def made (log : Log α) : List Nat := log.filterMap makes?

/-- Whether a subscription was dropped. -/
def isDropped (log : Log α) (subscription : Nat) : Bool :=
  (log.filterMap drops?).contains subscription

/-- The subscriptions that were made and not dropped. -/
def alive (log : Log α) : List Nat := log.made.filter fun subscription =>
  !log.isDropped subscription

/-- Whether the bus was closed. -/
def isClosed (log : Log α) : Bool := log.any closes

/-- The messages that were published after a subscription was made. -/
def since (log : Log α) (subscription : Nat) : List α :=
  published (log.dropWhile fun entry => makes? entry ≠ some subscription)

/-- What a subscription was answered, in order. -/
def outcomes (log : Log α) (subscription : Nat) :
    List (Except SubscriptionError (Option α)) :=
  log.filterMap (answers? subscription)

/-- The messages that a subscription received. -/
def received (log : Log α) (subscription : Nat) : List α :=
  (log.outcomes subscription).filterMap fun
    | .ok message => message
    | .error _ => none

/-- The number of messages that a subscription was told it missed. -/
def missed (log : Log α) (subscription : Nat) : Nat :=
  ((log.outcomes subscription).map fun
    | .error (.lagged missed) => missed
    | _ => 0).sum

/-- What the answers to a subscription cover of the messages, in order. -/
def places (log : Log α) (subscription : Nat) : List (Option α) :=
  (log.outcomes subscription).flatMap covers

/-! ## One more entry -/

section Append

variable (log : Log α) (entry : Act α × Answer α) (subscription : Nat)

theorem filterMap_append_singleton {β : Type} (read : Act α × Answer α → Option β) :
    (log ++ [entry]).filterMap read = log.filterMap read ++ (read entry).toList := by
  rw [List.filterMap_append]
  cases h : read entry <;> simp [h]

theorem made_append : (log ++ [entry]).made = log.made ++ (makes? entry).toList :=
  filterMap_append_singleton log entry makes?

theorem isClosed_append : (log ++ [entry]).isClosed = (log.isClosed || closes entry) := by
  simp [isClosed]

theorem isDropped_append :
    (log ++ [entry]).isDropped subscription =
      (log.isDropped subscription || decide (drops? entry = some subscription)) := by
  rw [Bool.eq_iff_iff, Bool.or_eq_true, decide_eq_true_iff, isDropped, isDropped,
    List.contains_iff_mem, List.contains_iff_mem, filterMap_append_singleton, List.mem_append,
    Option.mem_toList]

theorem outcomes_append :
    (log ++ [entry]).outcomes subscription =
      log.outcomes subscription ++ (answers? subscription entry).toList :=
  filterMap_append_singleton log entry _

variable {log subscription}

/-- What is published counts for every subscription that was made before. -/
theorem since_append (h : subscription ∈ log.made) :
    (log ++ [entry]).since subscription =
      log.since subscription ++ (publishes? entry).toList := by
  obtain ⟨making, hmem, hmakes⟩ := List.mem_filterMap.mp h
  have hne : ¬ (log.dropWhile fun entry => makes? entry ≠ some subscription).isEmpty := by
    rw [List.isEmpty_iff, List.dropWhile_eq_nil_iff]
    intro hall
    exact of_decide_eq_true (hall making hmem) hmakes
  rw [since, since, published, published, List.dropWhile_append, if_neg hne,
    filterMap_append_singleton]

variable {entry}

/-- For a new subscription nothing was published yet. -/
theorem since_append_of_makes (h : subscription ∉ log.made) (hmakes : makes? entry = some subscription) :
    (log ++ [entry]).since subscription = [] := by
  have hnone : log.dropWhile (fun entry => makes? entry ≠ some subscription) = [] := by
    rw [List.dropWhile_eq_nil_iff]
    intro other hmem
    refine decide_eq_true fun hother => h ?_
    exact List.mem_filterMap.mpr ⟨other, hmem, hother⟩
  have hpublishes : publishes? entry = none := by
    rw [eq_of_makes? hmakes]
    rfl
  rw [since, published, List.dropWhile_append, hnone, List.isEmpty_nil, if_pos rfl]
  simp [hmakes, hpublishes]

end Append

/-- Every message that the answers cover was received or missed. -/
theorem length_places (log : Log α) (subscription : Nat) :
    (log.places subscription).length =
      (log.received subscription).length + log.missed subscription := by
  rw [places, received, missed]
  induction log.outcomes subscription with
  | nil => rfl
  | cons outcome rest ih =>
      rw [List.flatMap_cons, List.length_append, ih]
      match outcome with
      | .ok (some message) => simp [covers]; omega
      | .ok none => simp [covers]
      | .error .closed => simp [covers]
      | .error (.lagged count) => simp [covers]; omega

end Log

end VariantCatalog.Bus
