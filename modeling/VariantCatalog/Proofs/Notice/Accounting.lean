/-
# Every message is accounted for

Whatever is done with a bus, each subscription's answers and what is still before it add up to
what was published since it was made.  The channel holds the last of the messages before a
subscription; what comes next is told by them, also after the bus was dropped.  All of this
holds over every channel that works by the rules (`accounts_run`).
-/

import VariantCatalog.Proofs.Notice.Broadcast
import VariantCatalog.Proofs.Notice.Following

namespace VariantCatalog.Bus

variable {α : Type} {channel : Channel α}

/-! ## After the bus was dropped -/

/-- What a subscription is still answered when the bus is dropped: how many of the messages
before it are lost, the others one by one, and that there will be no more. -/
def farewell (memory : Nat) (pending : List α) : List (Except SubscriptionError (Option α)) :=
  (if memory < pending.length then [.error (.lagged (pending.length - memory))] else []) ++
    ((pending.drop (pending.length - memory)).map fun message => .ok (some message)) ++
    [.error .closed]

namespace Follows

variable {reading : channel.Reading} {size recent : Nat} {bus : Bus channel} {log : Log α}
  {subscription position : Nat}

section Receiving

variable (hrules : reading.Rules)

include hrules

/-- One receipt more. -/
theorem advance_receive (h : Follows reading size recent bus log)
    (hposition : bus.position? reading subscription = some position) {pending : List α}
    (hpending : log.stored.drop position = pending) :
    let outcome := due size log.isClosed pending
    let after := position + (covers outcome).length
    ∃ next nextLog, advance (bus, log) (.receive subscription) = (next, nextLog) ∧
      Follows reading size recent next nextLog ∧
      next.position? reading subscription = some after ∧ nextLog.stored = log.stored ∧
      nextLog.isClosed = log.isClosed ∧
      nextLog.outcomes subscription = log.outcomes subscription ++ [outcome] := by
  intro outcome after
  obtain ⟨receiver, hreceiver, rfl⟩ := Option.map_eq_some_iff.mp hposition
  have hlt := lt_of_receiver? hreceiver
  have hle : reading.position receiver ≤ log.stored.length := by
    obtain ⟨_, _, _, hkept⟩ := h.accounts subscription hlt
    exact (hkept _ hposition).1
  have hhear : bus.hear reading receiver = (outcome, after) := by
    rw [h.hear_eq hrules hle, hpending]
  have hturn := turns_receive hrules h.sound hreceiver
  rw [hhear] at hturn
  have hperform : bus.perform (.receive subscription) =
      (.received outcome, bus.received subscription receiver) := by
    rw [perform_receive_of reading hreceiver, hhear]
  refine ⟨_, _, congrArg (fun turn => (turn.2, log ++ [(_, turn.1)])) hperform,
    h.turn hrules hturn, ?_, ?_, ?_, ?_⟩
  · rw [hturn.position subscription hlt, hreceiver]
    simp [drops?, answers?, hhear]
  · rw [Log.stored_append]
    exact List.append_nil _
  · rw [Log.isClosed_append]
    exact Bool.or_false _
  · rw [Log.outcomes_append]
    simp [answers?]

/-- Messages that are held are received one by one, and then nothing more. -/
theorem outcomes_of_held {queued : List α} : ∀ {bus : Bus channel} {log : Log α}
    {position : Nat}, Follows reading size recent bus log → log.isClosed →
    bus.position? reading subscription = some position → log.stored.drop position = queued →
    queued.length ≤ size →
    ((List.replicate (queued.length + 1) (Act.receive subscription)).foldl advance
        (bus, log)).2.outcomes subscription =
      log.outcomes subscription ++ (queued.map fun message => .ok (some message)) ++
        [.error .closed] := by
  induction queued with
  | nil =>
      intro bus log position h hclosed hposition hqueued _
      obtain ⟨next, nextLog, hadvance, -, -, -, -, houtcomes⟩ :=
        h.advance_receive hrules hposition hqueued
      rw [List.length_nil, Nat.zero_add, List.replicate_one, List.foldl_cons, List.foldl_nil,
        hadvance, houtcomes, due_nil, if_pos hclosed, List.map_nil, List.append_nil]
  | cons message rest ih =>
      intro bus log position h hclosed hposition hqueued hle
      obtain ⟨next, nextLog, hadvance, hnext, hafter, hstored, hopen, houtcomes⟩ :=
        h.advance_receive hrules hposition hqueued
      rw [due_cons (Nat.not_lt.mpr hle)] at hafter houtcomes
      have hrest : nextLog.stored.drop (position + 1) = rest := by
        rw [hstored, ← List.drop_drop, hqueued]
        rfl
      rw [List.length_cons, List.replicate_succ, List.foldl_cons, hadvance,
        ih hnext (hopen.trans hclosed) hafter hrest (Nat.le_of_succ_le hle), houtcomes,
        List.map_cons]
      simp

/-- A subscription to a bus that was dropped is answered its farewell. -/
theorem outcomes_farewell (h : Follows reading size recent bus log) (hclosed : log.isClosed)
    (hposition : bus.position? reading subscription = some position) {pending : List α}
    (hpending : log.stored.drop position = pending) :
    ((List.replicate (farewell size pending).length (Act.receive subscription)).foldl advance
        (bus, log)).2.outcomes subscription =
      log.outcomes subscription ++ farewell size pending := by
  by_cases hlt : size < pending.length
  · obtain ⟨next, nextLog, hadvance, hnext, hafter, hstored, hopen, houtcomes⟩ :=
      h.advance_receive hrules hposition hpending
    rw [due_of_lt hlt, covers, List.length_replicate] at hafter
    rw [due_of_lt hlt] at houtcomes
    have hqueued : nextLog.stored.drop (position + (pending.length - size)) =
        pending.drop (pending.length - size) := by
      rw [hstored, ← List.drop_drop, hpending]
    have hheld : (pending.drop (pending.length - size)).length ≤ size := by
      rw [List.length_drop]
      omega
    have hrest := outcomes_of_held hrules hnext (hopen.trans hclosed) hafter hqueued hheld
    have hlength : (farewell size pending).length =
        (pending.drop (pending.length - size)).length + 1 + 1 := by
      rw [farewell, if_pos hlt]
      simp
    rw [hlength, List.replicate_succ, List.foldl_cons, hadvance, hrest, houtcomes, farewell,
      if_pos hlt]
    simp
  · have hnone : pending.length - size = 0 := by omega
    have hfarewell : farewell size pending =
        (pending.map fun message => .ok (some message)) ++ [.error .closed] := by
      rw [farewell, if_neg hlt, hnone, List.drop_zero, List.nil_append]
    have hheld := outcomes_of_held hrules h hclosed hposition hpending (Nat.le_of_not_lt hlt)
    rw [hfarewell, List.length_append, List.length_map, List.length_singleton, hheld,
      List.append_assoc]

end Receiving

end Follows

/-! ## The accounts -/

/-- There is a bus for every capacity but those that no channel is made with. -/
theorem isSome_withCapacity? {reading : channel.Reading} (hrules : reading.Rules)
    (capacity : Nat) :
    (withCapacity? channel capacity).isSome ↔ capacity ≤ Channel.greatestCapacity := by
  have hone : 1 ≤ Channel.greatestCapacity := by decide
  rw [withCapacity?, Option.isSome_map, hrules.make?_isSome]
  omega

/-- **Every message is accounted for.**  Over a channel that works by the rules, there is a bus
for every capacity that a channel can be made with.  Whatever was done with it, it counts the
subscriptions that were made and not dropped, and a message that is published goes to these.
For each subscription the messages since it was made are those that its answers cover, each
received once or missed once and in their order, and those still before it; none of the last
`capacity` is ever missed.  The next answer is told by the messages before it: how many of them
are no longer held, or else the first of them, or that there is none.  Once the bus is dropped,
what is held is received before that is said. -/
theorem accounts_run {reading : channel.Reading} (hrules : reading.Rules) (capacity : Nat)
    (acts : List (Act α)) :
    ((withCapacity? channel capacity).isSome ↔ capacity ≤ Channel.greatestCapacity) ∧
    ∀ start, withCapacity? channel capacity = some start →
      let bus := (start.run acts).1
      let log := (start.run acts).2
      let memory := 2 ^ Nat.clog 2 (max capacity 1)
      log.made.Nodup ∧ bus.subscriberCount = log.alive.length ∧
      (∀ message, (bus.perform (.publish message)).1 =
        if log.isClosed then .refused else .delivered log.alive.length) ∧
      ∀ subscription ∈ log.made, ∃ accounted pending,
        log.Accounts subscription (max capacity 1) accounted pending ∧
        (log.received subscription).length + log.missed subscription + pending.length =
          (log.since subscription).length ∧
        (bus.perform (.receive subscription)).1 =
          (if log.isDropped subscription then .refused
            else .received (due memory log.isClosed pending)) ∧
        (log.isClosed → log.isDropped subscription = false →
          (start.run (acts ++ List.replicate (farewell memory pending).length
            (.receive subscription))).2.outcomes subscription =
              log.outcomes subscription ++ farewell memory pending) := by
  refine ⟨isSome_withCapacity? hrules capacity, fun start hstart => ?_⟩
  intro bus log memory
  have h : Follows reading memory (max capacity 1) bus log :=
    follows_run hrules (follows_withCapacity? hrules hstart) acts
  refine ⟨h.made ▸ List.nodup_range, h.subscriberCount_eq hrules, h.perform_publish hrules,
    fun subscription hmade => ?_⟩
  have hlt := h.mem_made.mp hmade
  obtain ⟨accounted, pending, haccounts, hpending⟩ := h.accounts subscription hlt
  refine ⟨accounted, pending, haccounts, haccounts.length_eq,
    h.perform_receive hrules hlt hpending, fun hclosed hdropped => ?_⟩
  have hposition := h.position subscription hlt
  rw [hdropped, Bool.not_false, Option.isSome_iff_exists] at hposition
  obtain ⟨position, hposition⟩ := hposition
  rw [run, List.foldl_append]
  exact h.outcomes_farewell hrules hclosed hposition (hpending position hposition).2.symm

/-- Three messages for a memory of two: the first is missed, and what follows it is received
after the bus was dropped. -/
theorem accounts_run_slow :
    let acts : List (Act Nat) :=
      [.publish 0, .subscribe, .publish 1, .publish 2, .publish 3, .receive 0, .close]
    (Broadcast.reading Nat).Rules ∧
    ∃ start, withCapacity? (Broadcast.channel Nat) 2 = some start ∧
      let log := (start.run acts).2
      0 ∈ log.made ∧ log.isClosed ∧ log.isDropped 0 = false ∧
      log.outcomes 0 = [.error (.lagged 1)] ∧
      ∃ accounted pending, log.Accounts 0 2 accounted pending ∧ pending.length = 2 ∧
        (start.run (acts ++ List.replicate (farewell 2 pending).length
          (.receive 0))).2.outcomes 0 = log.outcomes 0 ++ farewell 2 pending := by
  intro acts
  have hmemory : 2 ^ Nat.clog 2 (max 2 1) = 2 := congrArg (2 ^ ·) (Nat.clog_pow 2 1 (by decide))
  obtain ⟨-, haccounts⟩ := accounts_run (Broadcast.rules Nat) 2 acts
  obtain ⟨-, -, -, haccounts⟩ := haccounts _ rfl
  obtain ⟨accounted, pending, haccounts, hlength, -, hfarewell⟩ := haccounts 0 (by decide)
  rw [hmemory] at hfarewell
  have hthree : 0 + 1 + pending.length = 3 := hlength
  exact ⟨Broadcast.rules Nat, _, rfl, by decide, by decide, by decide, by decide, accounted,
    pending, haccounts, by omega, hfarewell (by decide) (by decide)⟩

end VariantCatalog.Bus
