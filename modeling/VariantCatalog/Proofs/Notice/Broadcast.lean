/-
# A broadcast keeps the rules of a channel

The memory of a broadcast is laid out the other way round, so what it holds is read from behind.
With that, each of its calls does what the rules say.
-/

import VariantCatalog.Notice.Broadcast
import VariantCatalog.Proofs.Notice.Channel

namespace VariantCatalog.Broadcast

variable {α : Type}

/-! ## The size of the memory -/

theorem powerOfTwoFrom_eq {least : Nat} : ∀ {steps exponent : Nat}, exponent ≤ Nat.clog 2 least →
    Nat.clog 2 least ≤ exponent + steps →
    powerOfTwoFrom least (2 ^ exponent) steps = 2 ^ Nat.clog 2 least
  | 0, exponent, hle, hge => by
      rw [powerOfTwoFrom, Nat.le_antisymm hle hge]
  | steps + 1, exponent, hle, hge => by
      rw [powerOfTwoFrom]
      split
      · next hleast =>
        rw [Nat.le_antisymm hle ((Nat.clog_le_iff_le_pow (by decide)).mpr hleast)]
      · next hleast =>
        have hlt : exponent < Nat.clog 2 least := (Nat.lt_clog_iff_pow_lt (by decide)).mpr
          (Nat.lt_of_not_le hleast)
        rw [← Nat.pow_succ]
        exact powerOfTwoFrom_eq hlt (by omega)

/-- The memory is the least power of two that is large enough. -/
theorem powerOfTwo_eq (least : Nat) : powerOfTwo least = 2 ^ Nat.clog 2 least :=
  powerOfTwoFrom_eq (Nat.zero_le _) (by
    rw [Nat.zero_add]
    exact Nat.clog_le_of_le_pow (Nat.le_of_lt Nat.lt_two_pow_self))

/-! ## What a broadcast holds -/

/-- The messages that a broadcast keeps. -/
def memory (broadcast : Broadcast α) : Channel.Memory α :=
  ⟨broadcast.size, broadcast.released, broadcast.kept.reverse⟩

/-- How a broadcast is read as a channel. -/
def reading (α : Type) : (channel α).Reading where
  contents broadcast := ⟨memory broadcast, broadcast.receivers, broadcast.isOpen⟩
  position := id

theorem sent_memory (broadcast : Broadcast α) : broadcast.memory.sent = broadcast.tail := by
  simp only [memory, Channel.Memory.sent, List.length_reverse, tail]

theorem contents_keep (broadcast : Broadcast α) (message : α) :
    (reading α).contents (broadcast.keep message) =
      { (reading α).contents broadcast with memory := broadcast.memory.push message } := by
  simp only [reading, memory, keep, Channel.Memory.push, List.length_reverse]
  split
  · rw [List.reverse_cons]
  · rw [List.reverse_cons, List.tail_reverse]

section Receiving

variable {broadcast : Broadcast α} {position : Nat}

theorem receiveAt_of_held {message : α} (hreleased : broadcast.released ≤ position)
    (hheld : broadcast.memory.held[position - broadcast.released]? = some message) :
    broadcast.receiveAt position = (.ok message, position + 1) := by
  have hlt := (List.getElem?_eq_some_iff.mp hheld).1
  rw [memory, List.length_reverse] at hlt
  rw [memory, List.getElem?_reverse hlt] at hheld
  have htail : position < broadcast.tail := by
    rw [tail]
    omega
  have hmessage : broadcast.message? position = some message := by
    rw [message?, if_pos htail, ← hheld, tail]
    congr 1
    omega
  rw [receiveAt, if_neg (Nat.not_lt.mpr hreleased), hmessage]

theorem receiveAt_of_tail_le (htail : broadcast.tail ≤ position) :
    broadcast.receiveAt position =
      (.error (if broadcast.isOpen then .empty else .closed), position) := by
  have hreleased : ¬ position < broadcast.released := by
    rw [tail] at htail
    omega
  rw [receiveAt, if_neg hreleased, message?, if_neg (Nat.not_lt.mpr htail)]

end Receiving

/-- **A broadcast is a channel that works by the rules.** -/
theorem rules (α : Type) : (reading α).Rules where
  make?_isSome capacity := by
    simp only [channel]
    split
    · exact ⟨nofun, fun _ => by omega⟩
    · exact ⟨fun _ => by omega, fun _ => rfl⟩
  make? capacity state first h := by
    simp only [channel] at h
    split at h
    · cases h
    · cases h
      rw [← powerOfTwo_eq]
      rfl
  send_unheard state message _ hreceivers := by
    have hsend : send message state = (.error message, state) := if_pos hreceivers
    exact ⟨congrArg Prod.fst hsend, congrArg (fun sent => (reading α).contents sent.2) hsend⟩
  send state message _ hreceivers := by
    have hsend : send message state = (.ok state.receivers, state.keep message) :=
      if_neg (Nat.ne_of_gt hreceivers)
    have hcontents := congrArg (fun sent => (reading α).contents sent.2) hsend
    exact ⟨congrArg Prod.fst hsend, hcontents.trans (contents_keep state message)⟩
  subscribe state _ := ⟨(sent_memory state).symm, rfl⟩
  receive_lagged := fun (state : Broadcast α) (receiver : Nat) hlt => by
    have hreceive : state.receiveAt receiver =
        (.error (.lagged (state.released - receiver)), state.released) := if_pos hlt
    exact ⟨congrArg Prod.fst hreceive, congrArg Prod.snd hreceive⟩
  receive_held state receiver message hreleased hheld := by
    have hreceive := receiveAt_of_held hreleased hheld
    exact ⟨congrArg Prod.fst hreceive, congrArg Prod.snd hreceive⟩
  receive_none state receiver hsent := by
    have hreceive := receiveAt_of_tail_le (sent_memory state ▸ hsent)
    exact ⟨congrArg Prod.fst hreceive, congrArg Prod.snd hreceive⟩
  receive_contents _ _ := rfl
  dropReceiver _ _ _ := rfl
  dropSender _ _ := rfl
  receiverCount _ := rfl

end VariantCatalog.Broadcast
