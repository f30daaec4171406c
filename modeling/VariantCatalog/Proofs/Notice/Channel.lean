/-
# What is known of a channel

A bus does not see how its channel keeps messages.  `Rules` is what it can rely on, one call
after the other: a channel holds the last messages up to a fixed size, everyone who receives
stands somewhere in the sequence of all messages that were sent, and a call does what it is for
and nothing else.  A `Reading` says what the states and the receivers of a particular channel
stand for; nothing beyond the rules is assumed of it.
-/

import Mathlib.Algebra.Ring.Nat
import Mathlib.Data.Nat.Log
import VariantCatalog.Notice.Channel

namespace VariantCatalog.Channel

variable {α : Type}

/-! ## What a channel holds -/

/-- The messages that a channel holds, the oldest first. Those that were sent before them have
been released. -/
structure Memory (α : Type) where
  size : Nat
  released : Nat
  held : List α

namespace Memory

/-- The number of messages that were sent so far. -/
def sent (memory : Memory α) : Nat := memory.released + memory.held.length

/-- One more message is held. If the memory is full, then the oldest one is released. -/
def push (memory : Memory α) (message : α) : Memory α :=
  if memory.held.length < memory.size then
    { memory with held := memory.held ++ [message] }
  else
    { memory with released := memory.released + 1, held := memory.held.tail ++ [message] }

/-- A memory of some size to which some messages were sent. -/
def ofMessages (size : Nat) (messages : List α) : Memory α where
  size
  released := messages.length - size
  held := messages.drop (messages.length - size)

theorem sent_ofMessages (size : Nat) (messages : List α) :
    (ofMessages size messages).sent = messages.length := by
  simp only [sent, ofMessages, List.length_drop]
  omega

/-- A message that was not released is held in its place. -/
theorem getElem?_held_ofMessages {size position : Nat} {messages : List α}
    (h : (ofMessages size messages).released ≤ position) :
    (ofMessages size messages).held[position - (ofMessages size messages).released]? =
      messages[position]? := by
  have hplace : messages.length - size + (position - (messages.length - size)) = position :=
    Nat.add_sub_cancel' h
  simp only [ofMessages, List.getElem?_drop, hplace]

/-- The last messages are held. -/
theorem push_ofMessages {size : Nat} (hsize : 0 < size) (messages : List α) (message : α) :
    (ofMessages size messages).push message = ofMessages size (messages ++ [message]) := by
  simp only [push, ofMessages, List.length_append, List.length_singleton, List.length_drop]
  by_cases hroom : messages.length < size
  · have hnone : messages.length - size = 0 := by omega
    have hnext : messages.length + 1 - size = 0 := by omega
    rw [hnone, hnext, if_pos (by omega), List.drop_zero, List.drop_zero]
  · have hnext : messages.length + 1 - size = messages.length - size + 1 := by omega
    rw [if_neg (by omega), hnext, List.tail_drop, List.drop_append_of_le_length (by omega)]

end Memory

/-- What the state of a channel stands for. -/
structure Contents (α : Type) where
  memory : Memory α
  receivers : Nat
  isOpen : Bool

/-- What the states and the receivers of a channel stand for: the position of a receiver is the
number of messages that were sent before the next one it can receive. -/
structure Reading (channel : Channel α) where
  contents : channel.State → Contents α
  position : channel.Receiver → Nat

/-! ## The rules -/

/-- The rules by which a channel works. -/
structure Reading.Rules {channel : Channel α} (reading : channel.Reading) : Prop where
  /-- There is a channel for every capacity but none at all and more than half of the counts. -/
  make?_isSome : ∀ capacity,
    (channel.make? capacity).isSome ↔ 0 < capacity ∧ capacity ≤ greatestCapacity
  /-- A new channel is empty and has one receiver. The number of messages that it holds is the
  capacity, rounded up to a power of two. -/
  make? : ∀ capacity state first, channel.make? capacity = some (state, first) →
    reading.contents state =
      { memory := ⟨2 ^ Nat.clog 2 capacity, 0, []⟩, receivers := 1, isOpen := true }
  /-- A message that nobody is there to receive is given back. -/
  send_unheard : ∀ state message, (reading.contents state).isOpen →
    (reading.contents state).receivers = 0 →
    (channel.send message state).1 = .error message ∧
      reading.contents (channel.send message state).2 = reading.contents state
  /-- Any other message is held, and the answer is how many receivers there are. -/
  send : ∀ state message, (reading.contents state).isOpen →
    0 < (reading.contents state).receivers →
    (channel.send message state).1 = .ok (reading.contents state).receivers ∧
      reading.contents (channel.send message state).2 =
        { reading.contents state with memory := (reading.contents state).memory.push message }
  /-- A new receiver will receive what is sent from now on. -/
  subscribe : ∀ state, (reading.contents state).isOpen →
    reading.position (channel.subscribe state).1 = (reading.contents state).memory.sent ∧
      reading.contents (channel.subscribe state).2 =
        { reading.contents state with receivers := (reading.contents state).receivers + 1 }
  /-- A receiver whose next message was released is told how many it missed, and moves to the
  oldest one that is held. -/
  receive_lagged : ∀ state receiver,
    reading.position receiver < (reading.contents state).memory.released →
    (channel.tryReceive receiver state).1 =
        .error (.lagged ((reading.contents state).memory.released - reading.position receiver)) ∧
      reading.position (channel.tryReceive receiver state).2.1 =
        (reading.contents state).memory.released
  /-- A message that is held is received, and the receiver moves on to the next one. -/
  receive_held : ∀ state receiver message,
    (reading.contents state).memory.released ≤ reading.position receiver →
    (reading.contents state).memory.held[
      reading.position receiver - (reading.contents state).memory.released]? = some message →
    (channel.tryReceive receiver state).1 = .ok message ∧
      reading.position (channel.tryReceive receiver state).2.1 = reading.position receiver + 1
  /-- A receiver that has received everything stays where it is. It is told whether there is
  still a sender. -/
  receive_none : ∀ state receiver,
    (reading.contents state).memory.sent ≤ reading.position receiver →
    (channel.tryReceive receiver state).1 =
        .error (if (reading.contents state).isOpen then .empty else .closed) ∧
      reading.position (channel.tryReceive receiver state).2.1 = reading.position receiver
  /-- Whoever receives takes nothing from the others. -/
  receive_contents : ∀ state receiver,
    reading.contents (channel.tryReceive receiver state).2.2 = reading.contents state
  /-- What a receiver leaves behind is for the others. -/
  dropReceiver : ∀ state receiver, 0 < (reading.contents state).receivers →
    reading.contents (channel.dropReceiver receiver state) =
      { reading.contents state with receivers := (reading.contents state).receivers - 1 }
  /-- Without a sender the channel still holds its messages. -/
  dropSender : ∀ state, (reading.contents state).isOpen →
    reading.contents (channel.dropSender state) = { reading.contents state with isOpen := false }
  receiverCount : ∀ state, channel.receiverCount state = (reading.contents state).receivers

end VariantCatalog.Channel
