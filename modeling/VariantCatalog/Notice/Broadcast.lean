/-
# A broadcast with a bounded memory

A broadcast is a channel that keeps the last few messages only.  A receiver that has
fallen behind them is told once how many it missed and continues with the oldest
message still kept.  When the sender is gone, what is kept can still be received.

Positions count the messages that were sent: `released` of them are no longer kept,
and those in `kept` followed them, the newest first.  A receiver is the position of
the message that it will receive next.
-/

import VariantCatalog.Notice.Channel

namespace VariantCatalog

/-- What the sender and the receivers of a broadcast share. -/
structure Broadcast (α : Type) where
  size : Nat
  released : Nat
  kept : List α
  receivers : Nat
  isOpen : Bool

namespace Broadcast

variable {α : Type}

/-- The least power of two that is at least `least`, searched upwards from
`power` in at most `steps` doublings. -/
def powerOfTwoFrom (least power : Nat) : (steps : Nat) → Nat
  | 0 => power
  | steps + 1 => if least ≤ power then power else powerOfTwoFrom least (power * 2) steps

/-- The least power of two that is at least `least`. -/
def powerOfTwo (least : Nat) : Nat := powerOfTwoFrom least 1 least

/-- A broadcast that keeps at least `capacity` messages, with one receiver. Memory is
laid out in powers of two, so the next one is what is kept. -/
def ofCapacity (capacity : Nat) : Broadcast α where
  size := powerOfTwo capacity
  released := 0
  kept := []
  receivers := 1
  isOpen := true

/-- The position behind the last message. -/
def tail (broadcast : Broadcast α) : Nat :=
  broadcast.released + broadcast.kept.length

/-- Keep one more message, and no longer the oldest one if the memory is full. -/
def keep (broadcast : Broadcast α) (message : α) : Broadcast α :=
  if broadcast.kept.length < broadcast.size then
    { broadcast with kept := message :: broadcast.kept }
  else
    { broadcast with
      released := broadcast.released + 1
      kept := message :: broadcast.kept.dropLast }

/-- Send a message. Nobody can ever receive a message that is sent while there is no
receiver, so it is given back. -/
def send (message : α) (broadcast : Broadcast α) : Except α Nat × Broadcast α :=
  if broadcast.receivers = 0 then (.error message, broadcast)
  else (.ok broadcast.receivers, broadcast.keep message)

/-- The message at a position, if it is kept. -/
def message? (broadcast : Broadcast α) (position : Nat) : Option α :=
  if position < broadcast.tail then broadcast.kept[broadcast.tail - 1 - position]? else none

/-- Take the next message at a position. With the answer comes the position to
continue at. -/
def receiveAt (broadcast : Broadcast α) (position : Nat) : Except ReceiveError α × Nat :=
  if position < broadcast.released then
    (.error (.lagged (broadcast.released - position)), broadcast.released)
  else
    match broadcast.message? position with
    | some message => (.ok message, position + 1)
    | none => (.error (if broadcast.isOpen then .empty else .closed), position)

/-- Broadcasts as a channel. -/
def channel (α : Type) : Channel α where
  State := Broadcast α
  Receiver := Nat
  make? capacity :=
    if capacity = 0 ∨ Channel.greatestCapacity < capacity then none
    else some (ofCapacity capacity, 0)
  send := send
  subscribe broadcast :=
    (broadcast.tail, { broadcast with receivers := broadcast.receivers + 1 })
  tryReceive position broadcast :=
    let (answer, next) := broadcast.receiveAt position
    (answer, next, broadcast)
  dropReceiver _ broadcast := { broadcast with receivers := broadcast.receivers - 1 }
  dropSender broadcast := { broadcast with isOpen := false }
  receiverCount broadcast := broadcast.receivers

end Broadcast

end VariantCatalog
