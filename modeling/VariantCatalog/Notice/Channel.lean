/-
# Channels

A `Channel` carries messages from one sender to any number of receivers.  It is
made outside of here: a bus is given one and only calls it.  What is known of such
a channel is said where something is proved with it, and `Broadcast` is one that
behaves so.

The sender and the receivers share the state of their channel.  A receiver has
besides what is its own, and a call that gives it a message gives it back with the
message.
-/

import VariantCatalog.Expansion.Count

namespace VariantCatalog

/-- Why a receiver has no message to give. -/
inductive ReceiveError where
  /-- Nothing is left to receive, but more may be sent. -/
  | empty
  /-- Nothing is left to receive, and nothing more will be sent. -/
  | closed
  /-- So many messages were lost before they were received. -/
  | lagged (missed : Nat)
  deriving DecidableEq

/-- A channel of messages. -/
structure Channel (α : Type) where
  /-- What the sender and the receivers share. -/
  State : Type
  Receiver : Type
  /-- Make a channel with room for so many messages, and its first receiver, unless
  there is no channel with that much room. -/
  make? : (capacity : Nat) → Option (State × Receiver)
  /-- Send a message to all receivers. The answer is their number, or the message
  if it could not be sent. -/
  send : α → State → Except α Nat × State
  /-- Make another receiver. -/
  subscribe : State → Receiver × State
  /-- Take the next message of a receiver. -/
  tryReceive : Receiver → State → Except ReceiveError α × Receiver × State
  dropReceiver : Receiver → State → State
  dropSender : State → State
  receiverCount : State → Nat

/-- The greatest capacity that can be asked for. -/
def Channel.greatestCapacity : Nat := (Expansion.countBound - 1) / 2

end VariantCatalog
