/-
# A bus and its subscriptions

A bus is the sender of a channel.  Each subscription holds a receiver of it and
turns what the receiver answers into a message, nothing, or the reason why there
will be none.  The receiver that comes with the channel is dropped at once, so that
only subscriptions count.

Here is the bus with all subscriptions that it handed out, and all that can be done
with them.  The bus may be dropped before its subscriptions are: these still receive
what the channel holds.
-/

import VariantCatalog.Notice.Channel
import VariantCatalog.Text.Numeral

namespace VariantCatalog

/-- Why a subscription has no message to give. -/
inductive SubscriptionError where
  | closed
  | lagged (missed : Nat)
  deriving DecidableEq

namespace SubscriptionError

/-- The name of the kind of error. -/
def name : SubscriptionError → String
  | .closed => "Closed"
  | .lagged _ => "Lagged"

/-- The text of an error. -/
def message : SubscriptionError → String
  | .closed => "event bus closed"
  | .lagged missed =>
    "subscriber lagged behind and missed " ++ Text.integerText missed ++ " events"

end SubscriptionError

/-- A bus over a channel, with its subscriptions. These are numbered in the order in
which they were made; one that was dropped has no receiver. -/
structure Bus {α : Type} (channel : Channel α) where
  state : channel.State
  /-- Whether the bus is still there. -/
  isOpen : Bool
  subscriptions : List (Option channel.Receiver)

namespace Bus

variable {α : Type} {channel : Channel α}

/-- The capacity of a bus whose maker does not choose one. -/
def defaultCapacity : Nat := 1024

/-- A bus whose channel has room for `capacity` messages, and at least for one. -/
def withCapacity? (channel : Channel α) (capacity : Nat) : Option (Bus channel) :=
  (channel.make? (max capacity 1)).map fun (state, first) =>
    { state := channel.dropReceiver first state, isOpen := true, subscriptions := [] }

/-- The number of subscriptions that were not dropped. -/
def subscriberCount (bus : Bus channel) : Nat :=
  channel.receiverCount bus.state

/-- Publish a message. It can only fail to be sent where nobody listens, so it goes
to none then. -/
def publish (bus : Bus channel) (message : α) : Nat × Bus channel :=
  let (answer, state) := channel.send message bus.state
  (answer.toOption.getD 0, { bus with state })

/-- Make a subscription. -/
def subscribe (bus : Bus channel) : Bus channel :=
  let (receiver, state) := channel.subscribe bus.state
  { bus with state, subscriptions := bus.subscriptions ++ [some receiver] }

/-- The receiver of a subscription that was made and not dropped. -/
def receiver? (bus : Bus channel) (subscription : Nat) : Option channel.Receiver :=
  (bus.subscriptions[subscription]?).join

/-- What a subscription makes of an answer of its receiver: that there is no message
yet is no error. -/
def outcome : Except ReceiveError α → Except SubscriptionError (Option α)
  | .ok message => .ok (some message)
  | .error .empty => .ok none
  | .error .closed => .error .closed
  | .error (.lagged missed) => .error (.lagged missed)

/-- Receive the next message of a subscription, unless it was dropped or never
made. -/
def receive? (bus : Bus channel) (subscription : Nat) :
    Option (Except SubscriptionError (Option α) × Bus channel) :=
  (bus.receiver? subscription).map fun receiver =>
    let (answer, receiver, state) := channel.tryReceive receiver bus.state
    (outcome answer,
      { bus with state, subscriptions := bus.subscriptions.set subscription (some receiver) })

/-- Drop a subscription. -/
def drop (bus : Bus channel) (subscription : Nat) : Bus channel :=
  match bus.receiver? subscription with
  | some receiver =>
    { bus with
      state := channel.dropReceiver receiver bus.state
      subscriptions := bus.subscriptions.set subscription none }
  | none => bus

/-- Drop the bus. -/
def close (bus : Bus channel) : Bus channel :=
  if bus.isOpen then { bus with state := channel.dropSender bus.state, isOpen := false } else bus

/-! ## What is done with a bus -/

/-- Something that is done with a bus. -/
inductive Act (α : Type) where
  | subscribe
  | publish (message : α)
  | receive (subscription : Nat)
  | drop (subscription : Nat)
  | close

/-- What comes of it. -/
inductive Answer (α : Type) where
  /-- A subscription with this number was made. -/
  | subscribed (subscription : Nat)
  /-- A message went to so many subscriptions. -/
  | delivered (count : Nat)
  /-- A subscription has a message, nothing, or the reason why there is none. -/
  | received (outcome : Except SubscriptionError (Option α))
  | done
  /-- There is nothing to do it with: no bus any more, or no such subscription. -/
  | refused

/-- Do something with a bus. One that was dropped takes no subscriptions and no
messages any more. -/
def perform (bus : Bus channel) : Act α → Answer α × Bus channel
  | .subscribe =>
    if bus.isOpen then (.subscribed bus.subscriptions.length, bus.subscribe)
    else (.refused, bus)
  | .publish message =>
    if bus.isOpen then (.delivered (bus.publish message).1, (bus.publish message).2)
    else (.refused, bus)
  | .receive subscription =>
    match bus.receive? subscription with
    | some (outcome, after) => (.received outcome, after)
    | none => (.refused, bus)
  | .drop subscription =>
    if subscription < bus.subscriptions.length then (.done, bus.drop subscription)
    else (.refused, bus)
  | .close => (.done, bus.close)

end Bus

end VariantCatalog
