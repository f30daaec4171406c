/-
# What an entry says of a bus

A log tells what was done with a bus and what came of it, but not how its channel stands.
`Turns` says what one entry tells of the bus before and after it: which message the channel
holds from now on, and where each subscription stands.  That is where the rules of the channel
are used, each in the case of the act that needs it.
-/

import VariantCatalog.Proofs.Notice.Channel
import VariantCatalog.Proofs.Notice.Log

namespace VariantCatalog.Bus

variable {α : Type} {channel : Channel α}

/-! ## Looking into a bus -/

section Reading

variable (reading : channel.Reading) (bus : Bus channel)

/-- What the channel of a bus stands for. -/
def contents : Channel.Contents α := reading.contents bus.state

/-- The position of a subscription that was made and not dropped. -/
def position? (subscription : Nat) : Option Nat :=
  (bus.receiver? subscription).map reading.position

/-- What a receiver of the bus is answered, and its position behind that. -/
def hear (receiver : channel.Receiver) : Except SubscriptionError (Option α) × Nat :=
  let (answer, after, _) := channel.tryReceive receiver bus.state
  (outcome answer, reading.position after)

/-- The bus behind what a subscription received. -/
def received (subscription : Nat) (receiver : channel.Receiver) : Bus channel :=
  let (_, after, state) := channel.tryReceive receiver bus.state
  { bus with state, subscriptions := bus.subscriptions.set subscription (some after) }

/-- The number of subscriptions that were not dropped. -/
def count : Nat := bus.subscriptions.countP (·.isSome)

/-- The channel of a bus has a sender as long as the bus is there, and a receiver for each
subscription that is there. -/
structure Sound : Prop where
  isOpen : (bus.contents reading).isOpen = bus.isOpen
  receivers : (bus.contents reading).receivers = bus.count

end Reading

section Subscriptions

variable {bus : Bus channel} {subscription : Nat} {receiver : channel.Receiver}

theorem getElem?_of_receiver? (h : bus.receiver? subscription = some receiver) :
    bus.subscriptions[subscription]? = some (some receiver) :=
  Option.join_eq_some_iff.mp h

theorem lt_of_receiver? (h : bus.receiver? subscription = some receiver) :
    subscription < bus.subscriptions.length :=
  (List.getElem?_eq_some_iff.mp (getElem?_of_receiver? h)).1

theorem count_pos (h : bus.receiver? subscription = some receiver) : 0 < bus.count :=
  List.countP_pos_iff.mpr ⟨_, List.mem_of_getElem? (getElem?_of_receiver? h), rfl⟩

theorem perform_receive_of (reading : channel.Reading)
    (h : bus.receiver? subscription = some receiver) :
    bus.perform (.receive subscription) =
      (.received (bus.hear reading receiver).1, bus.received subscription receiver) := by
  rw [perform, receive?, h]
  rfl

theorem hear_eq_of {reading : channel.Reading} {answer : Except ReceiveError α} {position : Nat}
    (h : (channel.tryReceive receiver bus.state).1 = answer ∧
      reading.position (channel.tryReceive receiver bus.state).2.1 = position) :
    bus.hear reading receiver = (outcome answer, position) := by
  obtain ⟨rfl, rfl⟩ := h
  rfl

/-- What becomes of one subscription is of no concern to the others. -/
theorem join_getElem?_set (hlt : subscription < bus.subscriptions.length)
    (next : Option channel.Receiver) (asking : Nat) :
    ((bus.subscriptions.set subscription next)[asking]?).join =
      if subscription = asking then next else bus.receiver? asking := by
  rw [List.getElem?_set]
  split
  · rw [Option.join_some]
  · rfl

/-- Where a subscription is there, another receiver in its place makes no difference in number,
and none makes one less. -/
theorem countP_set_receiver (h : bus.receiver? subscription = some receiver)
    (next : Option channel.Receiver) :
    (bus.subscriptions.set subscription next).countP (·.isSome) =
      bus.count - 1 + if next.isSome then 1 else 0 := by
  obtain ⟨hlt, hsubscription⟩ := List.getElem?_eq_some_iff.mp (getElem?_of_receiver? h)
  rw [List.countP_set hlt, hsubscription, Option.isSome_some, if_pos rfl, count]

/-- A subscription that was dropped already is dropped once more. -/
theorem subscriptions_drop (bus : Bus channel) (subscription : Nat) :
    (bus.drop subscription).subscriptions = bus.subscriptions.set subscription none := by
  cases h : bus.receiver? subscription with
  | some receiver => rw [drop, h]
  | none =>
      have hsame : bus.drop subscription = bus := by rw [drop, h]
      rw [hsame]
      rw [receiver?] at h
      cases hentry : bus.subscriptions[subscription]? with
      | none => rw [List.set_eq_of_length_le (List.getElem?_eq_none_iff.mp hentry)]
      | some entry =>
          obtain ⟨hlt, hentry'⟩ := List.getElem?_eq_some_iff.mp hentry
          rw [hentry, Option.join_some] at h
          rw [← h, ← hentry', List.set_getElem_self]

end Subscriptions

/-! ## One entry -/

/-- The message that an entry adds to the memory: one that nobody is there for is not held. -/
def keeps? : Act α × Answer α → Option α
  | (.publish message, .delivered (_ + 1)) => some message
  | _ => none

/-- The messages that were held at some time. -/
def Log.stored (log : Log α) : List α := log.filterMap keeps?

theorem Log.stored_append (log : Log α) (entry : Act α × Answer α) :
    (log ++ [entry]).stored = log.stored ++ (keeps? entry).toList :=
  filterMap_append_singleton log entry keeps?

/-- What an entry says of a bus that goes from one state to the next: what it does to the
channel, whom it makes or drops, and who is answered and moves on. -/
structure Turns (reading : channel.Reading) (before : Bus channel) (entry : Act α × Answer α)
    (after : Bus channel) : Prop where
  sound : after.Sound reading
  isOpen : after.isOpen = (before.isOpen && !closes entry)
  memory : (after.contents reading).memory = match keeps? entry with
    | none => (before.contents reading).memory
    | some message => (before.contents reading).memory.push message
  made : List.range after.subscriptions.length =
    List.range before.subscriptions.length ++ (makes? entry).toList
  fresh : ∀ subscription, makes? entry = some subscription →
    after.position? reading subscription = some (before.contents reading).memory.sent
  dropped : ∀ subscription, drops? entry = some subscription →
    subscription < before.subscriptions.length
  answered : ∀ subscription outcome, answers? subscription entry = some outcome →
    ∃ receiver, before.receiver? subscription = some receiver ∧
      outcome = (before.hear reading receiver).1
  position : ∀ subscription < before.subscriptions.length, after.position? reading subscription =
    if drops? entry = some subscription then none
    else if (answers? subscription entry).isSome then
      (before.receiver? subscription).map fun receiver => (before.hear reading receiver).2
    else before.position? reading subscription
  unheard : ∀ message, publishes? entry = some message → keeps? entry = none → before.count = 0

section Perform

variable {reading : channel.Reading} {bus : Bus channel}

/-- An entry that makes, drops and answers no subscription leaves all of them as they are. -/
theorem turns_of_still {entry : Act α × Answer α} {after : Bus channel}
    (hmakes : makes? entry = none) (hdrops : drops? entry = none)
    (hanswers : ∀ subscription, answers? subscription entry = none)
    (hsubscriptions : after.subscriptions = bus.subscriptions) (hsound : after.Sound reading)
    (hopen : after.isOpen = (bus.isOpen && !closes entry))
    (hmemory : (after.contents reading).memory = match keeps? entry with
      | none => (bus.contents reading).memory
      | some message => (bus.contents reading).memory.push message)
    (hunheard : ∀ message, publishes? entry = some message → keeps? entry = none →
      bus.count = 0) : Turns reading bus entry after where
  sound := hsound
  isOpen := hopen
  memory := hmemory
  made := by rw [hsubscriptions, hmakes, Option.toList_none, List.append_nil]
  fresh subscription h := by
    rw [hmakes] at h
    cases h
  dropped subscription h := by
    rw [hdrops] at h
    cases h
  answered subscription outcome h := by
    rw [hanswers] at h
    cases h
  position subscription _ := by
    rw [hdrops, hanswers, if_neg (Option.some_ne_none subscription).symm, Option.isSome_none,
      if_neg Bool.false_ne_true, position?, receiver?, hsubscriptions]
    rfl
  unheard := hunheard

/-- An entry that only says what was refused changes nothing. -/
theorem turns_refused (hsound : bus.Sound reading) (act : Act α) :
    Turns reading bus (act, .refused) bus := by
  have hkeeps : keeps? (act, Answer.refused) = none := by cases act <;> rfl
  have hcloses : closes (act, Answer.refused) = false := by cases act <;> rfl
  have hpublishes : publishes? (act, Answer.refused) = none := by cases act <;> rfl
  apply turns_of_still
  · cases act <;> rfl
  · cases act <;> rfl
  · intro subscription
    cases act <;> rfl
  · rfl
  · exact hsound
  · rw [hcloses, Bool.not_false, Bool.and_true]
  · rw [hkeeps]
  · intro message hmessage
    rw [hpublishes] at hmessage
    cases hmessage

variable (hrules : reading.Rules) (hsound : bus.Sound reading)

include hrules hsound

/-- One more receiver for one more subscription. -/
theorem contents_subscribe (hopen : bus.isOpen) :
    bus.subscribe.contents reading =
      { bus.contents reading with receivers := (bus.contents reading).receivers + 1 } :=
  (hrules.subscribe bus.state (hsound.isOpen.trans hopen)).2

theorem turns_subscribe (hopen : bus.isOpen) :
    Turns reading bus (.subscribe, .subscribed bus.subscriptions.length) bus.subscribe := by
  have hcontents := contents_subscribe hrules hsound hopen
  have hposition := (hrules.subscribe bus.state (hsound.isOpen.trans hopen)).1
  exact
    { sound := by
        constructor
        · rw [hcontents]
          exact hsound.isOpen
        · rw [hcontents, hsound.receivers, count, count, subscribe, List.countP_append]
          rfl
      isOpen := (Bool.and_true _).symm
      memory := by
        rw [hcontents]
        rfl
      made := by
        rw [subscribe, List.length_append, List.length_singleton, List.range_succ]
        rfl
      fresh := by
        rintro _ ⟨⟩
        simp [position?, receiver?, subscribe, hposition, contents]
      dropped := by rintro _ ⟨⟩
      answered := by rintro _ _ ⟨⟩
      position := fun subscription hlt => by
        simp [position?, receiver?, subscribe, List.getElem?_append_left hlt, drops?, answers?]
      unheard := by rintro _ ⟨⟩ }

/-- What is published goes to the subscriptions that are there. -/
theorem publish_spec (hopen : bus.isOpen) (message : α) :
    (bus.publish message).1 = bus.count ∧
      (bus.publish message).2.contents reading =
        if bus.count = 0 then bus.contents reading
        else
          { bus.contents reading with memory := (bus.contents reading).memory.push message } := by
  have hsent := hsound.isOpen.trans hopen
  have hanswer : (bus.publish message).1 =
      (channel.send message bus.state).1.toOption.getD 0 := rfl
  have hcontents : (bus.publish message).2.contents reading =
      reading.contents (channel.send message bus.state).2 := rfl
  rw [hanswer, hcontents]
  by_cases hcount : bus.count = 0
  · obtain ⟨hgiven, hsame⟩ :=
      hrules.send_unheard bus.state message hsent (hsound.receivers.trans hcount)
    rw [hgiven, hsame, if_pos hcount, hcount]
    exact ⟨rfl, rfl⟩
  · obtain ⟨htaken, hheld⟩ := hrules.send bus.state message hsent
      (Nat.pos_of_ne_zero fun hnone => hcount (hsound.receivers.symm.trans hnone))
    rw [htaken, hheld, if_neg hcount]
    exact ⟨hsound.receivers, rfl⟩

theorem turns_publish (hopen : bus.isOpen) (message : α) :
    Turns reading bus (.publish message, .delivered (bus.publish message).1)
      (bus.publish message).2 := by
  obtain ⟨hanswer, hcontents⟩ := publish_spec hrules hsound hopen message
  have hafter : (bus.publish message).2.Sound reading := by
    constructor
    · rw [hcontents]
      split <;> exact hsound.isOpen
    · rw [hcontents]
      split <;> exact hsound.receivers
  have hsubscriptions : (bus.publish message).2.subscriptions = bus.subscriptions := rfl
  rw [hanswer]
  apply turns_of_still rfl rfl (fun _ => rfl) hsubscriptions hafter (Bool.and_true _).symm
  · rw [hcontents]
    cases bus.count <;> rfl
  · -- A message that is not held went to none, so there was none to hear it.
    intro _ _ hkeeps
    cases hcount : bus.count with
    | zero => rfl
    | succ count =>
        rw [hcount] at hkeeps
        cases hkeeps

/-- A receiver takes nothing from the others, and the bus goes on with what became of it. -/
theorem turns_receive {subscription : Nat} {receiver : channel.Receiver}
    (h : bus.receiver? subscription = some receiver) :
    Turns reading bus (.receive subscription, .received (bus.hear reading receiver).1)
      (bus.received subscription receiver) := by
  have hsame : (bus.received subscription receiver).contents reading = bus.contents reading :=
    hrules.receive_contents bus.state receiver
  exact
    { sound := by
        constructor
        · rw [hsame]
          exact hsound.isOpen
        · have hpos := count_pos h
          rw [hsame, count, received, countP_set_receiver h, Option.isSome_some, if_pos rfl,
            Nat.sub_add_cancel hpos]
          exact hsound.receivers
      isOpen := (Bool.and_true _).symm
      memory := congrArg Channel.Contents.memory hsame
      made := by
        rw [received, List.length_set]
        exact (List.append_nil _).symm
      fresh := by rintro _ ⟨⟩
      dropped := by rintro _ ⟨⟩
      answered := fun asking outcome hanswers => by
        rw [answers?] at hanswers
        split at hanswers
        · next hsame =>
          subst hsame
          exact ⟨receiver, h, (Option.some.inj hanswers).symm⟩
        · cases hanswers
      position := fun asking _ => by
        rw [position?, receiver?, received, join_getElem?_set (lt_of_receiver? h), answers?]
        by_cases hsame : subscription = asking
        · subst hsame
          simp [drops?, h, hear]
        · simp [drops?, hsame, position?]
      unheard := by rintro _ ⟨⟩ }

/-- One receiver less for one subscription less. -/
theorem contents_drop (subscription : Nat) :
    (bus.drop subscription).contents reading =
      { bus.contents reading with receivers := (bus.drop subscription).count } := by
  cases h : bus.receiver? subscription with
  | none =>
      have hsame : bus.drop subscription = bus := by rw [drop, h]
      rw [hsame, ← hsound.receivers]
  | some receiver =>
      have hpos : 0 < (bus.contents reading).receivers := hsound.receivers ▸ count_pos h
      have hcount : (bus.drop subscription).count = (bus.contents reading).receivers - 1 := by
        rw [drop, h, count, countP_set_receiver h, hsound.receivers]
        rfl
      rw [hcount, drop, h]
      exact hrules.dropReceiver bus.state receiver hpos

theorem turns_drop {subscription : Nat} (hlt : subscription < bus.subscriptions.length) :
    Turns reading bus (.drop subscription, .done) (bus.drop subscription) := by
  have hcontents := contents_drop hrules hsound subscription
  have hsubscriptions := subscriptions_drop bus subscription
  have hopen : (bus.drop subscription).isOpen = bus.isOpen := by
    rw [drop]
    split <;> rfl
  exact
    { sound := ⟨by rw [hcontents, hopen]; exact hsound.isOpen, by rw [hcontents]⟩
      isOpen := hopen.trans (Bool.and_true _).symm
      memory := by
        rw [hcontents]
        rfl
      made := by
        rw [hsubscriptions, List.length_set]
        exact (List.append_nil _).symm
      fresh := by rintro _ ⟨⟩
      dropped := by
        rintro _ ⟨⟩
        exact hlt
      answered := by rintro _ _ ⟨⟩
      position := fun asking _ => by
        rw [position?, receiver?, hsubscriptions, join_getElem?_set hlt, drops?]
        by_cases hsame : subscription = asking
        · simp [hsame]
        · simp [hsame, answers?, position?]
      unheard := by rintro _ ⟨⟩ }

/-- Without a bus the channel has no sender. -/
theorem contents_close :
    bus.close.contents reading = { bus.contents reading with isOpen := false } := by
  rw [close]
  split
  · next hopen => exact hrules.dropSender bus.state (hsound.isOpen.trans hopen)
  · next hclosed => rw [← Bool.eq_false_iff.mpr hclosed, ← hsound.isOpen]

theorem turns_close : Turns reading bus (.close, .done) bus.close := by
  have hcontents := contents_close hrules hsound
  have hopen : bus.close.isOpen = false := by
    rw [close]
    split
    · rfl
    · next hclosed => exact Bool.eq_false_iff.mpr hclosed
  have hsubscriptions : bus.close.subscriptions = bus.subscriptions := by
    rw [close]
    split <;> rfl
  have hafter : bus.close.Sound reading := by
    constructor
    · rw [hcontents, hopen]
    · rw [hcontents, count, hsubscriptions]
      exact hsound.receivers
  apply turns_of_still rfl rfl (fun _ => rfl) hsubscriptions hafter
    (hopen.trans (Bool.and_false _).symm)
  · rw [hcontents]
    rfl
  · rintro _ ⟨⟩

/-- What is done with a bus is what its entry says. -/
theorem turns_perform (act : Act α) :
    Turns reading bus (act, (bus.perform act).1) (bus.perform act).2 := by
  cases act with
  | subscribe =>
      rw [perform]
      split
      · next hopen => exact turns_subscribe hrules hsound hopen
      · exact turns_refused hsound _
  | publish message =>
      rw [perform]
      split
      · next hopen => exact turns_publish hrules hsound hopen message
      · exact turns_refused hsound _
  | receive subscription =>
      cases h : bus.receiver? subscription with
      | none =>
          rw [perform, receive?, h]
          exact turns_refused hsound _
      | some receiver =>
          rw [perform_receive_of reading h]
          exact turns_receive hrules hsound h
  | drop subscription =>
      rw [perform]
      split
      · next hlt => exact turns_drop hrules hsound hlt
      · exact turns_refused hsound _
  | close => exact turns_close hrules hsound

end Perform

end VariantCatalog.Bus
