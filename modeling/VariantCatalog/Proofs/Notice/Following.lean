/-
# A bus told by its log

What was done with a bus tells all that there is to know of it: who is subscribed, which
messages its channel holds, and where each subscription stands.  That a log tells the bus is
kept by every entry, and so are the accounts of all subscriptions.
-/

import Mathlib.Data.List.Induction
import VariantCatalog.Proofs.Notice.Account
import VariantCatalog.Proofs.Notice.Turning

namespace VariantCatalog.Bus

variable {α : Type} {channel : Channel α}

/-! ## The log tells the bus -/

/-- A bus whose course was written down in a log. Its channel holds `size` messages, of which
`recent` were asked for. -/
structure Follows (reading : channel.Reading) (size recent : Nat) (bus : Bus channel)
    (log : Log α) : Prop where
  recent_pos : 0 < recent
  recent_le : recent ≤ size
  sound : bus.Sound reading
  isOpen : bus.isOpen = !log.isClosed
  memory : (bus.contents reading).memory = .ofMessages size log.stored
  made : log.made = List.range bus.subscriptions.length
  dropped : ∀ subscription, log.isDropped subscription → subscription < bus.subscriptions.length
  unasked : ∀ subscription, bus.subscriptions.length ≤ subscription →
    log.outcomes subscription = []
  position : ∀ subscription < bus.subscriptions.length,
    (bus.position? reading subscription).isSome = !log.isDropped subscription
  accounts : ∀ subscription < bus.subscriptions.length, ∃ accounted pending,
    log.Accounts subscription recent accounted pending ∧
    ∀ position, bus.position? reading subscription = some position →
      position ≤ log.stored.length ∧ pending = log.stored.drop position

theorem follows_withCapacity? {reading : channel.Reading} (hrules : reading.Rules)
    {capacity : Nat} {bus : Bus channel} (h : withCapacity? channel capacity = some bus) :
    Follows reading (2 ^ Nat.clog 2 (max capacity 1)) (max capacity 1) bus [] := by
  obtain ⟨⟨state, first⟩, hmake, rfl⟩ := Option.map_eq_some_iff.mp h
  have hnew := hrules.make? _ state first hmake
  have hone : 0 < (reading.contents state).receivers := by
    rw [hnew]
    exact Nat.one_pos
  have hcontents := hrules.dropReceiver state first hone
  rw [hnew] at hcontents
  exact
    { recent_pos := Nat.le_max_right capacity 1
      recent_le := Nat.le_pow_clog (by decide) _
      sound := ⟨congrArg Channel.Contents.isOpen hcontents,
        congrArg Channel.Contents.receivers hcontents⟩
      isOpen := rfl
      memory := (congrArg Channel.Contents.memory hcontents).trans (by
        rw [Channel.Memory.ofMessages, Log.stored]
        simp)
      made := rfl
      dropped := fun _ h => by cases h
      unasked := fun _ _ => rfl
      position := fun _ h => absurd h (Nat.not_lt_zero _)
      accounts := fun _ h => absurd h (Nat.not_lt_zero _) }

namespace Follows

variable {reading : channel.Reading} {size recent : Nat} {bus : Bus channel} {log : Log α}

theorem mem_made (h : Follows reading size recent bus log) {subscription : Nat} :
    subscription ∈ log.made ↔ subscription < bus.subscriptions.length := by
  rw [h.made, List.mem_range]

/-- The number of subscriptions that were not dropped. -/
theorem count_eq (h : Follows reading size recent bus log) : bus.count = log.alive.length := by
  have hstates : bus.subscriptions.map (·.isSome) =
      (List.range bus.subscriptions.length).map fun subscription =>
        !log.isDropped subscription := by
    refine List.ext_getElem (by simp) fun subscription hlt _ => ?_
    rw [List.length_map] at hlt
    have hposition := h.position subscription hlt
    rw [position?, Option.isSome_map, receiver?, List.getElem?_eq_getElem hlt,
      Option.join_some] at hposition
    rw [List.getElem_map, List.getElem_map, List.getElem_range, hposition]
  have hcount : bus.count = (bus.subscriptions.map (·.isSome)).countP id := by
    rw [count, List.countP_map]
    rfl
  rw [hcount, hstates, Log.alive, h.made, ← List.countP_eq_length_filter, List.countP_map]
  rfl

/-- What a subscription receives is told by the messages before it. -/
theorem hear_eq (hrules : reading.Rules) (h : Follows reading size recent bus log)
    {receiver : channel.Receiver} (hposition : reading.position receiver ≤ log.stored.length) :
    bus.hear reading receiver =
      (due size log.isClosed (log.stored.drop (reading.position receiver)),
        reading.position receiver + (covers (due size log.isClosed
          (log.stored.drop (reading.position receiver)))).length) := by
  have hmemory : (reading.contents bus.state).memory = .ofMessages size log.stored := h.memory
  have hreleased : (reading.contents bus.state).memory.released = log.stored.length - size :=
    congrArg Channel.Memory.released hmemory
  have hpending : (log.stored.drop (reading.position receiver)).length =
      log.stored.length - reading.position receiver := List.length_drop
  by_cases hlt : size < (log.stored.drop (reading.position receiver)).length
  · -- The next message was released, so the answer counts those that were.
    have hmissed : log.stored.length - size - reading.position receiver =
        (log.stored.drop (reading.position receiver)).length - size := by omega
    have holdest : log.stored.length - size = reading.position receiver +
        ((log.stored.drop (reading.position receiver)).length - size) := by omega
    rw [hear_eq_of (hrules.receive_lagged bus.state receiver (by omega)), hreleased, hmissed,
      due_of_lt hlt, covers, List.length_replicate, ← holdest]
    rfl
  cases hrest : log.stored.drop (reading.position receiver) with
  | nil =>
      have hsent : (reading.contents bus.state).memory.sent ≤ reading.position receiver := by
        rw [hmemory, Channel.Memory.sent_ofMessages]
        exact List.drop_eq_nil_iff.mp hrest
      have hopen : (reading.contents bus.state).isOpen = !log.isClosed :=
        h.sound.isOpen.trans h.isOpen
      rw [hear_eq_of (hrules.receive_none bus.state receiver hsent), hopen, due_nil]
      cases log.isClosed <;> rfl
  | cons message rest =>
      rw [hrest] at hlt hpending
      have hle : (reading.contents bus.state).memory.released ≤ reading.position receiver := by
        rw [hreleased]
        omega
      have hmessage : (reading.contents bus.state).memory.held[
          reading.position receiver - (reading.contents bus.state).memory.released]? =
            some message := by
        rw [hmemory] at hle ⊢
        rw [Channel.Memory.getElem?_held_ofMessages hle, ← List.head?_drop, hrest, List.head?_cons]
      rw [hear_eq_of (hrules.receive_held bus.state receiver message hle hmessage), due_cons hlt]
      rfl

/-- Where somebody is subscribed, every message that is published is held. -/
theorem toList_publishes? {entry : Act α × Answer α} {after : Bus channel}
    (hturn : Turns reading bus entry after) {subscription : Nat} {receiver : channel.Receiver}
    (h : bus.receiver? subscription = some receiver) :
    (publishes? entry).toList = (keeps? entry).toList := by
  cases hkeeps : keeps? entry with
  | some message =>
      unfold keeps? at hkeeps
      split at hkeeps
      · rw [publishes?, hkeeps]
      · cases hkeeps
  | none =>
      cases hpublishes : publishes? entry with
      | none => rfl
      | some message =>
          exact absurd (hturn.unheard message hpublishes hkeeps) (Nat.ne_of_gt (count_pos h))

/-- The account of a subscription that is there goes on with every entry. -/
theorem accounts_turn (hrules : reading.Rules) (h : Follows reading size recent bus log)
    {entry : Act α × Answer α} {after : Bus channel} (hturn : Turns reading bus entry after)
    {subscription : Nat} (hlt : subscription < bus.subscriptions.length) :
    ∃ accounted pending, (log ++ [entry]).Accounts subscription recent accounted pending ∧
      ∀ position, after.position? reading subscription = some position →
        position ≤ (log ++ [entry]).stored.length ∧
          pending = (log ++ [entry]).stored.drop position := by
  have hmade := h.mem_made.mpr hlt
  obtain ⟨accounted, pending, haccounts, hpending⟩ := h.accounts subscription hlt
  cases hanswers : answers? subscription entry with
  | none =>
      refine ⟨accounted, _, haccounts.published hmade hanswers, fun position hafter => ?_⟩
      have hbefore : bus.position? reading subscription = some position := by
        rw [hturn.position subscription hlt, hanswers] at hafter
        split at hafter
        · cases hafter
        · exact hafter
      obtain ⟨receiver, hreceiver, -⟩ := Option.map_eq_some_iff.mp hbefore
      obtain ⟨hle, rfl⟩ := hpending position hbefore
      rw [Log.stored_append, List.drop_append_of_le_length hle,
        toList_publishes? hturn hreceiver, List.length_append]
      exact ⟨by omega, rfl⟩
  | some outcome =>
      obtain ⟨receiver, hreceiver, houtcome⟩ := hturn.answered subscription outcome hanswers
      have hbefore : bus.position? reading subscription = some (reading.position receiver) := by
        rw [position?, hreceiver, Option.map_some]
      obtain ⟨hle, rfl⟩ := hpending (reading.position receiver) hbefore
      have hhear := h.hear_eq hrules hle
      rw [hhear] at houtcome
      dsimp only at houtcome
      obtain ⟨hcovers, hmissed⟩ :=
        covers_due size log.isClosed (log.stored.drop (reading.position receiver))
      rw [← houtcome] at hcovers hmissed
      rw [← List.take_append_drop (covers outcome).length
        (log.stored.drop (reading.position receiver))] at haccounts
      refine ⟨_, _, haccounts.answered hmade hanswers hcovers fun hnone =>
        h.recent_le.trans (hmissed hnone), fun next hafter => ?_⟩
      have hkeeps : keeps? entry = none := by
        rw [eq_of_answers? hanswers]
        rfl
      have hdrops : drops? entry ≠ some subscription := by
        rw [eq_of_answers? hanswers]
        rintro ⟨⟩
      have hcovered : (covers outcome).length ≤
          log.stored.length - reading.position receiver := by
        have hlength := hcovers.length_eq
        rw [List.length_take, List.length_drop] at hlength
        omega
      rw [hturn.position subscription hlt, if_neg hdrops, hanswers, Option.isSome_some,
        if_pos rfl, hreceiver, Option.map_some, hhear, ← houtcome] at hafter
      obtain rfl := Option.some.inj hafter
      rw [Log.stored_append, hkeeps, Option.toList_none, List.append_nil, List.drop_drop]
      exact ⟨by omega, rfl⟩

/-- One more entry is followed by what it says of the bus. -/
theorem turn (hrules : reading.Rules) (h : Follows reading size recent bus log)
    {entry : Act α × Answer α} {after : Bus channel} (hturn : Turns reading bus entry after) :
    Follows reading size recent after (log ++ [entry]) := by
  have hlength : after.subscriptions.length =
      bus.subscriptions.length + (makes? entry).toList.length := by
    simpa using congrArg List.length hturn.made
  have hfresh : ∀ subscription < after.subscriptions.length,
      ¬ subscription < bus.subscriptions.length → makes? entry = some subscription := by
    intro subscription hlt hge
    have hmem : subscription ∈ List.range bus.subscriptions.length ++ (makes? entry).toList :=
      hturn.made ▸ List.mem_range.mpr hlt
    rcases List.mem_append.mp hmem with hmem | hmem
    · exact absurd (List.mem_range.mp hmem) hge
    · exact Option.mem_toList.mp hmem
  have hunanswered : ∀ subscription, bus.subscriptions.length ≤ subscription →
      answers? subscription entry = none := by
    intro subscription hge
    cases hanswers : answers? subscription entry with
    | none => rfl
    | some outcome =>
        obtain ⟨receiver, hreceiver, -⟩ := hturn.answered subscription outcome hanswers
        exact absurd (lt_of_receiver? hreceiver) (Nat.not_lt.mpr hge)
  refine
    { recent_pos := h.recent_pos
      recent_le := h.recent_le
      sound := hturn.sound
      isOpen := by rw [hturn.isOpen, h.isOpen, Log.isClosed_append, Bool.not_or]
      memory := ?_
      made := by rw [Log.made_append, h.made, hturn.made]
      dropped := fun subscription hdropped => ?_
      unasked := fun subscription hge => ?_
      position := fun subscription hlt => ?_
      accounts := fun subscription hlt => ?_ }
  · rw [hturn.memory, h.memory, Log.stored_append]
    cases keeps? entry with
    | none => rw [Option.toList_none, List.append_nil]
    | some message =>
        exact Channel.Memory.push_ofMessages (h.recent_pos.trans_le h.recent_le) log.stored message
  · rw [Log.isDropped_append, Bool.or_eq_true, decide_eq_true_iff] at hdropped
    have hlt := hdropped.elim (h.dropped subscription) (hturn.dropped subscription)
    omega
  · rw [Log.outcomes_append, h.unasked subscription (by omega), hunanswered subscription (by omega)]
    rfl
  · rw [Log.isDropped_append]
    by_cases hold : subscription < bus.subscriptions.length
    · rw [hturn.position subscription hold, Bool.not_or, ← h.position subscription hold]
      split
      · simp [*]
      · split <;> simp [*, position?]
    · have hmakes := hfresh subscription hlt hold
      have hnever : log.isDropped subscription = false :=
        Bool.eq_false_iff.mpr fun hdropped => hold (h.dropped subscription hdropped)
      have hdrops : drops? entry ≠ some subscription := fun hdrops =>
        hold (hturn.dropped subscription hdrops)
      rw [hturn.fresh subscription hmakes, hnever, decide_eq_false hdrops]
      rfl
  · by_cases hold : subscription < bus.subscriptions.length
    · exact h.accounts_turn hrules hturn hold
    · have hmakes := hfresh subscription hlt hold
      have hkeeps : keeps? entry = none := by
        rw [eq_of_makes? hmakes]
        rfl
      have hge := Nat.le_of_not_lt hold
      refine ⟨[], [], Log.accounts_of_makes (fun hmem => hold (h.mem_made.mp hmem)) hmakes
        (h.unasked subscription hge) (hunanswered subscription hge), fun position hafter => ?_⟩
      rw [hturn.fresh subscription hmakes, h.memory, Channel.Memory.sent_ofMessages] at hafter
      obtain rfl := Option.some.inj hafter
      rw [Log.stored_append, hkeeps, Option.toList_none, List.append_nil, List.drop_length]
      exact ⟨Nat.le_refl _, rfl⟩

end Follows

/-- The log of a run tells the bus at its end. -/
theorem follows_run {reading : channel.Reading} (hrules : reading.Rules) {size recent : Nat}
    {bus : Bus channel} (h : Follows reading size recent bus []) (acts : List (Act α)) :
    Follows reading size recent (bus.run acts).1 (bus.run acts).2 := by
  induction acts using List.reverseRecOn with
  | nil => exact h
  | append_singleton acts act ih =>
      rw [run, List.foldl_append, ← run]
      exact ih.turn hrules (turns_perform hrules ih.sound act)

namespace Follows

variable {reading : channel.Reading} {size recent : Nat} {bus : Bus channel} {log : Log α}

theorem subscriberCount_eq (hrules : reading.Rules) (h : Follows reading size recent bus log) :
    bus.subscriberCount = log.alive.length := by
  rw [subscriberCount, hrules.receiverCount, ← h.count_eq]
  exact h.sound.receivers

theorem perform_publish (hrules : reading.Rules) (h : Follows reading size recent bus log)
    (message : α) :
    (bus.perform (.publish message)).1 =
      if log.isClosed then .refused else .delivered log.alive.length := by
  rw [perform]
  cases hclosed : log.isClosed with
  | true =>
      have hopen : bus.isOpen = false := by rw [h.isOpen, hclosed, Bool.not_true]
      rw [hopen]
      rfl
  | false =>
      have hopen : bus.isOpen := by rw [h.isOpen, hclosed, Bool.not_false]
      obtain ⟨hanswer, -⟩ := publish_spec hrules h.sound hopen message
      rw [if_pos hopen, if_neg Bool.false_ne_true, hanswer, h.count_eq]

/-- A subscription that was dropped is refused; another one receives what is due. -/
theorem perform_receive (hrules : reading.Rules) (h : Follows reading size recent bus log)
    {subscription : Nat} (hlt : subscription < bus.subscriptions.length) {pending : List α}
    (hpending : ∀ position, bus.position? reading subscription = some position →
      position ≤ log.stored.length ∧ pending = log.stored.drop position) :
    (bus.perform (.receive subscription)).1 =
      if log.isDropped subscription then .refused
      else .received (due size log.isClosed pending) := by
  have hposition := h.position subscription hlt
  cases hplace : bus.receiver? subscription with
  | none =>
      rw [position?, hplace, Option.map_none, Option.isSome_none, eq_comm,
        Bool.not_eq_false'] at hposition
      rw [perform, receive?, hplace, hposition]
      rfl
  | some receiver =>
      have hstands : bus.position? reading subscription = some (reading.position receiver) := by
        rw [position?, hplace, Option.map_some]
      rw [hstands, Option.isSome_some, eq_comm, Bool.not_eq_true'] at hposition
      obtain ⟨hle, rfl⟩ := hpending (reading.position receiver) hstands
      rw [perform_receive_of reading hplace, h.hear_eq hrules hle, hposition, if_neg Bool.false_ne_true]

end Follows

end VariantCatalog.Bus
