/-
# From a body to its commit

Nobody else writes to the tables of a transaction, so whatever strokes keep, a body keeps
that runs on a session: at its end the session is as sound as at its beginning, and its
transaction departs from the tables that it began on, of which it spares what was archived.
Committed onto those same tables, a transaction leaves just what it has worked out, so
nothing can be wrong with it there that was not wrong before (`Departs.merge_eq_ok`).
-/

import VariantCatalog.Proofs.Memory.Fitting
import VariantCatalog.Proofs.Memory.Outcomes

namespace VariantCatalog.Memory

variable {α : Type} {session after : Session} {origin : Tables}

/-! ## What was archived before -/

/-- Of what it began on, a transaction has written over nothing but live rows. -/
def Spares (origin : Tables) (tx : Transaction) : Prop :=
  ∀ entry ∈ tx.journal, ∀ row, origin.find? entry.id = some row → Row.isLive row

theorem spares_nil (origin working : Tables) : Spares origin ⟨working, []⟩ :=
  fun _ h => absurd h List.not_mem_nil

/-- A row that is live in the working tables was live when the transaction began, if it was
there. -/
theorem Spares.write {tx : Transaction} (h : Spares origin tx) (hdeparts : Departs origin tx)
    {kind : EntityKind} {row : kind.Row} (action : Action)
    (hlive : ∀ old, tx.working.find? (Row.id row) = some old → Row.isLive old) :
    Spares origin (tx.write row action) := by
  intro entry hentry first hfirst
  rcases Transaction.mem_journal_write.mp hentry with hbefore | rfl
  · exact h entry hbefore first hfirst
  · obtain ⟨later, hlater, hsucceeds⟩ := hdeparts.becomes hfirst
    exact hsucceeds.isLive_of_isLive (hlive later hlater)

theorem Stroke.spares (h : Stroke session after)
    (hdrawn : session.transaction.working.Drawn session.registers.sequences)
    (hdeparts : Departs origin session.transaction) (hspares : Spares origin session.transaction) :
    Spares origin after.transaction := by
  cases h with
  | tick => exact hspares
  | draw => exact hspares
  | @create kind row hid =>
      refine hspares.write hdeparts _ fun old hold => ?_
      rw [hid, find?_nextId hdrawn kind] at hold
      cases hold
  | revise old new hfound hlive =>
      refine hspares.write hdeparts _ fun found heq => ?_
      rw [hfound] at heq
      cases heq
      exact hlive
  | retire row moment hfound hlive =>
      refine hspares.write hdeparts _ fun found heq => ?_
      rw [Row.id_archive, hfound] at heq
      cases heq
      exact hlive

/-! ## What strokes keep -/

theorem Session.Sound.strokes (h : session.Sound) (hstrokes : Strokes session after) :
    after.Sound := by
  induction hstrokes with
  | refl => exact h
  | tail hearlier hlast ih =>
      exact ⟨hlast.intact ih.intact, hlast.drawn ih.drawn,
        (Strokes.fault_eq (hearlier.tail hlast)).trans h.calm⟩

theorem Session.Sound.departs (h : session.Sound) (hstrokes : Strokes session after)
    (hdeparts : Departs origin session.transaction) : Departs origin after.transaction := by
  induction hstrokes with
  | refl => exact hdeparts
  | tail hearlier hlast ih => exact hlast.departs (h.strokes hearlier).drawn ih

theorem Session.Sound.spares (h : session.Sound) (hstrokes : Strokes session after)
    (hdeparts : Departs origin session.transaction) (hspares : Spares origin session.transaction) :
    Spares origin after.transaction := by
  induction hstrokes with
  | refl => exact hspares
  | tail hearlier hlast ih =>
      exact hlast.spares (h.strokes hearlier).drawn (h.departs hearlier hdeparts) ih

/-! ## Programs on a session -/

/-- What a call that has a reply did, it did by strokes. -/
theorem strokes_of_run {request : Call} {reply : request.Reply}
    (h : (answerCall request).run.run session = (.ok reply, after)) : Strokes session after := by
  rcases strokes_answerCall request session with ⟨error, hstruck⟩ | hstrokes
  · rw [h] at hstruck
    cases hstruck
  · rwa [h] at hstrokes

/-- So whatever a program does it does by strokes. -/
theorem concludes_strokes {program : Program α} {ok : α → Session → Prop}
    {bad : CatalogError → Prop}
    (h : program.Concludes (fun request before => (answerCall request).run.run before) ok bad
      session) :
    program.Concludes (fun request before => (answerCall request).run.run before)
      (fun result after => ok result after ∧ Strokes session after) bad session := by
  induction program generalizing session with
  | done result => exact ⟨h, Strokes.refl session⟩
  | refuse error => exact h
  | call request rest ih =>
      rw [Program.Concludes] at h ⊢
      cases hrun : (answerCall request).run.run session with
      | mk outcome middle =>
          rw [hrun] at h
          cases outcome with
          | error error => exact h
          | ok reply =>
              apply (ih reply h).mono
              intro result after hafter
              exact ⟨hafter.1, (strokes_of_run hrun).trans hafter.2⟩

/-- Where no fault is armed, a program that nobody disturbs concludes as it withstands
others. -/
theorem Withstands.concludes {program : Program α} {ok : α → Session → Prop}
    {reason : CatalogError → Prop} (h : Withstands True ok reason program session)
    (hcalm : session.registers.fault = none) :
    program.Concludes (fun request before => (answerCall request).run.run before) ok reason
      session := by
  apply Program.Endures.concludes (fun before => before.registers.fault = none) h hcalm
  · intro request before hbefore
    exact ⟨before.registers, fun _ => hbefore, rfl⟩
  · intro request before reply after hbefore hrun
    exact (strokes_of_run hrun).fault_eq.trans hbefore
  · rintro error (hreason | ⟨hnot, _⟩)
    · exact hreason
    · exact absurd trivial hnot

/-! ## Commits onto the same tables -/

/-- Merged right where it began, a transaction leaves its working tables. -/
theorem Departs.overlay_eq {tx : Transaction} (h : Departs origin tx) :
    Committed.overlay origin tx = tx.working := by
  apply Tables.ext_find?
  intro kind id
  rw [Committed.find?_overlay]
  split
  · next hkey =>
    obtain ⟨row, hrow⟩ := Option.isSome_iff_exists.mp (h.present hkey)
    rw [hrow]
    rfl
  · next hkey => exact (h.untouched hkey).symm

/-- There it can be merged, whatever it has written, as all that a merge checks has been
checked before. -/
theorem Departs.merge_eq_ok {committed : Committed} {tx : Transaction}
    (h : Departs committed.tables tx) (hintact : tx.working.Intact)
    (hspares : Spares committed.tables tx) :
    committed.merge tx = .ok ⟨tx.working, committed.journal ++ tx.journal⟩ := by
  refine Committed.merge_eq_ok.mpr ⟨fun entry hentry => ?_, fun entry _ => ?_, ?_⟩
  · exact Committed.checkFresh_eq_ok.mpr fun _ => hspares entry hentry
  · rw [h.overlay_eq]
    exact Committed.checkEntry_eq_ok.mpr fun row hrow => hintact.check_eq_ok hrow
  · rw [h.overlay_eq]

end VariantCatalog.Memory
