/-
# The numbers that a call draws

A row gets its number before anything is checked, so a call can draw a number and still
fail, and then nobody ever sees that number.  What a call draws is therefore more than what
it hands back.  `Session.built` lists the rows for which a call draws a number, in the order
of the draws and whether or not they are stored in the end; if the call succeeds, these are
the rows that it hands back (`created_of_run`).

`Issues` is what it means for sequences to hand out keys one after the other.  Nothing is
known of the sequences but this, and it is enough: what was handed out is what lies between
the first and the last reading (`Issues.mem_iff`), and every number is above those before it
(`Issues.ascending`).
-/

import VariantCatalog.Proofs.Memory.Answers

namespace VariantCatalog

open Memory Calendar

/-- One key comes before another, if they are of the same kind. -/
def RowKey.Precedes (first second : RowKey) : Prop :=
  first.kind = second.kind → first.id.number < second.id.number

/-- The rows that a reply hands back as created. -/
def Write.created : (change : Write) → change.Reply → List AnyRow
  | .createRoot _, root => [⟨.root, root⟩]
  | .createOption _, option => [⟨.option, option⟩]
  | .createValue _, value => [⟨.value, value⟩]
  | .createProduct _, product => [⟨.product, product⟩]
  | .createBridges _ _, bridges => AnyRow.ofRows .bridge bridges
  | _, _ => []

/-- The rows that a reply hands back as created. A query creates nothing. -/
def Call.created : (call : Call) → call.Reply → List AnyRow
  | .query _, _ => []
  | .write change, reply => change.created reply

namespace Memory

/-! ## Handing out keys -/

/-- Sequences hand out some keys, one after the other. -/
inductive Issues : Sequences → List RowKey → Sequences → Prop
  | none (sequences : Sequences) : Issues sequences [] sequences
  | next {sequences last : Sequences} {keys : List RowKey} (kind : EntityKind)
      (rest : Issues (sequences.advance kind) keys last) :
      Issues sequences (⟨kind, ⟨(sequences.advance kind).last kind⟩⟩ :: keys) last

namespace Issues

variable {first middle last : Sequences} {keys more : List RowKey}

theorem single (sequences : Sequences) (kind : EntityKind) :
    Issues sequences [⟨kind, ⟨(sequences.advance kind).last kind⟩⟩] (sequences.advance kind) :=
  .next kind (.none _)

theorem trans (h : Issues first keys middle) (hnext : Issues middle more last) :
    Issues first (keys ++ more) last := by
  induction h with
  | none sequences => exact hnext
  | next kind rest ih => exact .next kind (ih hnext)

theorem sequences_le (h : Issues first keys last) : first ≤ last := by
  induction h with
  | none sequences => exact Sequences.le_refl sequences
  | next kind rest ih => exact Sequences.le_trans (Sequences.le_advance _ kind) ih

/-- What was handed out is what lies between the two readings. -/
theorem mem_iff (h : Issues first keys last) {kind : EntityKind} {id : Id kind} :
    (⟨kind, id⟩ : RowKey) ∈ keys ↔ first.last kind < id.number ∧ id.number ≤ last.last kind := by
  induction h with
  | none sequences =>
      have hnever : ¬ (sequences.last kind < id.number ∧ id.number ≤ sequences.last kind) := by
        omega
      exact iff_of_false List.not_mem_nil hnever
  | @next sequences last keys other rest ih =>
      rw [List.mem_cons, ih]
      by_cases hkind : other = kind
      · subst hkind
        have hhead : (⟨other, id⟩ : RowKey) = ⟨other, ⟨(sequences.advance other).last other⟩⟩ ↔
            id.number = (sequences.advance other).last other := by
          rw [RowKey.mk.injEq, heq_eq_eq, ← Id.number_inj, and_iff_right rfl]
        have hle := rest.sequences_le other
        rw [hhead]
        rw [Sequences.last_advance] at hle ⊢
        omega
      · have hhead : (⟨kind, id⟩ : RowKey) ≠ ⟨other, ⟨(sequences.advance other).last other⟩⟩ :=
          fun heq => hkind (congrArg RowKey.kind heq).symm
        rw [or_iff_right hhead, Sequences.last_advance_of_ne sequences hkind]

/-- Every number that is handed out is above those of its kind that were before. -/
theorem ascending (h : Issues first keys last) : keys.Pairwise RowKey.Precedes := by
  induction h with
  | none sequences => exact List.Pairwise.nil
  | next kind rest ih =>
      refine List.pairwise_cons.mpr ⟨fun key hkey => ?_, ih⟩
      rintro rfl
      exact (rest.mem_iff.mp hkey).1

end Issues

/-- No key comes twice where every number is above those before it. -/
theorem nodup_of_precedes {keys : List RowKey} (h : keys.Pairwise RowKey.Precedes) :
    keys.Nodup := by
  apply h.imp
  rintro key _ hlt rfl
  exact Int.lt_irrefl _ (hlt rfl)

/-! ## What a call draws numbers for -/

namespace Session

/-- The bridges for which a batch draws numbers: one after the other, up to the first one that
does not fit. -/
def builtBridges (product : Id .product) (moment : Moment) :
    List (Id .value) → Session → List VariantBridge
  | [], _ => []
  | value :: rest, session =>
    let bridge : EntityKind.bridge.Row := ⟨session.nextId .bridge, product, value, .created moment⟩
    bridge ::
      match session.transaction.working.check bridge with
      | .error _ => []
      | .ok () => builtBridges product moment rest ((session.draw .bridge).write bridge .created)

/-- The rows for which a write draws a number if no fault strikes it. -/
def builtBy (session : Session) : Write → List AnyRow
  | .createRoot new => [⟨.root, rootRow new session.now (session.nextId .root)⟩]
  | .createOption new =>
    [⟨.option, ⟨session.nextId .option, new.root, new.name, [], .created session.now⟩⟩]
  | .createValue new =>
    [⟨.value, ⟨session.nextId .value, new.option, new.value, .created session.now⟩⟩]
  | .createProduct new => [⟨.product, productRow new session.now (session.nextId .product)⟩]
  | .createBridges product values =>
    AnyRow.ofRows .bridge (builtBridges product session.now values session.tick)
  | _ => []

/-- The rows for which a call draws a number, in the order of the draws. -/
def built (session : Session) : Call → List AnyRow
  | .query _ => []
  | .write change =>
    if session.registers.fault = some (faultPoint change) then [] else session.builtBy change

end Session

/-! ## Draws -/

/-- Between two sessions, numbers were drawn for some rows, and a row that is found then was
found before or is one of them, or has become of such a row. -/
structure Draws (before : Session) (rows : List AnyRow) (after : Session) : Prop where
  issues : Issues before.registers.sequences (rows.map AnyRow.key) after.registers.sequences
  found {kind : EntityKind} {id : Id kind} {row : kind.Row} :
    after.transaction.working.find? id = some row →
      (∃ old, before.transaction.working.find? id = some old ∧ Row.Succeeds old row) ∨
        ∃ first, (⟨kind, first⟩ : AnyRow) ∈ rows ∧ Row.Succeeds first row

namespace Draws

variable {before middle after : Session} {rows more : List AnyRow}

theorem none (hsequences : after.registers.sequences = before.registers.sequences)
    (hworking : after.transaction.working = before.transaction.working) :
    Draws before [] after where
  issues := by
    rw [hsequences]
    exact .none _
  found {kind id row} hrow := by
    rw [hworking] at hrow
    exact .inl ⟨row, hrow, Row.Succeeds.refl row⟩

theorem tick (session : Session) : Draws session [] session.tick := none rfl rfl

theorem trans (h : Draws before rows middle) (hnext : Draws middle more after) :
    Draws before (rows ++ more) after where
  issues := by
    rw [List.map_append]
    exact h.issues.trans hnext.issues
  found hrow := by
    rcases hnext.found hrow with ⟨old, hold, hsucceeds⟩ | ⟨first, hfirst, hsucceeds⟩
    · rcases h.found hold with ⟨older, holder, hbefore⟩ | ⟨first, hfirst, hbefore⟩
      · exact .inl ⟨older, holder, hbefore.trans hsucceeds⟩
      · exact .inr ⟨first, List.mem_append_left more hfirst, hbefore.trans hsucceeds⟩
    · exact .inr ⟨first, List.mem_append_right rows hfirst, hsucceeds⟩

/-- A number is drawn for a row that does not come to be stored. -/
theorem inVain (session : Session) {kind : EntityKind} {row : kind.Row}
    (hid : Row.id row = session.nextId kind) :
    Draws session [⟨kind, row⟩] (session.draw kind) where
  issues := by
    rw [List.map_singleton, AnyRow.key, hid]
    exact .single _ kind
  found {_ _ row} hrow := .inl ⟨row, hrow, Row.Succeeds.refl row⟩

/-- A number is drawn for a row that is stored. -/
theorem stored (session : Session) {kind : EntityKind} {row : kind.Row}
    (hid : Row.id row = session.nextId kind) :
    Draws session [⟨kind, row⟩] ((session.draw kind).write row .created) where
  issues := (inVain session hid).issues
  found {other id found} hfound := by
    rcases Tables.of_find?_put hfound with heq | ⟨_, hbefore⟩
    · exact .inr ⟨found, List.mem_singleton.mpr heq.symm, Row.Succeeds.refl found⟩
    · exact .inl ⟨found, hbefore, Row.Succeeds.refl found⟩

end Draws

/-- A stroke puts rows under their old numbers, or under one that it draws. -/
theorem Stroke.found {before after : Session} (h : Stroke before after) {kind : EntityKind}
    {id : Id kind} {row : kind.Row} (hrow : after.transaction.working.find? id = some row) :
    (∃ old, before.transaction.working.find? id = some old ∧ Row.Succeeds old row) ∨
      before.registers.sequences.last kind < after.registers.sequences.last kind := by
  have hkept : ∀ {other : EntityKind} {old new : other.Row} {action : Action},
      before.transaction.working.find? (Row.id new) = some old → Row.Succeeds old new →
        (before.transaction.write new action).working.find? id = some row →
          ∃ old, before.transaction.working.find? id = some old ∧ Row.Succeeds old row := by
    intro other old new action hold hsucceeds hfind
    rcases Tables.of_find?_put hfind with heq | ⟨_, hbefore⟩
    · cases heq
      rw [Tables.id_of_find? hfind] at hold
      exact ⟨old, hold, hsucceeds⟩
    · exact ⟨row, hbefore, Row.Succeeds.refl row⟩
  cases h with
  | tick => exact .inl ⟨row, hrow, Row.Succeeds.refl row⟩
  | draw => exact .inl ⟨row, hrow, Row.Succeeds.refl row⟩
  | @create other new hid =>
      rcases Tables.of_find?_put hrow with heq | ⟨_, hbefore⟩
      · cases heq
        refine .inr (lt_of_lt_of_eq ?_ (Sequences.last_advance _ kind).symm)
        omega
      · exact .inl ⟨row, hbefore, Row.Succeeds.refl row⟩
  | revise old new hfound _ _ hsucceeds => exact .inl (hkept hfound hsucceeds hrow)
  | @retire other old moment hfound =>
      refine .inl (hkept ?_ (Row.Succeeds.archive old moment) hrow)
      rw [Row.id_archive]
      exact hfound

theorem Strokes.found {before after : Session} (h : Strokes before after) {kind : EntityKind}
    {id : Id kind} {row : kind.Row} (hrow : after.transaction.working.find? id = some row) :
    (∃ old, before.transaction.working.find? id = some old ∧ Row.Succeeds old row) ∨
      before.registers.sequences.last kind < after.registers.sequences.last kind := by
  induction h generalizing row with
  | refl => exact .inl ⟨row, hrow, Row.Succeeds.refl row⟩
  | tail hbefore hlast ih =>
      rcases hlast.found hrow with ⟨old, hold, hsucceeds⟩ | hlt
      · rcases ih hold with ⟨older, holder, holderSucceeds⟩ | hlt
        · exact .inl ⟨older, holder, holderSucceeds.trans hsucceeds⟩
        · exact .inr (Int.lt_of_lt_of_le hlt (hlast.sequences_le kind))
      · exact .inr (Int.lt_of_le_of_lt (Strokes.sequences_le hbefore kind) hlt)

/-- Strokes that leave the sequences alone create nothing. -/
theorem Strokes.draws {before after : Session} (h : Strokes before after)
    (hsequences : after.registers.sequences = before.registers.sequences) :
    Draws before [] after where
  issues := by
    rw [hsequences]
    exact .none _
  found {kind id row} hrow := by
    rcases h.found hrow with hold | hlt
    · exact .inl hold
    · rw [hsequences] at hlt
      exact absurd hlt (Int.lt_irrefl _)

/-! ## What each call draws -/

section Run

variable (session : Session)

theorem draws_create (kind : EntityKind) (build : Id kind → kind.Row)
    (hid : ∀ id, Row.id (build id) = id) :
    Draws session [⟨kind, build (session.nextId kind)⟩]
      ((create kind build).run.run session).2 := by
  rw [run_create]
  cases session.transaction.working.check (build (session.nextId kind)) with
  | error error => exact Draws.inVain session (hid _)
  | ok _ => exact Draws.stored session (hid _)

theorem sequences_revise (kind : EntityKind) (id : Id kind)
    (edit : kind.Row → Moment → kind.Row) :
    ((revise kind id edit).run.run session).2.registers.sequences =
      session.registers.sequences := by
  rw [run_revise]
  cases session.transaction.working.live? id <;> rfl

theorem sequences_reviseChecked (kind : EntityKind) (id : Id kind)
    (edit : kind.Row → Moment → kind.Row) :
    ((reviseChecked kind id edit).run.run session).2.registers.sequences =
      session.registers.sequences := by
  rw [run_reviseChecked]
  cases session.transaction.working.live? id with
  | none => rfl
  | some row =>
      dsimp only
      cases session.transaction.working.check (edit row session.now) <;> rfl

theorem sequences_archive {kind : EntityKind} (id : Id kind) :
    ((archive id).run.run session).2.registers.sequences = session.registers.sequences := by
  rw [run_archive]
  cases session.transaction.working.live? id <;> rfl

end Run

/-- A batch stores the bridge to its first value, and goes on with the others if it fits. -/
theorem run_createBridges_cons (product : Id .product) (moment : Moment) (value : Id .value)
    (rest : List (Id .value)) (session : Session) :
    (createBridges product (value :: rest) moment).run.run session =
      let bridge : EntityKind.bridge.Row :=
        ⟨session.nextId .bridge, product, value, .created moment⟩
      match session.transaction.working.check bridge with
      | .error error => (.error error, session.draw .bridge)
      | .ok () =>
        match (createBridges product rest moment).run.run
            ((session.draw .bridge).write bridge .created) with
        | (.ok more, after) => (.ok (bridge :: more), after)
        | (.error error, after) => (.error error, after) := by
  rw [createBridges, List.mapM_cons, ← createBridges, run_bind, run_create]
  simp only [run_bind, run_pure]
  cases @Tables.check session.transaction.working .bridge
      ⟨session.nextId .bridge, product, value, .created moment⟩ with
  | error error => rfl
  | ok _ =>
      dsimp only
      generalize (createBridges product rest moment).run.run _ = answered
      obtain ⟨_ | more, after⟩ := answered <;> rfl

/-- A batch draws numbers for one bridge after the other, as far as it comes. -/
theorem draws_createBridges (product : Id .product) (moment : Moment) (values : List (Id .value))
    (session : Session) :
    Draws session (AnyRow.ofRows .bridge (Session.builtBridges product moment values session))
      ((createBridges product values moment).run.run session).2 := by
  induction values generalizing session with
  | nil => exact .none rfl rfl
  | cons value rest ih =>
      rw [run_createBridges_cons, Session.builtBridges]
      dsimp only
      cases @Tables.check session.transaction.working .bridge
          ⟨session.nextId .bridge, product, value, .created moment⟩ with
      | error error => exact .inVain session rfl
      | ok _ =>
          have hfirst := @Draws.stored session .bridge
            ⟨session.nextId .bridge, product, value, .created moment⟩ rfl
          have hboth := hfirst.trans (ih _)
          dsimp only
          generalize (createBridges product rest moment).run.run _ = answered at hboth ⊢
          obtain ⟨_ | more, after⟩ := answered <;> exact hboth

/-- A batch that succeeds hands back all bridges for which it has drawn numbers. -/
theorem eq_builtBridges {product : Id .product} {moment : Moment} {values : List (Id .value)}
    {session after : Session} {bridges : List VariantBridge}
    (h : (createBridges product values moment).run.run session = (.ok bridges, after)) :
    bridges = Session.builtBridges product moment values session := by
  induction values generalizing session bridges with
  | nil =>
      cases h
      rfl
  | cons value rest ih =>
      rw [run_createBridges_cons] at h
      rw [Session.builtBridges]
      dsimp only at h ⊢
      cases hcheck : @Tables.check session.transaction.working .bridge
          ⟨session.nextId .bridge, product, value, .created moment⟩ with
      | error error =>
          rw [hcheck] at h
          cases h
      | ok _ =>
          rw [hcheck] at h
          dsimp only at h ⊢
          split at h
          · next more last hrest =>
            cases h
            rw [ih hrest]
          · cases h

/-- What a write draws when no fault strikes it. -/
theorem draws_carryOut (change : Write) (session : Session) :
    Draws session (session.builtBy change) ((carryOut change).run.run session).2 := by
  have hstrokes := ByStrokes.carryOut change session
  have htick := Draws.tick session
  cases change with
  | createRoot new => exact htick.trans (draws_create session.tick .root _ fun _ => rfl)
  | createOption new =>
      exact htick.trans (draws_create session.tick .option
        (fun id => ⟨id, new.root, new.name, [], .created session.now⟩) fun _ => rfl)
  | createValue new =>
      exact htick.trans (draws_create session.tick .value
        (fun id => ⟨id, new.option, new.value, .created session.now⟩) fun _ => rfl)
  | createProduct new => exact htick.trans (draws_create session.tick .product _ fun _ => rfl)
  | createBridges product values =>
      exact htick.trans (draws_createBridges product session.now values session.tick)
  | updateRoot new => exact hstrokes.draws (sequences_revise session ..)
  | updateOption id name => exact hstrokes.draws (sequences_reviseChecked session ..)
  | updateValue id value => exact hstrokes.draws (sequences_reviseChecked session ..)
  | updateProduct new => exact hstrokes.draws (sequences_revise session ..)
  | updateBridge new => exact hstrokes.draws (sequences_reviseChecked session ..)
  | archiveRoot id => exact hstrokes.draws (sequences_archive session id)
  | archiveOption id => exact hstrokes.draws (sequences_archive session id)
  | archiveValue id => exact hstrokes.draws (sequences_archive session id)
  | archiveProduct id => exact hstrokes.draws (sequences_archive session id)
  | archiveValuesOf option => exact hstrokes.draws rfl
  | archiveBridgesOfProduct product => exact hstrokes.draws rfl
  | archiveBridgesOfValue value => exact hstrokes.draws rfl

/-- What a call draws, however it ends. -/
theorem draws_answerCall (call : Call) (session : Session) :
    Draws session (session.built call) ((answerCall call).run.run session).2 := by
  cases call with
  | query read => exact .none rfl rfl
  | write change =>
      rw [run_write, Session.built]
      split
      · exact .none rfl rfl
      · exact draws_carryOut change session

/-! ## What a call hands back -/

theorem eq_of_run_create {kind : EntityKind} {build : Id kind → kind.Row} {row : kind.Row}
    {session after : Session} (h : (create kind build).run.run session = (.ok row, after)) :
    row = build (session.nextId kind) := by
  rw [run_create] at h
  split at h
  · cases h
  · cases h
    rfl

theorem created_of_carryOut {change : Write} {session after : Session} {reply : change.Reply}
    (h : (carryOut change).run.run session = (.ok reply, after)) :
    change.created reply = session.builtBy change := by
  cases change with
  | createRoot new =>
      rw [carryOut, run_bind] at h
      rw [Write.created, eq_of_run_create h]
      rfl
  | createOption new =>
      rw [carryOut, run_bind] at h
      rw [Write.created, eq_of_run_create h]
      rfl
  | createValue new =>
      rw [carryOut, run_bind] at h
      rw [Write.created, eq_of_run_create h]
      rfl
  | createProduct new =>
      rw [carryOut, run_bind] at h
      rw [Write.created, eq_of_run_create h]
      rfl
  | createBridges product values =>
      rw [carryOut, run_bind] at h
      rw [Write.created, eq_builtBridges h]
      rfl
  | _ => rfl

/-- A call that succeeds hands back the rows for which it has drawn numbers. -/
theorem created_of_run {call : Call} {session after : Session} {reply : call.Reply}
    (h : (answerCall call).run.run session = (.ok reply, after)) :
    call.created reply = session.built call := by
  cases call with
  | query read => rfl
  | write change =>
      rw [run_write] at h
      rw [Session.built]
      split at h
      · cases h
      · next hcalm =>
        rw [if_neg hcalm]
        exact created_of_carryOut h

end Memory

end VariantCatalog
