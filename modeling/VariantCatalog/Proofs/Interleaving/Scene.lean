/-
# What happens to the drafts

Of the clients of a catalog, the committed tables only ever feel the transactions
that they hold.  A `Scene` is what is left of a system when all else is forgotten:
the memory, and for each client its transaction together with the tables that it
began on.  Five things can happen to a scene, and `events_move` shows that a move
of whatever kind is a sequence of them.  An invariant of the committed tables is
therefore proved event by event, five cases in all, and never move by move.
-/

import VariantCatalog.Proofs.Interleaving.System

namespace VariantCatalog.Memory

/-! ## Scenes -/

/-- A transaction that is under way, and the tables that it began on. -/
structure Draft where
  origin : Tables
  tx : Transaction

/-- The draft of a client, if it holds a transaction. -/
def Client.draft? (client : Client) : Option Draft :=
  client.standing.tx?.map (⟨client.origin, ·⟩)

/-- A catalog in memory and the drafts of its clients. -/
structure Scene where
  memory : Memory
  draft : Nat → Option Draft

namespace Scene

/-- The scene with another draft, or none, under a number. -/
def hold (scene : Scene) (name : Nat) (draft : Option Draft) : Scene :=
  { scene with draft := fun other => if other = name then draft else scene.draft other }

theorem draft_hold_self (scene : Scene) (name : Nat) (draft : Option Draft) :
    (scene.hold name draft).draft name = draft := if_pos rfl

theorem draft_hold_of_ne (scene : Scene) {name other : Nat} (draft : Option Draft)
    (h : other ≠ name) : (scene.hold name draft).draft other = scene.draft other := if_neg h

/-- Whoever has a draft then has been given it, or had it before. -/
theorem draft_hold_cases {scene : Scene} {name other : Nat} {new : Option Draft} {draft : Draft}
    (h : (scene.hold name new).draft other = some draft) :
    other = name ∧ new = some draft ∨ other ≠ name ∧ scene.draft other = some draft := by
  by_cases hother : other = name
  · rw [hother, draft_hold_self] at h
    exact .inl ⟨hother, h⟩
  · rw [draft_hold_of_ne scene new hother] at h
    exact .inr ⟨hother, h⟩

/-- Who is held again by what it held already is held as before. -/
theorem hold_of_draft_eq {scene : Scene} {name : Nat} {draft : Option Draft}
    (h : scene.draft name = draft) : scene.hold name draft = scene := by
  have hdraft : (scene.hold name draft).draft = scene.draft := by
    funext other
    by_cases hother : other = name
    · rw [hother, draft_hold_self, h]
    · rw [draft_hold_of_ne scene draft hother]
  cases scene
  exact congrArg (Scene.mk _) hdraft

theorem hold_hold (scene : Scene) (name : Nat) (first second : Option Draft) :
    (scene.hold name first).hold name second = scene.hold name second := by
  have hdraft : ((scene.hold name first).hold name second).draft =
      (scene.hold name second).draft := by
    funext other
    by_cases hother : other = name
    · rw [hother, draft_hold_self, draft_hold_self]
    · rw [draft_hold_of_ne _ second hother, draft_hold_of_ne _ first hother,
        draft_hold_of_ne _ second hother]
  exact congrArg (Scene.mk _) hdraft

/-- The scene with another memory. -/
def withMemory (scene : Scene) (memory : Memory) : Scene := { scene with memory }

/-- The scene after a client's session has gone on. The registers are everybody's;
the transaction is the client's own. -/
def carry (scene : Scene) (name : Nat) (origin : Tables) (session : Session) : Scene :=
  (scene.withMemory { scene.memory with registers := session.registers }).hold name
    (some ⟨origin, session.transaction⟩)

theorem carry_of_draft_eq {scene : Scene} {name : Nat} {origin : Tables} {tx : Transaction}
    (h : scene.draft name = some ⟨origin, tx⟩) :
    scene.carry name origin ⟨scene.memory.registers, tx⟩ = scene :=
  hold_of_draft_eq h

theorem carry_disarm {scene : Scene} {name : Nat} {origin : Tables} {tx : Transaction}
    (h : scene.draft name = some ⟨origin, tx⟩) :
    scene.carry name origin (Session.disarm ⟨scene.memory.registers, tx⟩) =
      scene.withMemory
        { scene.memory with registers := { scene.memory.registers with fault := none } } :=
  hold_of_draft_eq h

theorem carry_carry (scene : Scene) (name : Nat) (origin : Tables) (first second : Session) :
    (scene.carry name origin first).carry name origin second =
      scene.carry name origin second :=
  hold_hold (scene.withMemory { scene.memory with registers := second.registers }) name
    (some ⟨origin, first.transaction⟩) (some ⟨origin, second.transaction⟩)

end Scene

/-- What is left of a system when all but the drafts is forgotten. -/
def System.scene (system : System) : Scene :=
  ⟨system.memory, fun name => (system.client name).bind Client.draft?⟩

theorem System.scene_seat (system : System) (name : Nat) (client : Option Client) :
    (system.seat name client).scene = system.scene.hold name (client.bind Client.draft?) := by
  have hdraft : (system.seat name client).scene.draft =
      (system.scene.hold name (client.bind Client.draft?)).draft := by
    funext other
    by_cases hother : other = name
    · rw [hother, Scene.draft_hold_self]
      exact congrArg (Option.bind · Client.draft?) (if_pos rfl)
    · rw [Scene.draft_hold_of_ne _ _ hother]
      exact congrArg (Option.bind · Client.draft?) (if_neg hother)
  exact congrArg (Scene.mk _) hdraft

theorem System.draft_scene {system : System} {name : Nat} {origin : Tables}
    {standing : Standing} {tx : Transaction}
    (h : system.client name = some ⟨origin, standing⟩) (htx : standing.tx? = some tx) :
    system.scene.draft name = some ⟨origin, tx⟩ := by
  show (system.client name).bind Client.draft? = _
  rw [h, Option.bind_some, Client.draft?, htx, Option.map_some]

/-! ## Events -/

/-- One thing that can happen to a scene. -/
inductive Event : Scene → Scene → Prop
  /-- A fault is armed, or strikes. -/
  | turn (scene : Scene) (fault : Option FaultPoint) :
      Event scene
        (scene.withMemory { scene.memory with registers := { scene.memory.registers with fault } })
  /-- A draft is begun on what is committed. -/
  | begin (scene : Scene) (name : Nat) :
      Event scene
        (scene.hold name (some ⟨scene.memory.committed.tables, scene.memory.begin⟩))
  /-- A stroke is made on a draft. -/
  | stroke (scene : Scene) (name : Nat) (origin : Tables) (tx : Transaction) (after : Session)
      (holds : scene.draft name = some ⟨origin, tx⟩)
      (stroke : Stroke ⟨scene.memory.registers, tx⟩ after) :
      Event scene (scene.carry name origin after)
  /-- A draft is given up. -/
  | leave (scene : Scene) (name : Nat) : Event scene (scene.hold name none)
  /-- A draft is merged into what is committed. -/
  | merge (scene : Scene) (name : Nat) (origin : Tables) (tx : Transaction)
      (committed : Committed) (holds : scene.draft name = some ⟨origin, tx⟩)
      (merged : scene.memory.committed.merge tx = .ok committed) :
      Event scene ((scene.withMemory { scene.memory with committed }).hold name none)

/-- Any number of events. -/
def Events : Scene → Scene → Prop := Relation.ReflTransGen Event

namespace Events

theorem refl (scene : Scene) : Events scene scene := Relation.ReflTransGen.refl

theorem single {scene after : Scene} (h : Event scene after) : Events scene after :=
  Relation.ReflTransGen.single h

theorem trans {first second third : Scene} (h : Events first second)
    (hnext : Events second third) : Events first third :=
  Relation.ReflTransGen.trans h hnext

/-- What every event keeps, a sequence of events keeps. -/
theorem preserves {invariant : Scene → Prop}
    (hevent : ∀ {scene after}, Event scene after → invariant scene → invariant after)
    {scene after : Scene} (h : Events scene after) (hinvariant : invariant scene) :
    invariant after := by
  induction h with
  | refl => exact hinvariant
  | tail _ hlast ih => exact hevent hlast ih

/-- Strokes on a draft are events one by one. -/
theorem carry {scene : Scene} {name : Nat} {origin : Tables} {tx : Transaction}
    {after : Session} (holds : scene.draft name = some ⟨origin, tx⟩)
    (h : Strokes ⟨scene.memory.registers, tx⟩ after) :
    Events scene (scene.carry name origin after) := by
  induction h with
  | refl =>
      rw [Scene.carry_of_draft_eq holds]
      exact refl scene
  | @tail middle last _ hlast ih =>
      apply ih.trans
      have hevent := Event.stroke (scene.carry name origin middle) name origin
        middle.transaction last (Scene.draft_hold_self _ _ _) hlast
      rw [Scene.carry_carry] at hevent
      exact single hevent

end Events

/-! ## Every move is a sequence of events -/

namespace Events

variable {scene : Scene} {name : Nat} {origin : Tables} {tx : Transaction}

/-- To answer a call of a draft, whatever the answer is, is to spend a fault, or to make
strokes on it. -/
theorem answer (holds : scene.draft name = some ⟨origin, tx⟩) (request : Call) :
    Events scene
      ((scene.withMemory (scene.memory.answer request tx).2.2).hold name
        (some ⟨origin, (scene.memory.answer request tx).2.1⟩)) := by
  rw [Memory.answer]
  rcases strokes_answerCall request ⟨scene.memory.registers, tx⟩ with ⟨error, hstruck⟩ | hstrokes
  · rw [hstruck]
    show Events scene (scene.carry name origin (Session.disarm ⟨scene.memory.registers, tx⟩))
    rw [Scene.carry_disarm holds]
    exact single (.turn scene none)
  · exact carry holds hstrokes

/-- To prepare a commit is to spend a fault, or nothing. -/
theorem prepare (scene : Scene) : Events scene (scene.withMemory scene.memory.prepare.2) := by
  rw [prepare_eq]
  split
  · exact single (.turn scene none)
  · exact refl scene

/-- To apply a commit is to merge the draft, or to give it up. -/
theorem apply (holds : scene.draft name = some ⟨origin, tx⟩) :
    Events scene ((scene.withMemory (scene.memory.apply tx).2).hold name none) := by
  rw [Memory.apply]
  cases hmerge : scene.memory.committed.merge tx with
  | error error => exact single (.leave scene name)
  | ok committed => exact single (.merge scene name origin tx committed holds hmerge)

/-- Whatever an operation does next, it does by events on its own draft. -/
theorem advance {operation : Operation} (progress : Progress operation)
    (holds : scene.draft name = progress.tx?.map (⟨origin, ·⟩)) :
    Events scene
      ((scene.withMemory (progress.advance scene.memory).2).hold name
        ((progress.advance scene.memory).1.tx?.map (⟨origin, ·⟩))) := by
  cases progress with
  | working tx rest =>
      cases rest with
      | done result =>
          simp only [Progress.advance]
          split
          · exact single (.leave scene name)
          · have hprepare := prepare scene
            generalize scene.memory.prepare = prepared at hprepare ⊢
            obtain ⟨_ | _, memory⟩ := prepared
            · exact hprepare.trans (single (.leave _ name))
            · have hholds : (scene.withMemory memory).draft name = some ⟨origin, tx⟩ := holds
              exact (Scene.hold_of_draft_eq hholds).symm ▸ hprepare
      | refuse error => exact single (.leave scene name)
      | call request next =>
          have hanswer := answer holds request
          simp only [Progress.advance]
          generalize scene.memory.answer request tx = answered at hanswer ⊢
          obtain ⟨_ | reply, later, memory⟩ := answered
          · have hleave := hanswer.trans (single (.leave _ name))
            rwa [Scene.hold_hold] at hleave
          · exact hanswer
  | committing tx result =>
      have happly := apply holds
      simp only [Progress.advance]
      generalize scene.memory.apply tx = applied at happly ⊢
      obtain ⟨_ | _, memory⟩ := applied <;> exact happly
  | ended outcome => exact (Scene.hold_of_draft_eq holds).symm ▸ refl scene

end Events

namespace System

/-- A move of whatever kind is a sequence of events. -/
theorem events_move (system : System) (move : Move) :
    Events system.scene (system.move move).scene := by
  cases move with
  | arm point =>
      exact Events.single (.turn system.scene (some point))
  | begin name =>
      rw [System.move, scene_seat]
      exact Events.single (.begin system.scene name)
  | call name request =>
      simp only [System.move]
      split
      · next origin tx hclient =>
        rw [scene_seat]
        exact Events.answer (draft_scene hclient rfl) request
      · exact Events.refl _
  | prepare name =>
      simp only [System.move]
      split
      · next origin tx hclient =>
        have hprepare := Events.prepare system.scene
        have holds := draft_scene hclient rfl
        change Events _ (system.scene.withMemory system.memory.prepare.2) at hprepare
        generalize system.memory.prepare = prepared at hprepare ⊢
        obtain ⟨_ | _, memory⟩ := prepared
        · exact scene_seat _ name none ▸ hprepare.trans (Events.single (.leave _ name))
        · have hheld : (system.scene.withMemory memory).draft name = some ⟨origin, tx⟩ := holds
          dsimp only
          rw [scene_seat]
          exact (Scene.hold_of_draft_eq hheld).symm ▸ hprepare
      · exact Events.refl _
  | apply name =>
      simp only [System.move]
      split
      · next origin tx hclient =>
        rw [scene_seat]
        exact Events.apply (draft_scene hclient rfl)
      · exact Events.refl _
  | enter name limit operation =>
      rw [System.move, scene_seat, Progress.enter]
      cases operation.screen limit with
      | error error => exact Events.single (.leave system.scene name)
      | ok _ => exact Events.single (.begin system.scene name)
  | advance name =>
      simp only [System.move]
      split
      · next origin operation progress hclient =>
        rw [scene_seat]
        apply Events.advance progress
        show (system.client name).bind Client.draft? = _
        rw [hclient]
        rfl
      · exact Events.refl _
  | leave name =>
      rw [System.move, scene_seat]
      exact Events.single (.leave system.scene name)

/-- What holds of the scene at the start and outlasts every event holds in the
end. -/
theorem scene_run_preserves {invariant : Scene → Prop} (hstart : invariant start.scene)
    (hevent : ∀ {scene after}, Event scene after → invariant scene → invariant after)
    (moves : List Move) : invariant (run moves).scene := by
  refine @run_preserves (fun _ => True) (fun system => invariant system.scene) hstart ?_ moves
    fun _ _ => trivial
  intro done move _ hinvariant
  exact Events.preserves hevent ((run done).events_move move) hinvariant

end System

end VariantCatalog.Memory
