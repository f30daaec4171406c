/-
# Drafts descend from what is committed

While a client works, the committed tables move on.  What they keep to is that
something becomes of each row that the client began on, and that nobody else ever
uses a number that the client has drawn.  So when the client commits, the rows that
it created are new, and the rows that it wrote over are those that it meant.
-/

import VariantCatalog.Proofs.Interleaving.Scene
import VariantCatalog.Proofs.Memory.Descent

namespace VariantCatalog.Memory

/-- How the drafts of a scene stand to what is committed and to each other. -/
structure Scene.Orderly (scene : Scene) : Prop where
  /-- Committed rows have numbers that were drawn. -/
  drawn : scene.memory.committed.tables.Drawn scene.memory.registers.sequences
  /-- So have the rows of a draft. -/
  draftDrawn {name : Nat} {draft : Draft} :
    scene.draft name = some draft → draft.tx.working.Drawn scene.memory.registers.sequences
  /-- Of what a draft began on, something has become. -/
  becomes {name : Nat} {draft : Draft} :
    scene.draft name = some draft → draft.origin.Becomes scene.memory.committed.tables
  /-- The journal of a draft tells how it differs from what it began on. -/
  departs {name : Nat} {draft : Draft} :
    scene.draft name = some draft → Departs draft.origin draft.tx
  /-- What a draft has created is not committed. -/
  fresh {name : Nat} {draft : Draft} {kind : EntityKind} {id : Id kind} :
    scene.draft name = some draft → (⟨kind, id, .created⟩ : Entry) ∈ draft.tx.journal →
      scene.memory.committed.tables.find? id = none
  /-- Nor has any other draft created it. -/
  apart {first second : Nat} {mine theirs : Draft} {kind : EntityKind} {id : Id kind} :
    scene.draft first = some mine → scene.draft second = some theirs → first ≠ second →
      (⟨kind, id, .created⟩ : Entry) ∈ mine.tx.journal →
        (⟨kind, id, .created⟩ : Entry) ∉ theirs.tx.journal

namespace Scene

variable {scene : Scene}

/-- A client may take up a draft that stands in order to everything else. -/
theorem Orderly.hold (h : scene.Orderly) (name : Nat) (new : Draft)
    (hdrawn : new.tx.working.Drawn scene.memory.registers.sequences)
    (hbecomes : new.origin.Becomes scene.memory.committed.tables)
    (hdeparts : Departs new.origin new.tx)
    (hfresh : ∀ {kind : EntityKind} {id : Id kind},
      (⟨kind, id, .created⟩ : Entry) ∈ new.tx.journal →
        scene.memory.committed.tables.find? id = none)
    (hapart : ∀ {other : Nat} {theirs : Draft} {kind : EntityKind} {id : Id kind},
      scene.draft other = some theirs → other ≠ name →
        (⟨kind, id, .created⟩ : Entry) ∈ new.tx.journal →
          (⟨kind, id, .created⟩ : Entry) ∉ theirs.tx.journal) :
    (scene.hold name (some new)).Orderly where
  drawn := h.drawn
  draftDrawn hholds := by
    rcases draft_hold_cases hholds with ⟨_, heq⟩ | ⟨_, hbefore⟩
    · cases heq
      exact hdrawn
    · exact h.draftDrawn hbefore
  becomes hholds := by
    rcases draft_hold_cases hholds with ⟨_, heq⟩ | ⟨_, hbefore⟩
    · cases heq
      exact hbecomes
    · exact h.becomes hbefore
  departs hholds := by
    rcases draft_hold_cases hholds with ⟨_, heq⟩ | ⟨_, hbefore⟩
    · cases heq
      exact hdeparts
    · exact h.departs hbefore
  fresh hholds hcreated := by
    rcases draft_hold_cases hholds with ⟨_, heq⟩ | ⟨_, hbefore⟩
    · cases heq
      exact hfresh hcreated
    · exact h.fresh hbefore hcreated
  apart hmine htheirs hne hcreated := by
    rcases draft_hold_cases hmine with ⟨hfirst, heq⟩ | ⟨hfirst, hmine⟩
    · cases heq
      rcases draft_hold_cases htheirs with ⟨hsecond, _⟩ | ⟨hsecond, htheirs⟩
      · exact absurd (hfirst.trans hsecond.symm) hne
      · exact hapart htheirs hsecond hcreated
    · rcases draft_hold_cases htheirs with ⟨_, heq⟩ | ⟨_, htheirs⟩
      · cases heq
        exact fun hboth => hapart hmine hfirst hboth hcreated
      · exact h.apart hmine htheirs hne hcreated

/-- A draft that is left when another was given up was there, and not under that
number. -/
theorem draft_of_release {name other : Nat} {draft : Draft}
    (h : (scene.hold name none).draft other = some draft) :
    other ≠ name ∧ scene.draft other = some draft :=
  (draft_hold_cases h).resolve_left fun heq => nomatch heq.2

/-- A client may give up its draft, and nothing depends on it. -/
theorem Orderly.release (h : scene.Orderly) (name : Nat) : (scene.hold name none).Orderly where
  drawn := h.drawn
  draftDrawn hholds := h.draftDrawn (draft_of_release hholds).2
  becomes hholds := h.becomes (draft_of_release hholds).2
  departs hholds := h.departs (draft_of_release hholds).2
  fresh hholds := h.fresh (draft_of_release hholds).2
  apart hmine htheirs := h.apart (draft_of_release hmine).2 (draft_of_release htheirs).2

/-- More numbers may be drawn. -/
theorem Orderly.advance (h : scene.Orderly) {registers : Registers}
    (hle : scene.memory.registers.sequences ≤ registers.sequences) :
    (scene.withMemory { scene.memory with registers }).Orderly where
  drawn := h.drawn.mono hle
  draftDrawn hholds := (h.draftDrawn hholds).mono hle
  becomes := h.becomes
  departs := h.departs
  fresh := h.fresh
  apart := h.apart

end Scene

/-- A stroke draws new numbers only, so its draft stays apart from all others. -/
theorem Scene.Orderly.carry {scene : Scene} (h : scene.Orderly) {name : Nat} {origin : Tables}
    {tx : Transaction} {after : Session} (holds : scene.draft name = some ⟨origin, tx⟩)
    (hstroke : Stroke ⟨scene.memory.registers, tx⟩ after) :
    (scene.carry name origin after).Orderly := by
  have hdrawn := h.draftDrawn holds
  have hbecomes := h.becomes holds
  refine (h.advance hstroke.sequences_le).hold name ⟨origin, after.transaction⟩
    (hstroke.drawn hdrawn) hbecomes (hstroke.departs hdrawn (h.departs holds)) ?_ ?_
  · intro kind id hcreated
    rcases hstroke.created hcreated with hbefore | hlt
    · exact h.fresh holds hbefore
    · exact h.drawn.find?_eq_none hlt
  · intro other theirs kind id htheirs hne hcreated
    rcases hstroke.created hcreated with hbefore | hlt
    · exact h.apart holds htheirs hne.symm hbefore
    · -- What the others have created has a number that was drawn before.
      intro hboth
      have hsome := ((h.departs htheirs).created.mp hboth).2
      rw [(h.draftDrawn htheirs).find?_eq_none hlt] at hsome
      cases hsome

/-- A merge writes over rows that were there, and adds rows that nobody else has
created. -/
theorem Scene.Orderly.merge {scene : Scene} (h : scene.Orderly) {name : Nat} {origin : Tables}
    {tx : Transaction} {committed : Committed} (holds : scene.draft name = some ⟨origin, tx⟩)
    (hmerge : scene.memory.committed.merge tx = .ok committed) :
    ((scene.withMemory { scene.memory with committed }).hold name none).Orderly := by
  have hbecomes : scene.memory.committed.tables.Becomes committed.tables :=
    Committed.becomes_merge (h.becomes holds) (h.departs holds) (h.fresh holds) hmerge
  have hothers := h.release name
  refine ⟨Committed.drawn_merge h.drawn (h.draftDrawn holds) hmerge,
    fun hholds => hothers.draftDrawn hholds, fun hholds => (hothers.becomes hholds).trans hbecomes,
    fun hholds => hothers.departs hholds, fun {other draft kind id} hholds hcreated => ?_,
    fun hmine htheirs => hothers.apart hmine htheirs⟩
  rw [Option.eq_none_iff_forall_ne_some]
  intro row hfind
  -- The drafts that remain are those of the others.
  obtain ⟨hne, htheirs⟩ := draft_of_release hholds
  have hmine := Committed.created_of_merge (h.becomes holds) (h.departs holds) hmerge
    (h.fresh htheirs hcreated) (Option.isSome_of_eq_some hfind)
  exact h.apart holds htheirs hne.symm hmine hcreated

/-- No event disturbs the order. -/
theorem Event.orderly {scene after : Scene} (h : Event scene after) (horderly : scene.Orderly) :
    after.Orderly := by
  cases h with
  | turn fault => exact horderly.advance (Sequences.le_refl _)
  | begin name =>
      exact horderly.hold name _ horderly.drawn (Tables.becomes_refl _) (Departs.refl _)
        (fun hcreated => absurd hcreated List.not_mem_nil)
        fun _ _ hcreated => absurd hcreated List.not_mem_nil
  | stroke name origin tx later holds hstroke => exact horderly.carry holds hstroke
  | leave name => exact horderly.release name
  | merge name origin tx committed holds hmerge => exact horderly.merge holds hmerge

/-- Whatever happened, all drafts are in order. -/
theorem System.orderly_run (moves : List Move) : (run moves).scene.Orderly := by
  refine scene_run_preserves ?_ Event.orderly moves
  refine ⟨fun kind id row hfind => ?_, nofun, nofun, nofun, nofun, nofun⟩
  have hempty : (Tables.empty).find? id = some row := hfind
  rw [Tables.find?_empty] at hempty
  cases hempty

end VariantCatalog.Memory
