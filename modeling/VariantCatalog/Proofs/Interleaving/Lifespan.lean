/-
# Nothing outlives what it hangs below

As long as all clients carry out operations, what is committed stays coherent: a
bridge never outlives its variant or its value, nor a variant its root.  Archives
cascade from a snapshot that may be behind what is committed by then, but a row
comes with its keepers and under new keepers only, so a snapshot that has a keeper
has all that hangs below it, and a merge brings nothing back to life.

A client that makes calls of its own can break this: it may archive a value and
leave the bridges to it.
-/

import VariantCatalog.Proofs.Interleaving.Growth
import VariantCatalog.Proofs.Operation.Deed

namespace VariantCatalog.Memory

open Operation

/-- Whether a move is a step of an operation, or of none at all. -/
def Move.isService : Move → Bool
  | .arm _ => true
  | .enter _ _ _ => true
  | .advance _ => true
  | .leave _ => true
  | _ => false

/-- Among operations, nothing is committed but what one of them has made, with its last
move. -/
theorem System.committed_service_cases (system : System) {move : Move} (h : move.isService) :
    (system.move move).memory.committed = system.memory.committed ∨
      ∃ name origin operation tx, ∃ result : operation.Result, ∃ committed,
        move = .advance name ∧
          system.client name = some ⟨origin, .serving operation (.committing tx result)⟩ ∧
            system.memory.committed.merge tx = .ok committed ∧
              (system.move move).memory.committed = committed := by
  cases move with
  | arm point => exact .inl rfl
  | enter name limit operation => exact .inl rfl
  | leave name => exact .inl rfl
  | advance name =>
      rcases system.committed_advance_cases name with
        hsame | ⟨origin, operation, tx, result, committed, hmerged⟩
      · exact .inl hsame
      · exact .inr ⟨name, origin, operation, tx, result, committed, rfl, hmerged⟩
  | begin name => cases h
  | call name request => cases h
  | prepare name => cases h
  | apply name => cases h

/-- A client that carries out an operation, and began on coherent tables that what
is committed now has come of. -/
structure Client.Serves (client : Client) (tables : Tables) : Prop where
  serving : ∃ operation progress, client.standing = .serving operation progress
  coherent : client.origin.Coherent
  becomes : client.origin.Becomes tables
  foreruns : client.origin.Foreruns tables

/-- What is committed may go on to what becomes of it. -/
theorem Client.Serves.mono {client : Client} {tables after : Tables} (h : client.Serves tables)
    (hbecomes : tables.Becomes after) (hforeruns : tables.Foreruns after) :
    client.Serves after :=
  ⟨h.serving, h.coherent, h.becomes.trans hbecomes,
    h.foreruns.trans h.becomes hforeruns hbecomes⟩

namespace System

/-- What is committed is coherent, and all clients are about operations. -/
structure Coherent (system : System) : Prop where
  committed : system.memory.committed.tables.Coherent
  clients {name : Nat} {client : Client} : system.client name = some client →
    client.Serves system.memory.committed.tables

namespace Coherent

variable {system : System}

theorem start : System.start.Coherent where
  committed := Tables.coherent_empty
  clients hclient := nomatch hclient

/-- The transaction of an operation meets what is committed by then. -/
theorem meets {moves : List Move} {name : Nat} {origin : Tables} {operation : Operation}
    {tx : Transaction} {result : operation.Result} {committed : Committed}
    (h : (run moves).Coherent)
    (hclient : (run moves).client name = some ⟨origin, .serving operation (.committing tx result)⟩)
    (hmerge : (run moves).memory.committed.merge tx = .ok committed) :
    Meets origin (run moves).memory.committed tx committed ∧ tx.working.Coherent := by
  have hholds : (run moves).scene.draft name = some ⟨origin, tx⟩ := draft_scene hclient rfl
  have horderly := orderly_run moves
  have hserves := h.clients hclient
  obtain ⟨hwrites, heffect⟩ := keeps_run moves hclient
  have hdeparts : Departs origin tx := horderly.departs hholds
  obtain ⟨hworking, hrooted⟩ := (heffect.deed hwrites).upkeep hdeparts hserves.coherent
  exact ⟨⟨horderly.becomes hholds, hserves.foreruns, hdeparts, hrooted, horderly.fresh hholds,
    hmerge⟩, hworking⟩

/-- What is committed with a move of an operation is coherent, and has come of what was
committed before. -/
theorem comes {moves : List Move} (h : (run moves).Coherent) {move : Move}
    (hservice : move.isService) :
    ((run moves).move move).memory.committed.tables.Coherent ∧
      (run moves).memory.committed.tables.Becomes
          ((run moves).move move).memory.committed.tables ∧
        (run moves).memory.committed.tables.Foreruns
          ((run moves).move move).memory.committed.tables := by
  rcases (run moves).committed_service_cases hservice with
    hsame | ⟨name, origin, operation, tx, result, committed, rfl, hclient, hmerge, hmerged⟩
  · rw [hsame]
    exact ⟨h.committed, Tables.becomes_refl _, Tables.foreruns_refl _⟩
  · obtain ⟨hmeets, hworking⟩ := h.meets hclient hmerge
    rw [hmerged]
    exact ⟨hmeets.coherent_after h.committed hworking, hmeets.becomes_after,
      hmeets.foreruns_after⟩

/-- No step of an operation spoils what is committed. -/
theorem move {moves : List Move} (h : (run moves).Coherent) (move : Move)
    (hservice : move.isService) : ((run moves).move move).Coherent where
  committed := (h.comes hservice).1
  clients hclient := by
    obtain ⟨-, hbecomes, hforeruns⟩ := h.comes hservice
    cases arrives_move hclient with
    | stayed before => exact (h.clients before).mono hbecomes hforeruns
    | entered => exact ⟨⟨_, _, rfl⟩, h.committed, hbecomes, hforeruns⟩
    | advanced _ before =>
        have hserves := (h.clients before).mono hbecomes hforeruns
        exact ⟨⟨_, _, rfl⟩, hserves.coherent, hserves.becomes, hserves.foreruns⟩
    | began made => subst made; cases hservice
    | called made => subst made; cases hservice
    | prepared made => subst made; cases hservice

end Coherent

/-- **Nothing outlives what it hangs below.** Whatever operations are carried out at
once, every live bridge that is committed has a live variant and a live value, and
every live variant a live root. -/
theorem keepers_live_run (moves : List Move) (hservice : ∀ move ∈ moves, move.isService) :
    (∀ (id : Id .bridge) (bridge : VariantBridge),
      (run moves).memory.committed.tables.live? id = some bridge →
        (∃ product : Product,
          (run moves).memory.committed.tables.live? bridge.product = some product) ∧
        ∃ value : OptionValue,
          (run moves).memory.committed.tables.live? bridge.value = some value) ∧
    ∀ (id : Id .product) (product : Product),
      (run moves).memory.committed.tables.live? id = some product →
        ∃ root : ProductRoot,
          (run moves).memory.committed.tables.live? product.root = some root := by
  have hcoherent : (run moves).Coherent :=
    run_preserves Coherent.start (fun _ move hservice h => h.move move hservice) moves hservice
  constructor
  · intro id bridge hlive
    have hkeepers := hcoherent.committed.live hlive
    constructor
    · exact Option.isSome_iff_exists.mp (hkeepers ⟨.product, bridge.product⟩ List.mem_cons_self)
    · exact Option.isSome_iff_exists.mp
        (hkeepers ⟨.value, bridge.value⟩ (List.mem_cons_of_mem _ List.mem_cons_self))
  · intro id product hlive
    have hkeepers := hcoherent.committed.live hlive
    exact Option.isSome_iff_exists.mp (hkeepers ⟨.root, product.root⟩ List.mem_cons_self)

/-- The shirt is created, and then its root and its smaller size are archived at once.
The size comes first, so the root has to be left alone. -/
def shirtRace : List Move :=
  .enter 0 none (.commit shirt) :: List.replicate 14 (.advance 0) ++
    [.enter 1 none (.archiveRoot ⟨1⟩), .enter 2 none (.archiveValue ⟨1⟩)] ++
      List.replicate 6 (.advance 2) ++ List.replicate 20 (.advance 1)

theorem keepers_live_shirt :
    (run shirtRace).memory.committed.tables.bridges.rows.map Row.isLive = [false, true] ∧
      ∃ (bridge : VariantBridge) (product : Product) (value : OptionValue),
        (run shirtRace).memory.committed.tables.live? (⟨2⟩ : Id .bridge) = some bridge ∧
        (run shirtRace).memory.committed.tables.live? bridge.product = some product ∧
        (run shirtRace).memory.committed.tables.live? bridge.value = some value := by
  have hservice : ∀ move ∈ shirtRace, move.isService := by decide
  have hisSome : ((run shirtRace).memory.committed.tables.live? (⟨2⟩ : Id .bridge)).isSome := by
    decide +kernel
  obtain ⟨bridge, hbridge⟩ := Option.isSome_iff_exists.mp hisSome
  obtain ⟨⟨product, hproduct⟩, value, hvalue⟩ :=
    (keepers_live_run shirtRace hservice).1 ⟨2⟩ bridge hbridge
  exact ⟨by decide +kernel, bridge, product, value, hbridge, hproduct, hvalue⟩

end System

end VariantCatalog.Memory
