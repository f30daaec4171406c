/-
# Commits that nobody came before

A commit does not put the working tables of its transaction in place of what is committed.
It goes through the journal, copies the rows that it names, and checks each of them again.
If nobody has committed since the transaction began, all this comes to the same: the
working tables are what is committed then, no check fails, and the journal is what has been
added (`commit_installs`).

Of the calls that led there nothing is assumed.  Those that failed have left the working
tables as they were, or have drawn a number that is missing now, and what the others were
allowed to write, a commit allows as well: it checks no more than they did, and no row that
was archived when the transaction began has let itself be written over.
-/

import VariantCatalog.Proofs.Interleaving.Integrity
import VariantCatalog.Proofs.Interleaving.Order
import VariantCatalog.Proofs.Interleaving.Growth
import VariantCatalog.Proofs.Memory.Passage

namespace VariantCatalog

open Memory

/-- The catalog where a transaction has been installed: what it has worked out is committed. -/
def Memory.install (memory : Memory) (tx : Transaction) : Memory :=
  { memory with committed := ⟨tx.working, memory.committed.journal ++ tx.journal⟩ }

namespace Memory

/-! ## No draft writes over what was archived -/

/-- Of what they began on, all drafts have written over nothing but live rows. -/
def Scene.Sparing (scene : Scene) : Prop :=
  ∀ ⦃name : Nat⦄ ⦃draft : Draft⦄, scene.draft name = some draft → Spares draft.origin draft.tx

theorem Scene.Sparing.hold {scene : Scene} (h : scene.Sparing) (name : Nat) (new : Option Draft)
    (hnew : ∀ draft, new = some draft → Spares draft.origin draft.tx) :
    (scene.hold name new).Sparing := by
  intro other draft hholds
  rcases draft_hold_cases hholds with ⟨_, heq⟩ | ⟨_, hbefore⟩
  · exact hnew draft heq
  · exact h hbefore

theorem Event.sparing {scene after : Scene} (h : Event scene after) (horderly : scene.Orderly)
    (hsparing : scene.Sparing) : after.Sparing := by
  cases h with
  | turn fault => exact hsparing
  | begin name =>
      refine hsparing.hold name _ fun draft hdraft => ?_
      cases hdraft
      exact spares_nil _ _
  | stroke name origin tx later holds hstroke =>
      have hspares := hstroke.spares (horderly.draftDrawn holds) (horderly.departs holds)
        (hsparing holds)
      have hrecalled : (scene.withMemory
          { scene.memory with registers := later.registers }).Sparing := hsparing
      refine hrecalled.hold name _ fun draft hdraft => ?_
      cases hdraft
      exact hspares
  | leave name => exact hsparing.hold name none nofun
  | merge name origin tx committed holds =>
      have hrecalled : (scene.withMemory { scene.memory with committed }).Sparing := hsparing
      exact hrecalled.hold name none nofun

/-- Whether a move can change what is committed. -/
def Move.commits : Move → Bool
  | .apply _ => true
  | .advance _ => true
  | _ => false

namespace System

theorem sparing_run (moves : List Move) : (run moves).scene.Sparing := by
  have hboth : (run moves).scene.Orderly ∧ (run moves).scene.Sparing := by
    refine @scene_run_preserves (fun scene => scene.Orderly ∧ scene.Sparing) ?_ ?_ moves
    · exact ⟨orderly_run [], nofun⟩
    · exact fun hevent h => ⟨hevent.orderly h.1, hevent.sparing h.1 h.2⟩
  exact hboth.2

/-! ## Commits -/

/-- **A commit that nobody came before installs what its transaction has worked out.**
Whatever calls a client has made within its transaction, those that failed among them, if by
then what is committed is what the transaction began on and no fault is armed against the
commit, then the commit succeeds, its working tables are committed, and its journal is added to
the journal. If the first half of the commit was passed before, no fault can strike it. -/
theorem commit_installs {moves : List Move} {name : Nat} {client : Client} {tx : Transaction}
    (hclient : (run moves).client name = some client) (htx : client.standing.tx? = some tx)
    (hquiet : (run moves).memory.committed.tables = client.origin) :
    (run moves).memory.apply tx = (.ok (), (run moves).memory.install tx) ∧
      ((run moves).memory.registers.fault ≠ some .commit →
        store.commit tx (run moves).memory = (.ok (), (run moves).memory.install tx)) := by
  have hholds : (run moves).scene.draft name = some ⟨client.origin, tx⟩ :=
    draft_scene hclient htx
  have hintact : tx.working.Intact := (sound_run moves).drafts hholds
  have hdeparts := (orderly_run moves).departs hholds
  have hspares := sparing_run moves hholds
  rw [← hquiet] at hdeparts hspares
  have hmerge := hdeparts.merge_eq_ok hintact hspares
  have happly : (run moves).memory.apply tx = (.ok (), (run moves).memory.install tx) := by
    rw [apply, hmerge]
    rfl
  refine ⟨happly, fun hcalm => ?_⟩
  show (run moves).memory.commit tx = _
  rw [commit, prepare_eq, if_neg hcalm]
  exact happly

/-! ## Nobody comes before -/

/-- Only the second half of a commit changes what is committed. -/
theorem committed_move_of_not_commits (system : System) {move : Move} (h : move.commits = false) :
    (system.move move).memory.committed = system.memory.committed := by
  cases move with
  | arm point => rfl
  | begin name => rfl
  | enter name limit operation => rfl
  | leave name => rfl
  | call name request =>
      simp only [System.move]
      split <;> rfl
  | prepare name =>
      have hprepare : system.memory.prepare.2.committed = system.memory.committed := by
        rw [prepare_eq]
        split <;> rfl
      simp only [System.move]
      split
      · generalize system.memory.prepare = prepared at hprepare ⊢
        obtain ⟨_ | _, memory⟩ := prepared <;> exact hprepare
      · rfl
  | apply name => cases h
  | advance name => cases h

/-- As long as nobody commits, whoever newly comes begins on what is committed. -/
theorem origin_of_quiet {moves more : List Move} {name : Nat} {client : Client}
    (hnone : (run moves).client name = none) (hquiet : ∀ move ∈ more, move.commits = false)
    (hclient : (run (moves ++ more)).client name = some client) :
    (run (moves ++ more)).memory.committed.tables = client.origin := by
  induction more using List.reverseRecOn generalizing client with
  | nil =>
      rw [List.append_nil, hnone] at hclient
      cases hclient
  | append_singleton more last ih =>
      obtain ⟨hquiet, hlast⟩ := List.forall_mem_append.mp hquiet
      rw [← List.append_assoc, run_append] at hclient ⊢
      rw [committed_move_of_not_commits _ (hlast last List.mem_cons_self)]
      rcases origin_move hclient with horigin | ⟨before, hbefore, horigin⟩
      · exact horigin.symm
      · rw [ih hquiet hbefore, horigin]

/-- The shirt has been created. -/
def shirtDone : List Move := shirtMoves ++ [.advance 0]

/-- Somebody renames an option just after creating it, archives a variant twice and asks for an
SKU that is taken, and a fault strikes. Somebody else gives up a root meanwhile. -/
def shirtClutter : List Move :=
  [.begin 2, .call 2 (.write (.createOption ⟨⟨2⟩, "Color"⟩)),
    .call 2 (.write (.updateOption ⟨2⟩ "Colour")), .begin 3,
    .call 3 (.write (.createRoot { NewRoot.ofDraft shirt.product with skuPrefix := "cap" })),
    .call 2 (.write (.archiveProduct ⟨1⟩)), .call 2 (.write (.archiveProduct ⟨1⟩)),
    .call 2 (.write (.createProduct ⟨⟨2⟩, "", "shirt_m", shirt.product.details, none⟩)),
    .arm (.create .root),
    .call 2 (.write (.createRoot { NewRoot.ofDraft shirt.product with skuPrefix := "cup" })),
    .leave 3]

theorem commit_installs_shirtClutter :
    ∃ client tx, (run (shirtDone ++ shirtClutter)).client 2 = some client ∧
      client.standing.tx? = some tx ∧ tx.journal.map Entry.text =
        ["Created ProductOption 2", "Updated ProductOption 2", "Archived Product 1"] ∧
      store.commit tx (run (shirtDone ++ shirtClutter)).memory =
        (.ok (), (run (shirtDone ++ shirtClutter)).memory.install tx) := by
  have hsome : ((run (shirtDone ++ shirtClutter)).client 2).bind (fun client =>
      client.standing.tx?.map fun tx => tx.journal.map Entry.text) =
        some ["Created ProductOption 2", "Updated ProductOption 2", "Archived Product 1"] := by
    decide +kernel
  obtain ⟨client, hclient, hsome⟩ := Option.bind_eq_some_iff.mp hsome
  obtain ⟨tx, htx, hjournal⟩ := Option.map_eq_some_iff.mp hsome
  have hnone : (run shirtDone).client 2 = none :=
    Option.isNone_iff_eq_none.mp (by decide +kernel)
  have hquiet := origin_of_quiet hnone (by decide) hclient
  obtain ⟨_, hcommit⟩ := commit_installs hclient htx hquiet
  exact ⟨client, tx, hclient, htx, hjournal, hcommit (by decide +kernel)⟩

end System

end Memory

end VariantCatalog
