/-
# When an option outlives its root

An operation that adds an option or a value looks for its stem in a snapshot, and its
commit checks that the stem exists, not that it is live.  An archive goes through what
hangs below its target in a snapshot as well.  So if somebody adds to a root while
somebody else archives it, both succeed in either order, and what was added is left live
below an archived root.

Nothing else ever goes wrong.  As long as every commit is timely, all committed states
are attached, and the first commit that is not timely leaves something behind
(`attached_iff_timely`).  An operation that nobody else's commit comes between is always
timely.
-/

import VariantCatalog.Proofs.Interleaving.Lifespan

namespace VariantCatalog

open Memory

namespace Memory.System

/-! ## Runs of operations -/

/-- If a move is the last one of a commit, the transaction that it merges comes in
time. -/
def IsTimely (system : System) (move : Move) : Prop :=
  ∀ ⦃name : Nat⦄ ⦃origin : Tables⦄ ⦃operation : Operation⦄ ⦃tx : Transaction⦄
    ⦃result : operation.Result⦄ ⦃committed : Committed⦄, move = .advance name →
      system.client name = some ⟨origin, .serving operation (.committing tx result)⟩ →
        system.memory.committed.merge tx = .ok committed →
          Timely origin system.memory.committed.tables tx

/-- As long as all operations begin on attached tables, a move of one of them leaves what
is committed attached just if it is timely. -/
theorem attached_move {moves : List Move} (hcoherent : (run moves).Coherent)
    (hattached : ∀ done, done <+: moves → (run done).memory.committed.tables.Attached)
    (move : Move) (hservice : move.isService) :
    ((run moves).move move).memory.committed.tables.Attached ↔ (run moves).IsTimely move := by
  have hbefore := hattached moves (List.prefix_refl moves)
  have hmerge : ∀ {name : Nat} {origin : Tables} {operation : Operation} {tx : Transaction}
      {result : operation.Result} {committed : Committed},
      (run moves).client name = some ⟨origin, .serving operation (.committing tx result)⟩ →
      (run moves).memory.committed.merge tx = .ok committed →
      (committed.tables.Attached ↔ Timely origin (run moves).memory.committed.tables tx) := by
    intro name origin operation tx result committed hclient hmerged
    obtain ⟨done, hdone, horigin⟩ := origin_run hclient
    have horiginAttached : origin.Attached := by
      rw [show origin = (run done).memory.committed.tables from horigin]
      exact hattached done hdone
    obtain ⟨hmeets, _⟩ := hcoherent.meets hclient hmerged
    obtain ⟨hwrites, heffect⟩ := keeps_run moves hclient
    exact hmeets.attached_iff hbefore
      ((heffect.deed hwrites).attaches hmeets.departs horiginAttached)
  constructor
  · rintro hafter name origin operation tx result committed rfl hclient hmerged
    rw [committed_of_merge hclient hmerged] at hafter
    exact (hmerge hclient hmerged).mp hafter
  · intro htimely
    rcases (run moves).committed_service_cases hservice with
      hsame | ⟨name, origin, operation, tx, result, committed, rfl, hclient, hmerged, hafter⟩
    · rw [hsame]
      exact hbefore
    · rw [hafter]
      exact (hmerge hclient hmerged).mpr (htimely rfl hclient hmerged)

section Runs

variable {moves : List Move} (hservice : ∀ move ∈ moves, move.isService)

include hservice

theorem coherent_of_initial {done : List Move} (hdone : done <+: moves) : (run done).Coherent :=
  run_preserves Coherent.start (fun _ move hmove h => h.move move hmove) done
    fun move hmem => hservice move (hdone.subset hmem)

/-- Everything is attached at all times if every commit comes in time, given that everything
was attached before. -/
theorem attached_of_timely
    (htimely : ∀ done move, done ++ [move] <+: moves →
      (∀ earlier, earlier <+: done → (run earlier).memory.committed.tables.Attached) →
        (run done).IsTimely move) :
    ∀ done, done <+: moves → (run done).memory.committed.tables.Attached := by
  -- The induction is on the whole run, so that all of its prefixes are attached.
  suffices hall : ∀ whole, whole <+: moves → ∀ done, done <+: whole →
      (run done).memory.committed.tables.Attached from
    fun done hdone => hall done hdone done (List.prefix_refl done)
  intro whole
  induction whole using List.reverseRecOn with
  | nil =>
      intro _ done hdone
      rw [List.prefix_nil.mp hdone]
      exact Tables.attached_empty
  | append_singleton earlier last ih =>
      intro hwhole done hdone
      have hprefix : earlier <+: moves := (List.prefix_append earlier [last]).trans hwhole
      have hbefore := ih hprefix
      rcases List.prefix_concat_iff.mp hdone with rfl | hdone
      · have hlast : last.isService := hservice last (hwhole.subset List.mem_concat_self)
        rw [run_append, attached_move (coherent_of_initial hservice hprefix) hbefore last hlast]
        exact htimely earlier last hwhole hbefore
      · exact hbefore done hdone

/-- If every operation commits onto the tables that it began on, options never outlive their
roots, nor values their options. -/
theorem attached_run_of_undisturbed
    (halone : ∀ {done : List Move} {name : Nat} {origin : Tables} {operation : Operation}
      {tx : Transaction} {result : operation.Result}, done ++ [.advance name] <+: moves →
        (run done).client name = some ⟨origin, .serving operation (.committing tx result)⟩ →
          origin = (run done).memory.committed.tables) :
    (run moves).memory.committed.tables.Attached := by
  refine attached_of_timely hservice ?_ moves (List.prefix_refl moves)
  rintro done _ hdone hattached name origin operation tx result committed rfl hclient _
  have horigin : origin = (run done).memory.committed.tables := halone hdone hclient
  have hdeparts : Departs origin tx := (orderly_run done).departs (draft_scene hclient rfl)
  obtain ⟨hwrites, heffect⟩ := keeps_run done hclient
  subst horigin
  exact .of_undisturbed hdeparts
    ((heffect.deed hwrites).attaches hdeparts (hattached done (List.prefix_refl done)))

end Runs

/-- **All committed states are attached just if all commits come in time.** In a run of
operations, whatever their number and order, every live option that is ever committed has a
live root and every live value a live option if and only if no operation is merged after
somebody has archived what it adds to, or has added to what it archives. -/
theorem attached_iff_timely (moves : List Move) (hservice : ∀ move ∈ moves, move.isService) :
    (∀ done, done <+: moves → (run done).memory.committed.tables.Attached) ↔
      ∀ done move, done ++ [move] <+: moves → (run done).IsTimely move := by
  constructor
  · intro hattached done move hdone
    have hprefix : done <+: moves := (List.prefix_append done [move]).trans hdone
    have hmove : move.isService := hservice move (hdone.subset List.mem_concat_self)
    rw [← attached_move (coherent_of_initial hservice hprefix)
      (fun earlier hearlier => hattached earlier (hearlier.trans hprefix)) move hmove,
      ← run_append]
    exact hattached _ hdone
  · intro htimely
    exact attached_of_timely hservice fun done move hdone _ => htimely done move hdone

/-- The shirt is created, and then its root is archived while it gets another option. -/
def shirtStray : List Move :=
  .enter 0 none (.commit shirt) :: List.replicate 14 (.advance 0) ++
    [.enter 1 none (.archiveRoot ⟨1⟩), .enter 2 none (.addOption ⟨1⟩ ⟨"Color", ["Red"]⟩)] ++
      List.replicate 13 (.advance 1) ++ List.replicate 7 (.advance 2)

/-- The option is there, and its root is archived. -/
theorem exists_stray : ∃ option : ProductOption,
    (run shirtStray).memory.committed.tables.live? (⟨2⟩ : Id .option) = some option ∧
      (run shirtStray).memory.committed.tables.live? option.root = none := by
  have hstray : ((run shirtStray).memory.committed.tables.live? (⟨2⟩ : Id .option)).map
      (fun option => ((run shirtStray).memory.committed.tables.live?
        (ProductOption.root option)).isNone) = some true := by decide +kernel
  obtain ⟨option, hoption, hroot⟩ := Option.map_eq_some_iff.mp hstray
  exact ⟨option, hoption, Option.isNone_iff_eq_none.mp hroot⟩

theorem not_attached_shirtStray : ¬ (run shirtStray).memory.committed.tables.Attached := by
  obtain ⟨option, hoption, hroot⟩ := exists_stray
  intro hattached
  have hsome := hattached hoption ⟨.root, ProductOption.root option⟩ List.mem_cons_self
  rw [hroot] at hsome
  cases hsome

/-- So one of the two operations was merged too late. -/
theorem attached_iff_timely_shirtStray :
    ¬ ∀ done move, done ++ [move] <+: shirtStray → (run done).IsTimely move := by
  have hservice : ∀ move ∈ shirtStray, move.isService := by decide
  rw [← attached_iff_timely shirtStray hservice]
  exact fun hattached => not_attached_shirtStray (hattached shirtStray (List.prefix_refl _))

/-- Operations alone do not keep everything attached: there is a live option below an
archived root. -/
theorem option_outlives_root :
    (∀ move ∈ shirtStray, move.isService) ∧
      (∃ option : ProductOption,
        (run shirtStray).memory.committed.tables.live? (⟨2⟩ : Id .option) = some option ∧
          (run shirtStray).memory.committed.tables.live? option.root = none) ∧
        ¬ (run shirtStray).memory.committed.tables.Attached :=
  ⟨by decide, exists_stray, not_attached_shirtStray⟩

end Memory.System

end VariantCatalog
