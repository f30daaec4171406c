/-
# What is not found

An archive or an edit can be told twice that a row is not there.  The first time it asks
itself, of its own target and in the tables that it began on.  The second time it is told by
the commit, which looks for every row that was written over among those that are archived by
then; and an archive writes over all that lives below its target.  Either answer is true of
the row that it names (`notFound_names`).

It need not be true of the target.  Two archives that overlap in a single bridge cannot both
be committed: the later one is told that the bridge is gone, though its own target is live
and will stay so (`live_notFound_shirt`).
-/

import VariantCatalog.Proofs.Interleaving.Archival
import VariantCatalog.Proofs.Interleaving.Attachment
import VariantCatalog.Proofs.Operation.Verdict

namespace VariantCatalog

open Memory

namespace Operation

variable {operation : Operation} {target : RowKey} {origin : Tables} {tx : Transaction}

/-- The rows that an archive or an edit writes over: an archive those of the cascade, an edit
its target only. -/
def reach (origin : Tables) (operation : Operation) : List RowKey :=
  match operation.target? with
  | some target => ((origin.live? target.id).toList.flatMap origin.cascade).map AnyRow.key
  | none => operation.altered?.toList

theorem reach_of_target? (htarget : operation.target? = some target) {row : target.kind.Row}
    (hrow : origin.live? target.id = some row) :
    operation.reach origin = (origin.cascade row).map AnyRow.key := by
  simp only [reach, htarget, hrow, Option.toList_some, List.flatMap_singleton]

theorem mem_reach_cases (haltered : operation.altered? = some target) {key : RowKey}
    (hkey : key ∈ operation.reach origin) : key = target ∨ operation.target? = some target := by
  cases operation with
  | updateProduct id patch =>
      cases haltered
      exact .inl (List.mem_singleton.mp hkey)
  | renameOption id name =>
      cases haltered
      exact .inl (List.mem_singleton.mp hkey)
  | updateValue id text =>
      cases haltered
      exact .inl (List.mem_singleton.mp hkey)
  | addOption root spec => cases haltered
  | addValue option text => cases haltered
  | commit creation => cases haltered
  | rootGraph id => cases haltered
  | productBySku sku => cases haltered
  | skuExists sku => cases haltered
  | _ => exact .inr haltered

/-- What an archive or an edit leaves in its transaction. It has found its target live, and
all that it has written are rows that were there. -/
structure Alters (origin : Tables) (operation : Operation) (target : RowKey)
    (tx : Transaction) : Prop where
  live : (origin.live? target.id).isSome
  keys_eq : tx.keys = operation.reach origin
  settled : tx.Settled

theorem Alters.of_retires (htarget : operation.target? = some target) {row : target.kind.Row}
    (hrow : origin.live? target.id = some row) (h : Retires origin (origin.cascade row) tx) :
    Alters origin operation target tx where
  live := Option.isSome_of_eq_some hrow
  keys_eq := h.keys_eq.trans (reach_of_target? htarget hrow).symm
  settled := h.settled

theorem Alters.of_revises {kind : EntityKind} {old new : kind.Row}
    (h : Revises origin kind old new tx) (hkind : kind ≠ .bridge)
    (hreach : operation.reach origin = [⟨kind, Row.id old⟩]) (hid : Row.id new = Row.id old) :
    Alters origin operation ⟨kind, Row.id old⟩ tx where
  live := Option.isSome_of_eq_some h.live
  keys_eq := by
    rw [hreach, h.transaction, ← hid]
    rfl
  settled := h.settled hkind

theorem Effect.alters {result : operation.Result} (h : Effect operation origin result tx)
    (haltered : operation.altered? = some target) : Alters origin operation target tx := by
  cases operation with
  | updateProduct id patch =>
      obtain ⟨row, moment, rfl, hrevises, _⟩ := h
      cases haltered
      exact .of_revises hrevises nofun rfl rfl
  | renameOption id name =>
      obtain ⟨row, moment, rfl, hrevises, _⟩ := h
      cases haltered
      exact .of_revises hrevises nofun rfl rfl
  | updateValue id text =>
      obtain ⟨row, moment, rfl, hrevises, _⟩ := h
      cases haltered
      exact .of_revises hrevises nofun rfl rfl
  | addOption root spec => cases haltered
  | addValue option text => cases haltered
  | commit creation => cases haltered
  | rootGraph id => cases haltered
  | productBySku sku => cases haltered
  | skuExists sku => cases haltered
  | _ =>
      obtain ⟨row, hrow, hretires⟩ := Effect.retires h haltered
      exact .of_retires haltered hrow hretires

/-- A commit bars such a transaction just if a row that it has written over is archived. -/
theorem Alters.exists_bars_iff (h : Alters origin operation target tx) {committed : Committed} :
    (∃ entry ∈ tx.journal, committed.Bars entry) ↔
      ∃ key ∈ operation.reach origin, committed.tables.isArchived key.id := by
  rw [← h.keys_eq]
  constructor
  · rintro ⟨entry, hentry, _, harchived⟩
    exact ⟨entry.key, List.mem_map.mpr ⟨entry, hentry, rfl⟩, harchived⟩
  · rintro ⟨key, hkey, harchived⟩
    obtain ⟨entry, hentry, rfl⟩ := List.mem_map.mp hkey
    refine ⟨entry, hentry, fun haction => ?_, harchived⟩
    obtain ⟨kind, id, action⟩ := entry
    cases haction
    exact h.settled.created hentry

end Operation

namespace Memory

/-! ## Why a body fails among others -/

namespace Progress

variable {operation : Operation} {reason : CatalogError → Prop}

/-- Wherever an operation stands, its body fails for a reason only, or by a fault. -/
def Heeds (reason : CatalogError → Prop) : Progress operation → Prop
  | .working tx rest => ∃ session : Session, session.transaction = tx ∧
      Withstands False (fun _ _ => True) reason rest session
  | _ => True

theorem Heeds.advance {progress : Progress operation} (h : progress.Heeds reason)
    (memory : Memory) : (progress.advance memory).1.Heeds reason := by
  cases progress with
  | working tx rest =>
      obtain ⟨session, rfl, hrest⟩ := h
      cases rest with
      | done result =>
          simp only [Progress.advance]
          split
          · trivial
          · split <;> trivial
      | refuse error => trivial
      | call request next =>
          simp only [Progress.advance, answer]
          generalize hrun : (answerCall request).run.run
            ⟨memory.registers, session.transaction⟩ = answered
          obtain ⟨_ | reply, after⟩ := answered
          · trivial
          · exact ⟨after, rfl, hrest.2 reply after ⟨memory.registers, False.elim, hrun⟩⟩
  | committing tx result =>
      simp only [Progress.advance]
      split <;> trivial
  | ended outcome => trivial

/-- An operation that fails before its commit can explain it. -/
theorem Heeds.explained {memory : Memory} {tx : Transaction} {rest : Program operation.Result}
    {error : CatalogError} (h : (working tx rest).Heeds reason)
    (hends : ((working tx rest).advance memory).1 = .ended (.error error)) :
    Explained False reason error := by
  obtain ⟨session, rfl, hrest⟩ := h
  cases rest with
  | done result =>
      simp only [Progress.advance] at hends
      split at hends
      · cases hends
      · rw [prepare_eq] at hends
        by_cases hfault : memory.registers.fault = some .commit
        · rw [if_pos hfault] at hends
          cases hends
          exact .inr ⟨id, .commit, rfl⟩
        · rw [if_neg hfault] at hends
          cases hends
  | refuse refusal =>
      cases hends
      exact hrest
  | call request next =>
      simp only [Progress.advance, answer] at hends
      generalize hrun : (answerCall request).run.run
        ⟨memory.registers, session.transaction⟩ = answered at hends
      obtain ⟨failure | reply, after⟩ := answered
      · cases hends
        exact hrest.1 failure after ⟨memory.registers, False.elim, hrun⟩
      · cases hends

end Progress

namespace System

open Operation

variable {moves : List Move} {name : Nat} {origin : Tables} {operation : Operation}
  {target : RowKey} {detail : String}

/-- In any interleaving, the body of an archive or an edit fails because its target is not
live in the tables that it began on, or because what it gives is taken there. -/
theorem heeds_run {progress : Progress operation}
    (hclient : (run moves).client name = some ⟨origin, .serving operation progress⟩)
    (haltered : operation.altered? = some target) :
    progress.Heeds (Objects origin target.id fun _ => operation.Clashes origin) := by
  refine @upholds_run (fun operation origin _ progress => ∀ target,
    operation.altered? = some target →
      progress.Heeds (Objects origin target.id fun _ => operation.Clashes origin)) ?_ ?_ moves
      _ _ _ _ hclient target haltered
  · exact ⟨fun h _ => h, fun h target haltered => (h target haltered).advance _⟩
  · intro done limit operation target haltered
    rw [Progress.enter]
    cases operation.screen limit with
    | error error => trivial
    | ok _ =>
        exact ⟨⟨(run done).memory.registers, (run done).memory.begin⟩, rfl,
          withstands_body haltered (sound_run done).intact rfl⟩

/-- Before its commit, such an operation can only have missed its target. -/
theorem misses_of_working {tx : Transaction} {rest : Program operation.Result}
    (hclient : (run moves).client name = some ⟨origin, .serving operation (.working tx rest)⟩)
    (haltered : operation.altered? = some target)
    (hends : ((Progress.working tx rest).advance (run moves).memory).1 =
      .ended (.error (.notFound detail))) : Misses origin target.id (.notFound detail) := by
  rcases (heeds_run hclient haltered).explained hends with
    (hmisses | ⟨hconflict, _⟩) | ⟨_, point, hfault⟩
  · exact hmisses
  · cases hconflict
  · cases hfault

/-- At its commit, it is told of a row that it has written over and that is archived by now. -/
theorem fails_of_committing {tx : Transaction} {result : operation.Result}
    (hclient : (run moves).client name =
      some ⟨origin, .serving operation (.committing tx result)⟩)
    (haltered : operation.altered? = some target) :
    (∃ key ∈ operation.reach origin, (run moves).memory.committed.tables.isArchived key.id ∧
        (run moves).Fails name origin operation (.notFound key.overtaken)) ∨
      (∀ key ∈ operation.reach origin,
          ¬ (run moves).memory.committed.tables.isArchived key.id) ∧
        ∀ detail, ¬ (run moves).Fails name origin operation (.notFound detail) := by
  have halters := ((keeps_run moves hclient).2).alters haltered
  have hafter := client_move_advance hclient
  rw [Progress.advance, apply] at hafter
  rcases (run moves).memory.committed.merge_barred_cases tx with
    ⟨entry, hentry, hbars, hmerge⟩ | ⟨hnot, hmerge⟩
  · left
    rw [hmerge] at hafter
    refine ⟨entry.key, ?_, hbars.2, ⟨_, rfl, hclient⟩, hafter⟩
    rw [← halters.keys_eq]
    exact List.mem_map.mpr ⟨entry, hentry, rfl⟩
  · refine .inr ⟨fun key hkey harchived => ?_, fun detail hfails => ?_⟩
    · obtain ⟨entry, hentry, hbars⟩ := halters.exists_bars_iff.mpr ⟨key, hkey, harchived⟩
      exact hnot entry hentry hbars
    · have hends := advance_eq_of_client hclient hfails.fails
      rw [Progress.advance, apply] at hends
      cases hmerged : (run moves).memory.committed.merge tx with
      | ok committed =>
          rw [hmerged] at hends
          cases hends
      | error error =>
          rw [hmerged] at hends
          cases error with
          | rowNotFound found => exact hmerge found hmerged
          | _ => cases hends

/-- **What it tells that a row is not found.** When an archive or an edit among others is told
so before its commit, then its target was not live when it began, and if it is live now, it
was not there at all then. When it is told so at its commit, then a row that it has written
over is archived by now: the target itself, unless the operation is an archive. Either answer
names that row. An operation that comes to its commit has found its target live, and it is
told so just if there is such a row. -/
theorem notFound_names (moves : List Move) (name : Nat) (origin : Tables) (operation : Operation)
    (target : RowKey) (haltered : operation.altered? = some target) :
    (∀ detail, (run moves).Fails name origin operation (.notFound detail) →
      (CatalogError.notFound detail = .absent target.id ∧ origin.live? target.id = none ∧
          ((run moves).memory.committed.tables.live? target.id = none ∨
            origin.find? target.id = none)) ∨
        ∃ key ∈ operation.reach origin, detail = key.overtaken ∧
          (run moves).memory.committed.tables.isArchived key.id ∧
            (key = target ∨ operation.target? = some target)) ∧
    ∀ tx result,
      (run moves).client name = some ⟨origin, .serving operation (.committing tx result)⟩ →
        (origin.live? target.id).isSome ∧
          ((∃ detail, (run moves).Fails name origin operation (.notFound detail)) ↔
            ∃ key ∈ operation.reach origin,
              (run moves).memory.committed.tables.isArchived key.id) := by
  constructor
  · intro detail hfails
    obtain ⟨progress, hopen, hclient⟩ := hfails.underWay
    cases progress with
    | working tx rest =>
        obtain ⟨hnames, hnone⟩ := misses_of_working hclient haltered
          (advance_eq_of_client hclient hfails.fails)
        refine .inl ⟨hnames, hnone, ?_⟩
        by_contra! hlate
        obtain ⟨hlive, hfound⟩ := hlate
        obtain ⟨row, hrow⟩ := Option.ne_none_iff_exists'.mp hfound
        have hbecomes := (orderly_run moves).becomes (draft_scene hclient rfl)
        rw [hbecomes.live?_eq_some hrow (Option.isSome_iff_ne_none.mpr hlive)] at hnone
        cases hnone
    | committing tx result =>
        rcases fails_of_committing hclient haltered with
          ⟨key, hkey, harchived, htold⟩ | ⟨_, hnot⟩
        · cases htold.fails.symm.trans hfails.fails
          exact .inr ⟨key, hkey, rfl, harchived, mem_reach_cases haltered hkey⟩
        · exact absurd hfails (hnot detail)
    | ended outcome => cases hopen
  · intro tx result hclient
    refine ⟨(((keeps_run moves hclient).2).alters haltered).live, ?_⟩
    rcases fails_of_committing hclient haltered with
      ⟨key, hkey, harchived, htold⟩ | ⟨hnone, hnot⟩
    · exact ⟨fun _ => ⟨key, hkey, harchived⟩, fun _ => ⟨_, htold⟩⟩
    · exact ⟨fun ⟨detail, hfails⟩ => absurd hfails (hnot detail),
        fun ⟨key, hkey, harchived⟩ => absurd harchived (hnone key hkey)⟩

/-! ## A live row that is not found -/

/-- The shirt is created. -/
def shirtCreated : List Move := .enter 0 none (.commit shirt) :: List.replicate 14 (.advance 0)

/-- Somebody archives the smaller variant of the shirt, while somebody else is about to commit. -/
def shirtTrimmed : List Move :=
  .enter 1 none (.archiveVariant ⟨1⟩) :: List.replicate 4 (.advance 2) ++
    List.replicate 5 (.advance 1)

/-- What the other one is about is to archive the smaller size. The variant and the size have
the bridge between them in common. -/
def shirtTorn : List Move :=
  shirtCreated ++ .enter 2 none (.archiveValue ⟨1⟩) :: shirtTrimmed

theorem fails_shirtTorn :
    (run shirtTorn).Fails 2 (run shirtCreated).memory.committed.tables (.archiveValue ⟨1⟩)
      (.notFound "VariantBridge 1 was archived concurrently") := by
  apply fails_of_failure?
  · rw [shirtTorn]
    exact serving_run shirtCreated shirtTrimmed 2 none _ (by decide)
  · decide +kernel
  · decide +kernel

theorem notFound_names_shirt :
    ∃ key ∈ (Operation.archiveValue ⟨1⟩).reach (run shirtCreated).memory.committed.tables,
      "VariantBridge 1 was archived concurrently" = key.overtaken ∧
        (run shirtTorn).memory.committed.tables.isArchived key.id := by
  have hlive : ((run shirtCreated).memory.committed.tables.live? (⟨1⟩ : Id .value)).isSome := by
    decide +kernel
  rcases (notFound_names shirtTorn 2 _ (.archiveValue ⟨1⟩) ⟨.value, ⟨1⟩⟩ rfl).1 _
    fails_shirtTorn with ⟨_, hnone, _⟩ | ⟨key, hkey, hdetail, harchived, _⟩
  · rw [hnone] at hlive
    cases hlive
  · exact ⟨key, hkey, hdetail, harchived⟩

/-- The size is not found, and yet it is live, before and after. -/
theorem live_notFound_shirt :
    (∀ move ∈ shirtTorn, move.isService) ∧ (∀ point, .arm point ∉ shirtTorn) ∧
      (run shirtTorn).Fails 2 (run shirtCreated).memory.committed.tables (.archiveValue ⟨1⟩)
        (.notFound "VariantBridge 1 was archived concurrently") ∧
      ((run shirtTorn).memory.committed.tables.live? (⟨1⟩ : Id .value)).isSome ∧
      ((run (shirtTorn ++ [.advance 2])).memory.committed.tables.live?
        (⟨1⟩ : Id .value)).isSome := by
  refine ⟨by decide, fun point harm => ?_, fails_shirtTorn, by decide +kernel, by decide +kernel⟩
  simp [shirtTorn, shirtCreated, shirtTrimmed] at harm

end System

end Memory

end VariantCatalog
