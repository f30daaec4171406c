/-
# The journal is a record of the tables

The store writes to its tables in one place and to its journal in another, and a commit
brings both together with what others have committed.  They never get out of step: of
every row the journal tells that it was created, then that it was edited any number of
times, then at most that it was archived, and what it tells of last is how the row is.
So the journal has as many creations as there are rows, and as many ends as there are
archived rows (`recorded_run`).
-/

import VariantCatalog.Proofs.Interleaving.Order
import VariantCatalog.Proofs.Memory.Story
import Mathlib.Data.List.Nodup

namespace VariantCatalog

open Memory

/-! ## Counting rows -/

namespace Tables

variable {tables : Tables}

/-- Where the rows that satisfy a condition are stored. -/
def keysWhere (tables : Tables) (condition : {kind : EntityKind} → kind.Row → Bool) :
    List RowKey :=
  EntityKind.all.flatMap fun kind =>
    ((tables.table kind).rows.filter condition).map fun row => ⟨kind, Row.id row⟩

theorem mem_keysWhere {condition : {kind : EntityKind} → kind.Row → Bool} {kind : EntityKind}
    {id : Id kind} :
    (⟨kind, id⟩ : RowKey) ∈ tables.keysWhere condition ↔ (tables.find? id).any condition := by
  rw [keysWhere, List.mem_flatMap, Option.any_eq_true]
  constructor
  · rintro ⟨other, _, hmem⟩
    obtain ⟨row, hrow, heq⟩ := List.mem_map.mp hmem
    cases heq
    obtain ⟨hrow, hcondition⟩ := List.mem_filter.mp hrow
    exact ⟨row, mem_iff.mp hrow, hcondition⟩
  · rintro ⟨row, hrow, hcondition⟩
    refine ⟨kind, by cases kind <;> decide, List.mem_map.mpr ⟨row, ?_, ?_⟩⟩
    · exact List.mem_filter.mpr ⟨Table.mem_of_find? hrow, hcondition⟩
    · rw [id_of_find? hrow]

theorem nodup_keysWhere (condition : {kind : EntityKind} → kind.Row → Bool) :
    (tables.keysWhere condition).Nodup := by
  rw [keysWhere, List.nodup_flatMap]
  constructor
  · intro kind _
    apply List.pairwise_map.mpr
    apply ((tables.table kind).ascending.sublist List.filter_sublist).imp
    intro first second hlt heq
    have hid : Row.id first = Row.id second := eq_of_heq (RowKey.mk.inj heq).2
    exact absurd (congrArg Id.number hid) (Int.ne_of_lt hlt)
  · have hkinds : EntityKind.all.Nodup := by decide
    apply hkinds.imp
    intro first second hne key hfirst hsecond
    obtain ⟨row, _, rfl⟩ := List.mem_map.mp hfirst
    obtain ⟨other, _, heq⟩ := List.mem_map.mp hsecond
    exact hne (RowKey.mk.inj heq).1.symm

theorem length_keysWhere (condition : {kind : EntityKind} → kind.Row → Bool) :
    (tables.keysWhere condition).length = tables.roots.rows.countP condition +
      tables.options.rows.countP condition + tables.values.rows.countP condition +
      tables.products.rows.countP condition + tables.bridges.rows.countP condition := by
  simp only [keysWhere, EntityKind.all, List.flatMap_cons, List.flatMap_nil, List.length_append,
    List.length_map, List.length_nil, ← List.countP_eq_length_filter, table]
  omega

end Tables

namespace Memory

theorem count_story (journal : List Entry) (key : RowKey) (action : Action) :
    (story journal key).count action =
      ((journal.filter (·.action = action)).map Entry.key).count key := by
  simp only [story, List.count, List.countP_map, List.countP_filter, Function.comp_def]
  apply List.countP_congr
  intro entry _
  simp only [beq_iff_eq, Bool.and_eq_true, decide_eq_true_eq]
  exact and_comm

/-- If no story tells of an action twice, then the action is told of as often as there are
rows whose stories tell of it. -/
theorem countP_action {journal : List Entry} {action : Action} {keys : List RowKey}
    (honce : ∀ key, (story journal key).count action ≤ 1) (hkeys : keys.Nodup)
    (hmem : ∀ key, key ∈ keys ↔ action ∈ story journal key) :
    journal.countP (·.action = action) = keys.length := by
  have hactors : ((journal.filter (·.action = action)).map Entry.key).Nodup := by
    rw [List.nodup_iff_count_le_one]
    intro key
    rw [← count_story]
    exact honce key
  have hperm : ((journal.filter (·.action = action)).map Entry.key).Perm keys := by
    rw [List.perm_ext_iff_of_nodup hactors hkeys]
    intro key
    rw [hmem, ← List.count_pos_iff, ← List.count_pos_iff, count_story]
  rw [List.countP_eq_length_filter, ← hperm.length_eq, List.length_map]

end Memory

/-! ## The journal of what is committed -/

/-- The journal is a record of the tables. -/
structure Committed.IsRecorded (committed : Committed) : Prop where
  /-- A row is created once, then edited, then archived once, and after that left alone. -/
  story : ∀ key, Memory.story committed.journal key = [] ∨ ∃ edits,
    Memory.story committed.journal key = .created :: List.replicate edits .updated ∨
      Memory.story committed.journal key =
        .created :: (List.replicate edits .updated ++ [.archived])
  /-- The rows that are there are those that were created. -/
  present : ∀ {kind : EntityKind} (id : Id kind),
    (committed.tables.find? id).isSome ↔ (⟨kind, id, .created⟩ : Entry) ∈ committed.journal
  /-- The rows that are archived are those that were ever archived. -/
  archived : ∀ {kind : EntityKind} (id : Id kind),
    committed.tables.isArchived id ↔ (⟨kind, id, .archived⟩ : Entry) ∈ committed.journal
  creations : committed.journal.countP (·.action = .created) = committed.tables.stats.total
  ends : committed.journal.countP (·.action = .archived) = committed.tables.stats.archived

namespace Committed.IsTold

variable {committed : Committed}

/-- How often a story tells of an action is settled by where it leads. -/
theorem count_created (h : committed.IsTold) (key : RowKey) :
    (Memory.story committed.journal key).count .created =
      if committed.tables.phase key = .absent then 0 else 1 := by
  rcases Phase.leads_absent.mp (h key) with
    ⟨hstory, hphase⟩ | ⟨edits, ⟨hstory, hphase⟩ | ⟨hstory, hphase⟩⟩
  · rw [hstory, hphase]
    rfl
  · simp [hstory, hphase, List.count_replicate]
  · simp [hstory, hphase, List.count_replicate]

theorem count_archived (h : committed.IsTold) (key : RowKey) :
    (Memory.story committed.journal key).count .archived =
      if committed.tables.phase key = .archived then 1 else 0 := by
  rcases Phase.leads_absent.mp (h key) with
    ⟨hstory, hphase⟩ | ⟨edits, ⟨hstory, hphase⟩ | ⟨hstory, hphase⟩⟩
  · rw [hstory, hphase]
    rfl
  · simp [hstory, hphase, List.count_replicate]
  · simp [hstory, hphase, List.count_replicate]

theorem created_mem (h : committed.IsTold) {kind : EntityKind} (id : Id kind) :
    (⟨kind, id, .created⟩ : Entry) ∈ committed.journal ↔ (committed.tables.find? id).isSome := by
  rw [← mem_story, ← List.count_pos_iff, h.count_created, Option.isSome_iff_ne_none, ne_eq,
    ← Tables.phase_eq_absent]
  split <;> simp [*]

theorem archived_mem (h : committed.IsTold) {kind : EntityKind} (id : Id kind) :
    (⟨kind, id, .archived⟩ : Entry) ∈ committed.journal ↔ committed.tables.isArchived id := by
  rw [← mem_story, ← List.count_pos_iff, h.count_archived, ← Tables.phase_eq_archived]
  split <;> simp [*]

/-- A journal that leads to the tables records them. -/
theorem isRecorded (h : committed.IsTold) : committed.IsRecorded where
  story key := by
    rcases Phase.leads_absent.mp (h key) with
      ⟨hstory, _⟩ | ⟨edits, ⟨hstory, _⟩ | ⟨hstory, _⟩⟩
    · exact .inl hstory
    · exact .inr ⟨edits, .inl hstory⟩
    · exact .inr ⟨edits, .inr hstory⟩
  present id := (h.created_mem id).symm
  archived id := (h.archived_mem id).symm
  creations := by
    have honce : ∀ key, (Memory.story committed.journal key).count .created ≤ 1 := by
      intro key
      rw [h.count_created]
      split <;> decide
    have hmem : ∀ key, key ∈ committed.tables.keysWhere (fun _ => true) ↔
        .created ∈ Memory.story committed.journal key := by
      rintro ⟨kind, id⟩
      rw [Tables.mem_keysWhere, mem_story, h.created_mem, Option.any_true]
    rw [countP_action honce (Tables.nodup_keysWhere _) hmem, Tables.length_keysWhere]
    simp only [List.countP_true]
    rfl
  ends := by
    have honce : ∀ key, (Memory.story committed.journal key).count .archived ≤ 1 := by
      intro key
      rw [h.count_archived]
      split <;> decide
    have hmem : ∀ key, key ∈ committed.tables.keysWhere (fun row => !Row.isLive row) ↔
        .archived ∈ Memory.story committed.journal key := by
      rintro ⟨kind, id⟩
      rw [Tables.mem_keysWhere, mem_story, h.archived_mem]
      exact Iff.rfl
    rw [countP_action honce (Tables.nodup_keysWhere _) hmem, Tables.length_keysWhere]
    rfl

end Committed.IsTold

/-! ## Every run -/

namespace Memory

/-- The journals of what is committed and of all drafts tell how their tables came about. -/
structure Scene.Told (scene : Scene) : Prop where
  orderly : scene.Orderly
  committed : scene.memory.committed.IsTold
  drafts {name : Nat} {draft : Draft} : scene.draft name = some draft →
    draft.tx.IsTold draft.origin

/-- No event gets a journal out of step. -/
theorem Event.told {scene after : Scene} (h : Event scene after) (htold : scene.Told) :
    after.Told := by
  have horderly := h.orderly htold.orderly
  have hhold : ∀ {memory : Memory} {name : Nat} {new : Option Draft},
      memory.committed.IsTold → (∀ draft, new = some draft → draft.tx.IsTold draft.origin) →
        ((scene.withMemory memory).hold name new).Orderly →
          ((scene.withMemory memory).hold name new).Told := by
    intro memory name new hcommitted hnew hordered
    refine ⟨hordered, hcommitted, fun {other draft} hholds => ?_⟩
    rcases Scene.draft_hold_cases hholds with ⟨_, heq⟩ | ⟨_, hbefore⟩
    · exact hnew draft heq
    · exact htold.drafts hbefore
  cases h with
  | turn fault => exact ⟨horderly, htold.committed, htold.drafts⟩
  | begin name =>
      refine hhold htold.committed ?_ horderly
      rintro draft hdraft
      cases hdraft
      exact Transaction.isTold_start _
  | stroke name origin tx later holds hstroke =>
      refine hhold htold.committed ?_ horderly
      rintro draft hdraft
      cases hdraft
      exact hstroke.isTold (htold.orderly.draftDrawn holds) (htold.drafts holds)
  | leave name => exact hhold htold.committed nofun horderly
  | merge name origin tx committed holds hmerge =>
      refine hhold ?_ nofun horderly
      exact Committed.isTold_merge htold.committed (htold.drafts holds)
        (htold.orderly.becomes holds) (htold.orderly.departs holds) (htold.orderly.fresh holds)
        hmerge

namespace System

theorem told_run (moves : List Move) : (run moves).scene.Told := by
  refine scene_run_preserves ⟨orderly_run [], fun key => ?_, nofun⟩ Event.told moves
  exact Phase.leads_nil.mpr (Tables.phase_of_none (Tables.find?_empty key.id)).symm

/-- **The journal is a record of the tables in every committed state**, whatever transactions
and operations ran, in whatever order their calls and the halves of their commits came, and
whatever faults struck. -/
theorem recorded_run (moves : List Move) : (run moves).memory.committed.IsRecorded :=
  (told_run moves).committed.isRecorded

end System

end Memory

end VariantCatalog
