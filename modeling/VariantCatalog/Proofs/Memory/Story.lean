/-
# The story of a row

What a journal says of one row, in order, is the story of the row.  A row that is not there
can be created, and a row that is live can be edited or archived; nothing else can be done
to it.  So its story is a walk through the phases of its life, and it says where the row
stands at the end (`Phase.Leads`).

A transaction writes to its tables and to its journal at once, row by row, and each time
the one goes on as the other does.  At a merge the stories are put together: what the
transaction did to a row it has to have done from the phase that the committed row is in
by now, which others may have brought it to.
-/

import VariantCatalog.Proofs.Memory.Descent

namespace VariantCatalog

open Memory

/-! ## Phases -/

/-- Where a row stands in its life. -/
inductive Phase where
  | absent
  | live
  | archived
  deriving DecidableEq

namespace Phase

/-- The phase after an action, unless the action is out of place. -/
def next? : Phase → Action → Option Phase
  | .absent, .created => some .live
  | .live, .updated => some .live
  | .live, .archived => some .archived
  | _, _ => none

/-- One after the other, the actions are in place, and lead from the first phase to the
last. -/
def Leads (first : Phase) (actions : List Action) (last : Phase) : Prop :=
  actions.foldlM next? first = some last

variable {first middle last : Phase} {action : Action} {actions more : List Action}

theorem leads_nil : first.Leads [] last ↔ first = last := Option.some_inj

theorem leads_cons :
    first.Leads (action :: actions) last ↔
      ∃ middle, first.next? action = some middle ∧ middle.Leads actions last := by
  rw [Leads, List.foldlM_cons, Option.bind_eq_bind, Option.bind_eq_some_iff]
  exact Iff.rfl

/-- An action that is in place is the first step of the way. -/
theorem leads_cons_of_next (h : first.next? action = some middle) :
    first.Leads (action :: actions) last ↔ middle.Leads actions last := by
  simp only [leads_cons, h, Option.some.injEq, exists_eq_left']

theorem not_leads_cons (h : first.next? action = none) :
    ¬ first.Leads (action :: actions) last := by
  rw [leads_cons, h]
  rintro ⟨middle, hnext, _⟩
  cases hnext

theorem Leads.append (h : first.Leads actions middle) (hmore : middle.Leads more last) :
    first.Leads (actions ++ more) last := by
  rw [Leads, List.foldlM_append, show actions.foldlM next? first = some middle from h]
  exact hmore

theorem leads_archived : archived.Leads actions last ↔ actions = [] ∧ last = archived := by
  cases actions with
  | nil =>
      rw [leads_nil]
      exact ⟨fun heq => ⟨rfl, heq.symm⟩, fun h => h.2.symm⟩
  | cons action rest =>
      have hnext : archived.next? action = none := by cases action <;> rfl
      exact ⟨fun h => absurd h (not_leads_cons hnext), fun h => nomatch h.1⟩

/-- What can be done to a live row: some edits, and then an end. -/
theorem leads_live :
    live.Leads actions last ↔
      ∃ edits, actions = List.replicate edits .updated ∧ last = live ∨
        actions = List.replicate edits .updated ++ [.archived] ∧ last = archived := by
  induction actions with
  | nil =>
      rw [leads_nil]
      constructor
      · exact fun heq => ⟨0, .inl ⟨rfl, heq.symm⟩⟩
      · rintro ⟨edits, ⟨_, rfl⟩ | ⟨hnil, _⟩⟩
        · rfl
        · exact absurd hnil.symm (List.concat_ne_nil _ _)
  | cons action rest ih =>
      cases action with
      | created =>
          refine ⟨fun h => absurd h (not_leads_cons rfl), ?_⟩
          rintro ⟨_ | edits, ⟨heq, _⟩ | ⟨heq, _⟩⟩ <;> cases heq
      | updated =>
          rw [leads_cons_of_next rfl, ih]
          constructor
          · rintro ⟨edits, ⟨rfl, hlast⟩ | ⟨rfl, hlast⟩⟩
            · exact ⟨edits + 1, .inl ⟨rfl, hlast⟩⟩
            · exact ⟨edits + 1, .inr ⟨rfl, hlast⟩⟩
          · rintro ⟨_ | edits, ⟨heq, hlast⟩ | ⟨heq, hlast⟩⟩
            · cases heq
            · cases heq
            · exact ⟨edits, .inl ⟨(List.cons.inj heq).2, hlast⟩⟩
            · exact ⟨edits, .inr ⟨(List.cons.inj heq).2, hlast⟩⟩
      | archived =>
          rw [leads_cons_of_next rfl, leads_archived]
          constructor
          · rintro ⟨rfl, hlast⟩
            exact ⟨0, .inr ⟨rfl, hlast⟩⟩
          · rintro ⟨_ | edits, ⟨heq, hlast⟩ | ⟨heq, hlast⟩⟩
            · cases heq
            · exact ⟨(List.cons.inj heq).2, hlast⟩
            · cases heq
            · cases heq

/-- What can be done to a row that is not there. -/
theorem leads_absent :
    absent.Leads actions last ↔
      actions = [] ∧ last = absent ∨
        ∃ edits, actions = .created :: List.replicate edits .updated ∧ last = live ∨
          actions = .created :: (List.replicate edits .updated ++ [.archived]) ∧
            last = archived := by
  cases actions with
  | nil =>
      rw [leads_nil]
      constructor
      · exact fun heq => .inl ⟨rfl, heq.symm⟩
      · rintro (⟨_, rfl⟩ | ⟨_, ⟨heq, _⟩ | ⟨heq, _⟩⟩)
        · rfl
        · cases heq
        · cases heq
  | cons action rest =>
      cases action with
      | created =>
          rw [leads_cons_of_next rfl, leads_live]
          simp only [List.cons.injEq, true_and, reduceCtorEq, false_and, false_or]
      | updated =>
          refine ⟨fun h => absurd h (not_leads_cons rfl), ?_⟩
          rintro (⟨heq, _⟩ | ⟨_, ⟨heq, _⟩ | ⟨heq, _⟩⟩) <;> cases heq
      | archived =>
          refine ⟨fun h => absurd h (not_leads_cons rfl), ?_⟩
          rintro (⟨heq, _⟩ | ⟨_, ⟨heq, _⟩ | ⟨heq, _⟩⟩) <;> cases heq

end Phase

/-- The phase of a row that is there. -/
def Row.phase {kind : EntityKind} (row : kind.Row) : Phase :=
  if isLive row then .live else .archived

theorem Row.phase_of_isLive {kind : EntityKind} {row : kind.Row} (h : isLive row) :
    phase row = .live := if_pos h

theorem Row.phase_archive {kind : EntityKind} (row : kind.Row) (moment : Calendar.Moment) :
    phase (archive row moment) = .archived := by
  rw [phase, isLive_archive]
  rfl

/-- The phase of whatever an identifier leads to. -/
def Tables.phase (tables : Tables) (key : RowKey) : Phase :=
  (tables.find? key.id).elim .absent Row.phase

namespace Tables

variable {tables other : Tables} {kind : EntityKind} {id : Id kind}

theorem phase_of_find? {row : kind.Row} (h : tables.find? id = some row) :
    tables.phase ⟨kind, id⟩ = Row.phase row := by
  rw [phase, h]
  rfl

theorem phase_of_none (h : tables.find? id = none) : tables.phase ⟨kind, id⟩ = .absent := by
  rw [phase, h]
  rfl

theorem phase_congr (h : tables.find? id = other.find? id) :
    tables.phase ⟨kind, id⟩ = other.phase ⟨kind, id⟩ := by
  rw [phase, phase, h]

theorem phase_eq_absent : tables.phase ⟨kind, id⟩ = .absent ↔ tables.find? id = none := by
  refine ⟨fun h => ?_, phase_of_none⟩
  cases hfind : tables.find? id with
  | none => rfl
  | some row =>
      rw [phase_of_find? hfind, Row.phase] at h
      split at h <;> cases h

theorem phase_eq_archived : tables.phase ⟨kind, id⟩ = .archived ↔ tables.isArchived id := by
  rw [isArchived]
  cases hfind : tables.find? id with
  | none =>
      rw [phase_of_none hfind, Option.any_none]
      constructor <;> intro h <;> cases h
  | some row =>
      rw [phase_of_find? hfind, Option.any_some, Row.phase]
      cases Row.isLive row
      · exact ⟨fun _ => rfl, fun _ => rfl⟩
      · constructor <;> intro h <;> cases h

end Tables

namespace Memory

/-! ## Stories -/

/-- What a journal says of one row, in order. -/
def story (journal : List Entry) (key : RowKey) : List Action :=
  (journal.filter (·.key = key)).map Entry.action

theorem story_append (journal more : List Entry) (key : RowKey) :
    story (journal ++ more) key = story journal key ++ story more key := by
  rw [story, List.filter_append, List.map_append]
  rfl

theorem story_singleton {kind : EntityKind} (id : Id kind) (action : Action) (key : RowKey) :
    story [⟨kind, id, action⟩] key = if (⟨kind, id⟩ : RowKey) = key then [action] else [] := by
  by_cases hkey : (⟨kind, id⟩ : RowKey) = key
  · rw [if_pos hkey, story, List.filter_cons_of_pos]
    · rfl
    · exact decide_eq_true hkey
  · rw [if_neg hkey, story, List.filter_cons_of_neg]
    · rfl
    · exact fun heq => hkey (of_decide_eq_true heq)

theorem mem_story {journal : List Entry} {kind : EntityKind} {id : Id kind} {action : Action} :
    action ∈ story journal ⟨kind, id⟩ ↔ (⟨kind, id, action⟩ : Entry) ∈ journal := by
  simp only [story, List.mem_map, List.mem_filter, decide_eq_true_eq]
  constructor
  · rintro ⟨⟨otherKind, other, otherAction⟩, ⟨hmem, hkey⟩, rfl⟩
    cases hkey
    exact hmem
  · exact fun hmem => ⟨_, ⟨hmem, rfl⟩, rfl⟩

theorem story_eq_nil {tx : Transaction} {key : RowKey} (h : key ∉ tx.keys) :
    story tx.journal key = [] := by
  rw [story, List.map_eq_nil_iff, List.filter_eq_nil_iff]
  intro entry hmem hkey
  exact h (List.mem_map.mpr ⟨entry, hmem, of_decide_eq_true hkey⟩)

/-- The journal of a transaction leads from the tables that it began on to its own. -/
def Transaction.IsTold (tx : Transaction) (origin : Tables) : Prop :=
  ∀ key, (origin.phase key).Leads (story tx.journal key) (tx.working.phase key)

variable {origin : Tables} {tx : Transaction} {session after : Session}

theorem Transaction.isTold_start (origin : Tables) :
    (⟨origin, []⟩ : Transaction).IsTold origin :=
  fun _ => Phase.leads_nil.mpr rfl

/-- One more row may be written, if the action is in place. -/
theorem Transaction.IsTold.write (h : tx.IsTold origin) {kind : EntityKind} {row : kind.Row}
    {action : Action}
    (hnext : (tx.working.phase ⟨kind, Row.id row⟩).next? action = some (Row.phase row)) :
    (tx.write row action).IsTold origin := by
  rintro ⟨other, id⟩
  have hjournal : (tx.write row action).journal =
      tx.journal ++ [⟨kind, Row.id row, action⟩] := rfl
  rw [hjournal, story_append, story_singleton]
  apply (h ⟨other, id⟩).append
  by_cases hkey : (⟨kind, Row.id row⟩ : RowKey) = ⟨other, id⟩
  · cases hkey
    rw [if_pos rfl, Tables.phase_of_find? (find?_write_self tx row action)]
    exact (Phase.leads_cons_of_next hnext).mpr (Phase.leads_nil.mpr rfl)
  · rw [if_neg hkey, Tables.phase_congr (find?_write_of_key_ne hkey)]
    exact Phase.leads_nil.mpr rfl

/-- Every stroke is told. -/
theorem Stroke.isTold (h : Stroke session after)
    (hdrawn : session.transaction.working.Drawn session.registers.sequences)
    (htold : session.transaction.IsTold origin) : after.transaction.IsTold origin := by
  cases h with
  | tick => exact htold
  | draw => exact htold
  | @create kind row hid hlive =>
      have hnone : session.transaction.working.find? (Row.id row) = none := by
        rw [hid]
        exact find?_nextId hdrawn kind
      apply Transaction.IsTold.write htold
      show (session.transaction.working.phase _).next? _ = _
      rw [Tables.phase_of_none hnone, Row.phase_of_isLive hlive]
      rfl
  | revise old new hfound hlive hstays =>
      apply htold.write
      rw [Tables.phase_of_find? hfound, Row.phase_of_isLive hlive, Row.phase_of_isLive hstays]
      rfl
  | retire row moment hfound hlive =>
      apply htold.write
      rw [Row.id_archive, Tables.phase_of_find? hfound, Row.phase_of_isLive hlive,
        Row.phase_archive]
      rfl

end Memory

/-! ## Stories at a merge -/

namespace Committed

/-- The journal leads from nothing to the tables. -/
def IsTold (committed : Committed) : Prop :=
  ∀ key, Phase.absent.Leads (story committed.journal key) (committed.tables.phase key)

variable {origin : Tables} {committed after : Committed} {tx : Transaction}

/-- What a transaction that is merged has written is committed in the phase in which the
transaction found it. -/
theorem phase_of_merge (horigin : origin.Becomes committed.tables) (hdeparts : Departs origin tx)
    (hfresh : ∀ {kind : EntityKind} {id : Id kind},
      (⟨kind, id, .created⟩ : Entry) ∈ tx.journal → committed.tables.find? id = none)
    (h : committed.merge tx = .ok after) {kind : EntityKind} {id : Id kind}
    (hkey : (⟨kind, id⟩ : RowKey) ∈ tx.keys) :
    committed.tables.phase ⟨kind, id⟩ = origin.phase ⟨kind, id⟩ := by
  by_cases hcreated : (⟨kind, id, .created⟩ : Entry) ∈ tx.journal
  · rw [Tables.phase_of_none (hfresh hcreated),
      Tables.phase_of_none (hdeparts.created.mp hcreated).1]
  · obtain ⟨action, hentry⟩ := Transaction.mem_keys.mp hkey
    have haction : action ≠ .created := fun heq => hcreated (heq ▸ hentry)
    obtain ⟨old, hold⟩ := Option.isSome_iff_exists.mp
      ((hdeparts.created_or_origin hkey).resolve_left hcreated)
    obtain ⟨theirs, htheirs, hsucceeds⟩ := horigin hold
    -- A row that is written over must not have been archived meanwhile.
    have hlive := checkFresh_eq_ok.mp ((merge_eq_ok.mp h).1 _ hentry) haction theirs htheirs
    rw [Tables.phase_of_find? htheirs, Tables.phase_of_find? hold, Row.phase_of_isLive hlive,
      Row.phase_of_isLive (hsucceeds.isLive_of_isLive hlive)]

/-- A merge goes on with every story where it stands. -/
theorem isTold_merge (htold : committed.IsTold) (hdraft : tx.IsTold origin)
    (horigin : origin.Becomes committed.tables) (hdeparts : Departs origin tx)
    (hfresh : ∀ {kind : EntityKind} {id : Id kind},
      (⟨kind, id, .created⟩ : Entry) ∈ tx.journal → committed.tables.find? id = none)
    (h : committed.merge tx = .ok after) : after.IsTold := by
  rintro ⟨kind, id⟩
  have hphase : (⟨kind, id⟩ : RowKey) ∈ tx.keys →
      committed.tables.phase ⟨kind, id⟩ = origin.phase ⟨kind, id⟩ :=
    phase_of_merge horigin hdeparts hfresh h
  obtain ⟨_, _, rfl⟩ := merge_eq_ok.mp h
  rw [story_append]
  apply (htold ⟨kind, id⟩).append
  by_cases hkey : (⟨kind, id⟩ : RowKey) ∈ tx.keys
  · obtain ⟨row, hrow⟩ := Option.isSome_iff_exists.mp (hdeparts.present hkey)
    have hfound : (overlay committed.tables tx).find? id = tx.working.find? id :=
      (find?_overlay_of_mem _ hkey hrow).trans hrow.symm
    rw [hphase hkey, Tables.phase_congr hfound]
    exact hdraft ⟨kind, id⟩
  · have hkept : (overlay committed.tables tx).find? id = committed.tables.find? id := by
      rw [find?_overlay, if_neg hkey]
    rw [story_eq_nil hkey, Tables.phase_congr hkept]
    exact Phase.leads_nil.mpr rfl

end Committed

end VariantCatalog
