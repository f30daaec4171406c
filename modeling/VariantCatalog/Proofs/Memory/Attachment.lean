/-
# Options below their roots, values below their options

The stem of an option is its root, and that of a value its option.  Tables are
attached when every live row has a live stem.  A transaction that begins on attached
tables leaves its own tables attached, but this does not carry over to what is
committed with it: options and values may be added to a stem at any time, so unlike
keepers (`Tables.Foreruns`) a snapshot that has the stem need not have all that will
ever hang below it.

`Timely` says what is asked of a merge instead, and `Meets.attached_iff` that it is
neither too much nor too little.
-/

import VariantCatalog.Proofs.Memory.Upkeep

namespace VariantCatalog

open Memory

/-! ## Stems -/

/-- The row that an option or a value hangs below. -/
def Row.stems : {kind : EntityKind} → kind.Row → List RowKey
  | .root, _ => []
  | .option, row => [⟨.root, ProductOption.root row⟩]
  | .value, row => [⟨.option, OptionValue.option row⟩]
  | .product, _ => []
  | .bridge, _ => []

/-- A row refers to its stems and its keepers, and to nothing else. -/
theorem Row.mem_parents {kind : EntityKind} {row : kind.Row} {parent : RowKey}
    (h : parent ∈ parents row) : parent ∈ stems row ∨ parent ∈ keepers row := by
  cases kind with
  | root => cases h
  | option => exact .inl h
  | value => exact .inl h
  | product => exact .inr h
  | bridge => exact .inr h

theorem Row.SameAnchor.stems_eq {kind : EntityKind} {old new : kind.Row}
    (h : SameAnchor old new) : stems new = stems old := by
  cases kind with
  | option =>
      have hroot : ProductOption.root new = ProductOption.root old := h
      simp only [stems, hroot]
  | value =>
      have hoption : OptionValue.option new = OptionValue.option old := h
      simp only [stems, hoption]
  | _ => rfl

namespace Tables

/-- Whatever is live has a live stem. -/
def Attached (tables : Tables) : Prop :=
  ∀ ⦃kind : EntityKind⦄ ⦃id : Id kind⦄ ⦃row : kind.Row⦄, tables.live? id = some row →
    ∀ stem ∈ Row.stems row, (tables.live? stem.id).isSome

theorem attached_empty : empty.Attached := by
  intro kind id row hlive
  rw [live?_eq_some, find?_empty] at hlive
  cases hlive.1

/-- What it comes to for options and for values. -/
theorem attached_iff {tables : Tables} :
    tables.Attached ↔
      (∀ (id : Id .option) (option : ProductOption), tables.live? id = some option →
        ∃ root : ProductRoot, tables.live? option.root = some root) ∧
      ∀ (id : Id .value) (value : OptionValue), tables.live? id = some value →
        ∃ option : ProductOption, tables.live? value.option = some option := by
  constructor
  · intro h
    exact ⟨fun id option hlive =>
        Option.isSome_iff_exists.mp (h hlive ⟨.root, option.root⟩ List.mem_cons_self),
      fun id value hlive =>
        Option.isSome_iff_exists.mp (h hlive ⟨.option, value.option⟩ List.mem_cons_self)⟩
  · rintro ⟨hoptions, hvalues⟩ kind id row hlive stem hstem
    cases kind with
    | option =>
        cases List.mem_singleton.mp hstem
        exact Option.isSome_iff_exists.mpr (hoptions id row hlive)
    | value =>
        cases List.mem_singleton.mp hstem
        exact Option.isSome_iff_exists.mpr (hvalues id row hlive)
    | root => cases hstem
    | product => cases hstem
    | bridge => cases hstem

/-- Whatever is live and has its stem among the rows is one of them. -/
structure Uproots (tables : Tables) (rows : List AnyRow) : Prop where
  options {root : ProductRoot} {option : ProductOption} : (⟨.root, root⟩ : AnyRow) ∈ rows →
    tables.live? option.id = some option → option.root = root.id →
      (⟨.option, option⟩ : AnyRow) ∈ rows
  values {option : ProductOption} {value : OptionValue} : (⟨.option, option⟩ : AnyRow) ∈ rows →
    tables.live? value.id = some value → value.option = option.id →
      (⟨.value, value⟩ : AnyRow) ∈ rows

theorem Uproots.mem_of_stem {tables : Tables} {rows : List AnyRow} (h : tables.Uproots rows)
    {kind : EntityKind} {row : kind.Row} (hlive : tables.live? (Row.id row) = some row)
    {stem : RowKey} (hstem : stem ∈ Row.stems row) (hmem : stem ∈ rows.map AnyRow.key) :
    (⟨kind, row⟩ : AnyRow) ∈ rows := by
  cases kind with
  | option =>
      cases List.mem_singleton.mp hstem
      obtain ⟨root, hroot, hid⟩ := AnyRow.exists_of_mem_keys hmem
      exact h.options hroot hlive hid.symm
  | value =>
      cases List.mem_singleton.mp hstem
      obtain ⟨option, hoption, hid⟩ := AnyRow.exists_of_mem_keys hmem
      exact h.values hoption hlive hid.symm
  | root => cases hstem
  | product => cases hstem
  | bridge => cases hstem

theorem isArchived_iff {tables : Tables} {kind : EntityKind} {id : Id kind} :
    tables.isArchived id ↔ (tables.find? id).isSome ∧ tables.live? id = none := by
  rw [isArchived, live?, Table.live?, find?]
  cases (tables.table kind).find? id with
  | none => simp
  | some row => simp

end Tables

/-! ## Transactions that leave tables attached -/

namespace Memory

variable {origin : Tables} {rows : List AnyRow} {tx : Transaction}

/-- A transaction that has left its tables attached, and all that it has created live. -/
structure Transaction.Attaches (tx : Transaction) : Prop where
  attached : tx.working.Attached
  live {kind : EntityKind} {id : Id kind} {row : kind.Row} :
    (⟨kind, id, .created⟩ : Entry) ∈ tx.journal → tx.working.find? id = some row →
      Row.isLive row

/-- Whatever is archived is archived with all that is live and hangs below it. -/
theorem Retires.attaches (h : Retires origin rows tx) (hattached : origin.Attached)
    (huproots : origin.Uproots rows) : tx.Attaches where
  attached kind id row hlive stem hstem := by
    obtain ⟨horigin, hkey⟩ := h.live?_eq_some.mp hlive
    obtain rfl := Tables.id_of_find? (Tables.live?_eq_some.mp horigin).1
    obtain ⟨found, hfound⟩ := Option.isSome_iff_exists.mp (hattached horigin stem hstem)
    apply Option.isSome_of_eq_some
    apply h.live?_eq_some.mpr
    refine ⟨hfound, fun hmem => hkey ?_⟩
    exact List.mem_map.mpr ⟨_, huproots.mem_of_stem horigin hstem hmem, rfl⟩
  live hcreated := absurd hcreated h.settled.created

/-- Live rows are created below each other, or below what is live. -/
theorem Inserts.attaches (h : Inserts origin rows tx) (hdeparts : Departs origin tx)
    (hattached : origin.Attached)
    (hlive : ∀ {kind : EntityKind} {row : kind.Row}, (⟨kind, row⟩ : AnyRow) ∈ rows →
      Row.isLive row)
    (hstems : ∀ {kind : EntityKind} {row : kind.Row}, (⟨kind, row⟩ : AnyRow) ∈ rows →
      ∀ stem ∈ Row.stems row, stem ∈ rows.map AnyRow.key ∨ (origin.live? stem.id).isSome) :
    tx.Attaches where
  attached kind id row hrow stem hstem := by
    have hkept : (origin.live? stem.id).isSome → (tx.working.live? stem.id).isSome := by
      intro hsome
      obtain ⟨found, hfound⟩ := Option.isSome_iff_exists.mp hsome
      obtain ⟨hfind, hfoundLive⟩ := Tables.live?_eq_some.mp hfound
      exact Tables.isSome_live? (h.find?_of_origin hdeparts hfind) hfoundLive
    obtain ⟨hfind, hrowLive⟩ := Tables.live?_eq_some.mp hrow
    rcases h.find?_eq_some.mp hfind with ⟨hnew, _⟩ | ⟨_, horigin⟩
    · rcases hstems hnew stem hstem with hmem | hsome
      · obtain ⟨found, hfound, hid⟩ := AnyRow.exists_of_mem_keys hmem
        rw [← hid]
        exact Tables.isSome_live? (h.find?_of_mem hfound) (hlive hfound)
      · exact hkept hsome
    · exact hkept (hattached (Tables.live?_eq_some.mpr ⟨horigin, hrowLive⟩) stem hstem)
  live {kind id row} hcreated hrow := by
    obtain ⟨new, hnew, rfl⟩ := AnyRow.exists_of_mem_keys (h.mem_journal.mp hcreated).2
    rw [h.find?_of_mem hnew] at hrow
    cases hrow
    exact hlive hnew

/-- A transaction that creates nothing leaves its tables attached if whatever was live and
is a stem of a live row stays live. -/
theorem Transaction.Settled.attaches (h : tx.Settled) (hdeparts : Departs origin tx)
    (hattached : origin.Attached)
    (hkept : ∀ {kind : EntityKind} {id : Id kind}, (origin.live? id).isSome →
      (tx.working.live? id).isSome) : tx.Attaches where
  attached kind id row hlive stem hstem := by
    obtain ⟨hrow, hisLive⟩ := Tables.live?_eq_some.mp hlive
    obtain ⟨old, hold, hsucceeds, _⟩ := h.exists_origin hdeparts hrow
    rw [hsucceeds.anchor.stems_eq] at hstem
    have holdLive := Tables.live?_eq_some.mpr ⟨hold, hsucceeds.isLive_of_isLive hisLive⟩
    exact hkept (hattached holdLive stem hstem)
  live hcreated := absurd hcreated h.created

end Memory

/-! ## Merges that come in time -/

/-- A transaction comes in time to be merged: what it creates it creates below its own
rows or below rows that are still live, and where it has archived a row, nothing is live
below it that was not there when it began. -/
structure Timely (origin committed : Tables) (tx : Transaction) : Prop where
  created {kind : EntityKind} {id : Id kind} {row : kind.Row} :
    (⟨kind, id, .created⟩ : Entry) ∈ tx.journal → tx.working.find? id = some row →
      ∀ stem ∈ Row.stems row, (⟨stem.kind, stem.id, .created⟩ : Entry) ∈ tx.journal ∨
        (committed.live? stem.id).isSome
  archived {kind : EntityKind} {id : Id kind} {row : kind.Row} :
    committed.live? id = some row → ∀ stem ∈ Row.stems row,
      tx.working.isArchived stem.id → (origin.find? id).isSome

/-- A transaction that is merged into what it began on comes in time. -/
theorem Timely.of_undisturbed {origin : Tables} {tx : Transaction} (hdeparts : Departs origin tx)
    (hattaches : tx.Attaches) : Timely origin origin tx where
  created {kind id row} hcreated hrow stem hstem := by
    have hlive := Tables.live?_eq_some.mpr ⟨hrow, hattaches.live hcreated hrow⟩
    obtain ⟨found, hfound⟩ := Option.isSome_iff_exists.mp (hattaches.attached hlive stem hstem)
    obtain ⟨hfind, hfoundLive⟩ := Tables.live?_eq_some.mp hfound
    cases hold : origin.find? stem.id with
    | none => exact .inl (hdeparts.created.mpr ⟨hold, Option.isSome_of_eq_some hfind⟩)
    | some old =>
        have hsucceeds := hdeparts.becomes.succeeds hold hfind
        exact .inr (Tables.isSome_live? hold (hsucceeds.isLive_of_isLive hfoundLive))
  archived hlive _ _ _ := Option.isSome_of_eq_some (Tables.live?_eq_some.mp hlive).1

namespace Meets

variable {origin : Tables} {committed after : Committed} {tx : Transaction}

/-- Where a row stays live through a merge in time, its stem is live in the transaction, if
it was in the snapshot. -/
theorem live?_stem (h : Meets origin committed tx after)
    (htimely : Timely origin committed.tables tx) (hattaches : tx.Attaches)
    {kind : EntityKind} {id : Id kind} {row old : kind.Row}
    (hold : committed.tables.live? id = some old) (hlive : after.tables.live? id = some row)
    {stem : RowKey} (hstem : stem ∈ Row.stems old) (hsome : (origin.find? stem.id).isSome) :
    (tx.working.live? stem.id).isSome := by
  obtain ⟨first, hfirst⟩ := Option.isSome_iff_exists.mp hsome
  obtain ⟨mine, hmine, _⟩ := h.departs.becomes hfirst
  by_contra hdead
  have harchived : tx.working.isArchived stem.id := Tables.isArchived_iff.mpr
    ⟨Option.isSome_of_eq_some hmine, Option.not_isSome_iff_eq_none.mp hdead⟩
  obtain ⟨hfound, _⟩ := Tables.live?_eq_some.mp hold
  -- So the row was in the snapshot, and the transaction has left it live.
  have horigin := htimely.archived hold stem hstem harchived
  obtain ⟨row, hrow⟩ := Option.isSome_iff_exists.mp horigin
  obtain ⟨kept, hkept⟩ := h.live?_working horigin hlive
  have hanchor := (h.departs.becomes.succeeds hrow (Tables.live?_eq_some.mp hkept).1).anchor
  rw [(h.becomes.succeeds hrow hfound).anchor.stems_eq, ← hanchor.stems_eq] at hstem
  exact hdead (hattaches.attached hkept stem hstem)

/-- A merge in time leaves everything attached. -/
theorem attached_after (h : Meets origin committed tx after) (hattached : committed.tables.Attached)
    (hattaches : tx.Attaches) (htimely : Timely origin committed.tables tx) :
    after.tables.Attached := by
  intro kind id row hlive stem hstem
  have hrow := (Tables.live?_eq_some.mp hlive).1
  cases hold : committed.tables.find? id with
  | none =>
      obtain ⟨hcreated, hmine⟩ := h.find?_of_new hold hrow
      have hmineLive := Tables.live?_eq_some.mpr ⟨hmine, (Tables.live?_eq_some.mp hlive).2⟩
      have hstemMine := hattaches.attached hmineLive stem hstem
      rcases htimely.created hcreated hmine stem hstem with hstemCreated | hstemLive
      · obtain ⟨found, hfound⟩ := Option.isSome_iff_exists.mp hstemMine
        obtain ⟨hfind, hfoundLive⟩ := Tables.live?_eq_some.mp hfound
        exact Tables.isSome_live? ((h.find?_of_created hstemCreated).trans hfind) hfoundLive
      · exact h.live?_after hstemLive fun _ => hstemMine
  | some old =>
      have holdLive := h.live?_committed hold hlive
      rw [(h.becomes_after.succeeds hold hrow).anchor.stems_eq] at hstem
      exact h.live?_after (hattached holdLive stem hstem)
        (h.live?_stem htimely hattaches holdLive hlive hstem)

/-- A merge that leaves everything attached came in time. -/
theorem timely (h : Meets origin committed tx after) (hattaches : tx.Attaches)
    (hafter : after.tables.Attached) : Timely origin committed.tables tx where
  created {kind id row} hcreated hrow stem hstem := by
    have hlive : after.tables.live? id = some row := Tables.live?_eq_some.mpr
      ⟨(h.find?_of_created hcreated).trans hrow, hattaches.live hcreated hrow⟩
    obtain ⟨found, hfound⟩ := Option.isSome_iff_exists.mp (hafter hlive stem hstem)
    cases hold : committed.tables.find? stem.id with
    | none => exact .inl (h.find?_of_new hold (Tables.live?_eq_some.mp hfound).1).1
    | some old => exact .inr (Option.isSome_of_eq_some (h.live?_committed hold hfound))
  archived {kind id row} hlive stem hstem harchived := by
    obtain ⟨hrow, hisLive⟩ := Tables.live?_eq_some.mp hlive
    obtain ⟨hsome, hdead⟩ := Tables.isArchived_iff.mp harchived
    by_contra hnone
    -- The transaction has not come near the row, so its stem is still live afterwards.
    have hkey : (⟨kind, id⟩ : RowKey) ∉ tx.keys := by
      intro hkey
      have hcreated := (h.departs.created_or_origin hkey).resolve_right hnone
      rw [h.fresh hcreated] at hrow
      cases hrow
    have hlater : after.tables.live? id = some row :=
      Tables.live?_eq_some.mpr ⟨(h.find?_of_not_mem hkey).trans hrow, hisLive⟩
    obtain ⟨found, hfound⟩ := Option.isSome_iff_exists.mp (hafter hlater stem hstem)
    -- But whether the transaction wrote the stem or found it archived, it is not.
    have hmine : ∃ mine, tx.working.live? stem.id = some mine := by
      by_cases hstemKey : stem ∈ tx.keys
      · obtain ⟨hfind, hfoundLive⟩ := Tables.live?_eq_some.mp hfound
        rw [h.find?_of_mem hstemKey] at hfind
        exact ⟨found, Tables.live?_eq_some.mpr ⟨hfind, hfoundLive⟩⟩
      · rw [h.departs.untouched hstemKey] at hsome
        exact h.live?_working hsome hfound
    obtain ⟨mine, hmine⟩ := hmine
    rw [hdead] at hmine
    cases hmine

/-- **A merge leaves everything attached just if it comes in time.** -/
theorem attached_iff (h : Meets origin committed tx after) (hattached : committed.tables.Attached)
    (hattaches : tx.Attaches) :
    after.tables.Attached ↔ Timely origin committed.tables tx :=
  ⟨h.timely hattaches, h.attached_after hattached hattaches⟩

end Meets

end VariantCatalog
