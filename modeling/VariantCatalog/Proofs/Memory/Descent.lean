/-
# What a transaction makes of its snapshot

Identifiers are drawn from sequences that only move up, so a row that is created
can be told from every row that was there before.  With that, the journal of a
transaction says how its working tables differ from the tables that it began on:
what is not in it was left alone, what it says was created was not there, and
everything else became of a row that was (`Departs`).

The same holds of what is committed: of each row that is there when a transaction
begins, something has become by the time that it commits, and again by the time
that it has committed (`Committed.becomes_merge`).  An archived row is final on
both ways.
-/

import VariantCatalog.Proofs.Memory.Merge

namespace VariantCatalog

open Memory

/-! ## Sequences -/

namespace Memory.Sequences

/-- Sequences that at least as much was drawn from. -/
instance : LE Sequences := ⟨fun first second => ∀ kind, first.last kind ≤ second.last kind⟩

theorem le_refl (sequences : Sequences) : sequences ≤ sequences := fun _ => Int.le_refl _

theorem le_trans {first second third : Sequences} (h : first ≤ second) (hnext : second ≤ third) :
    first ≤ third :=
  fun kind => Int.le_trans (h kind) (hnext kind)

theorem le_advance (sequences : Sequences) (kind : EntityKind) :
    sequences ≤ sequences.advance kind := by
  intro other
  by_cases hkind : kind = other
  · subst hkind
    rw [last_advance]
    omega
  · exact Int.le_of_eq (last_advance_of_ne sequences hkind).symm

end Memory.Sequences

theorem Memory.Session.number_nextId (session : Session) (kind : EntityKind) :
    (session.nextId kind).number = session.registers.sequences.last kind + 1 :=
  Sequences.last_advance _ kind

theorem Memory.Stroke.sequences_le {session after : Session} (h : Stroke session after) :
    session.registers.sequences ≤ after.registers.sequences := by
  cases h with
  | tick => exact Sequences.le_refl _
  | draw kind => exact Sequences.le_advance _ kind
  | create => exact Sequences.le_advance _ _
  | revise => exact Sequences.le_refl _
  | retire => exact Sequences.le_refl _

/-! ## Tables over time -/

/-- Whether two rows are joined to the same rows, in so far as an edit could change
that. -/
def Row.SameLinks : {kind : EntityKind} → kind.Row → kind.Row → Prop
  | .bridge => fun (first second : VariantBridge) =>
    second.product = first.product ∧ second.value = first.value
  | .root => fun _ _ => True
  | .option => fun _ _ => True
  | .value => fun _ _ => True
  | .product => fun _ _ => True

namespace Row

variable {kind : EntityKind}

theorem sameLinks_refl (row : kind.Row) : SameLinks row row := by
  cases kind <;> simp only [SameLinks, and_self]

theorem SameLinks.trans {first second third : kind.Row} (h : SameLinks first second)
    (hnext : SameLinks second third) : SameLinks first third := by
  cases kind with
  | bridge => exact ⟨Eq.trans hnext.1 h.1, Eq.trans hnext.2 h.2⟩
  | _ => trivial

theorem sameLinks_archive (row : kind.Row) (moment : Calendar.Moment) :
    SameLinks row (archive row moment) := by
  cases kind with
  | bridge => exact ⟨rfl, rfl⟩
  | _ => trivial

/-- Two rows that became of one have the same anchor. -/
theorem SameAnchor.of_common {old first second : kind.Row} (h : SameAnchor old first)
    (hother : SameAnchor old second) : SameAnchor first second := by
  cases kind with
  | root => exact Eq.trans hother (Eq.symm h)
  | option => exact Eq.trans hother (Eq.symm h)
  | value => exact Eq.trans hother (Eq.symm h)
  | product =>
      exact ⟨hother.1.trans h.1.symm, hother.2.1.trans h.2.1.symm,
        hother.2.2.trans h.2.2.symm⟩
  | bridge => trivial

end Row

namespace Tables

/-- Every row of the tables has a number that was drawn. -/
def Drawn (tables : Tables) (sequences : Sequences) : Prop :=
  ∀ ⦃kind : EntityKind⦄ ⦃id : Id kind⦄ ⦃row : kind.Row⦄, tables.find? id = some row →
    id.number ≤ sequences.last kind

/-- Of every row of the old tables something became in the new ones. -/
def Becomes (old new : Tables) : Prop :=
  ∀ ⦃kind : EntityKind⦄ ⦃id : Id kind⦄ ⦃row : kind.Row⦄, old.find? id = some row →
    ∃ later, new.find? id = some later ∧ Row.Succeeds row later

variable {first second third tables : Tables} {sequences more : Sequences}

theorem becomes_refl (tables : Tables) : tables.Becomes tables :=
  fun _ _ row h => ⟨row, h, Row.Succeeds.refl row⟩

theorem Becomes.trans (h : first.Becomes second) (hnext : second.Becomes third) :
    first.Becomes third := by
  intro kind id row hfind
  obtain ⟨middle, hmiddle, hsucceeds⟩ := h hfind
  obtain ⟨last, hlast, hlastSucceeds⟩ := hnext hmiddle
  exact ⟨last, hlast, hsucceeds.trans hlastSucceeds⟩

theorem Becomes.isSome (h : first.Becomes second) {kind : EntityKind} {id : Id kind}
    (hsome : (first.find? id).isSome) : (second.find? id).isSome := by
  obtain ⟨row, hfind⟩ := Option.isSome_iff_exists.mp hsome
  obtain ⟨later, hlater, _⟩ := h hfind
  exact Option.isSome_iff_exists.mpr ⟨later, hlater⟩

theorem Becomes.succeeds (h : first.Becomes second) {kind : EntityKind} {id : Id kind}
    {row later : kind.Row} (hrow : first.find? id = some row)
    (hlater : second.find? id = some later) : Row.Succeeds row later := by
  obtain ⟨found, hfound, hsucceeds⟩ := h hrow
  rw [hlater] at hfound
  cases hfound
  exact hsucceeds

/-- What is still live was live before. -/
theorem Becomes.live?_eq_some (h : first.Becomes second) {kind : EntityKind} {id : Id kind}
    {row : kind.Row} (hrow : first.find? id = some row) (hlive : (second.live? id).isSome) :
    first.live? id = some row := by
  obtain ⟨later, hlater⟩ := Option.isSome_iff_exists.mp hlive
  obtain ⟨hfound, hisLive⟩ := Tables.live?_eq_some.mp hlater
  exact Tables.live?_eq_some.mpr ⟨hrow, (h.succeeds hrow hfound).isLive_of_isLive hisLive⟩

theorem Drawn.mono (h : tables.Drawn sequences) (hle : sequences ≤ more) : tables.Drawn more :=
  fun kind _ _ hfind => Int.le_trans (h hfind) (hle kind)

/-- A number that was not drawn leads nowhere. -/
theorem Drawn.find?_eq_none (h : tables.Drawn sequences) {kind : EntityKind} {id : Id kind}
    (hlt : sequences.last kind < id.number) : tables.find? id = none := by
  rw [Option.eq_none_iff_forall_ne_some]
  intro row hfind
  exact absurd (h hfind) (Int.not_le.mpr hlt)

theorem Drawn.put (h : tables.Drawn sequences) {kind : EntityKind} {new : kind.Row}
    (hnew : (Row.id new).number ≤ sequences.last kind) : (tables.put new).Drawn sequences := by
  intro other id row hfind
  rcases of_find?_put hfind with heq | ⟨_, hold⟩
  · obtain ⟨rfl, rfl⟩ := AnyRow.mk.inj heq
    rw [← id_of_find? hfind]
    exact hnew
  · exact h hold

end Tables

namespace Memory

/-- No stroke puts a row under a number that was not drawn. -/
theorem Stroke.drawn {session after : Session} (h : Stroke session after)
    (hdrawn : session.transaction.working.Drawn session.registers.sequences) :
    after.transaction.working.Drawn after.registers.sequences := by
  have hmore : session.transaction.working.Drawn after.registers.sequences :=
    hdrawn.mono h.sequences_le
  cases h with
  | tick => exact hdrawn
  | draw => exact hmore
  | create row hid =>
      apply hmore.put
      rw [hid]
      exact Int.le_refl _
  | revise old new hfound => exact hdrawn.put (hdrawn hfound)
  | retire row moment hfound =>
      apply hdrawn.put
      rw [Row.id_archive]
      exact hdrawn hfound

/-! ## Departures -/

namespace Transaction

variable {tx : Transaction} {kind other : EntityKind} {row : kind.Row} {id : Id other}
  {action : Action}

theorem find?_write_self (tx : Transaction) (row : kind.Row) (action : Action) :
    (tx.write row action).working.find? (Row.id row) = some row :=
  Tables.find?_put_self tx.working row

theorem find?_write_of_key_ne (h : (⟨kind, Row.id row⟩ : RowKey) ≠ ⟨other, id⟩) :
    (tx.write row action).working.find? id = tx.working.find? id :=
  Tables.find?_put_of_key_ne tx.working row id h

theorem mem_keys_write :
    (⟨other, id⟩ : RowKey) ∈ (tx.write row action).keys ↔
      (⟨other, id⟩ : RowKey) ∈ tx.keys ∨ (⟨kind, Row.id row⟩ : RowKey) = ⟨other, id⟩ := by
  simp only [keys, write, List.map_append, List.map_cons, List.map_nil, List.mem_append,
    List.mem_singleton, Entry.key, eq_comm]

theorem mem_journal_write {entry : Entry} :
    entry ∈ (tx.write row action).journal ↔
      entry ∈ tx.journal ∨ entry = ⟨kind, Row.id row, action⟩ := by
  simp only [write, List.mem_append, List.mem_singleton]

end Transaction

/-- How the working tables of a transaction differ from the tables that it began
on. -/
structure Departs (origin : Tables) (tx : Transaction) : Prop where
  /-- What is not in the journal was left alone. -/
  untouched {kind : EntityKind} {id : Id kind} :
    (⟨kind, id⟩ : RowKey) ∉ tx.keys → tx.working.find? id = origin.find? id
  /-- What is in the journal can be found. -/
  present {kind : EntityKind} {id : Id kind} :
    (⟨kind, id⟩ : RowKey) ∈ tx.keys → (tx.working.find? id).isSome
  /-- What was created is what was not there. -/
  created {kind : EntityKind} {id : Id kind} :
    (⟨kind, id, .created⟩ : Entry) ∈ tx.journal ↔
      origin.find? id = none ∧ (tx.working.find? id).isSome
  /-- What was there has become something. -/
  becomes : origin.Becomes tx.working
  /-- What was there and was not edited is joined to the same rows. -/
  linked {kind : EntityKind} {id : Id kind} {old new : kind.Row} :
    (⟨kind, id, .updated⟩ : Entry) ∉ tx.journal → origin.find? id = some old →
      tx.working.find? id = some new → Row.SameLinks old new

namespace Departs

open Transaction

variable {origin : Tables} {tx : Transaction}

/-- A transaction that has just begun does not differ. -/
theorem refl (origin : Tables) : Departs origin ⟨origin, []⟩ where
  untouched _ := rfl
  present h := absurd h List.not_mem_nil
  created {kind id} := by
    refine ⟨fun h => absurd h List.not_mem_nil, fun ⟨hnone, hsome⟩ => ?_⟩
    rw [hnone] at hsome
    exact absurd hsome Bool.false_ne_true
  becomes := Tables.becomes_refl origin
  linked {kind _ old _} _ hold hnew := by
    rw [hold] at hnew
    cases hnew
    exact Row.sameLinks_refl old

theorem origin_of_working (h : Departs origin tx) {kind : EntityKind} {id : Id kind}
    (hnone : tx.working.find? id = none) : origin.find? id = none := by
  rw [Option.eq_none_iff_forall_ne_some]
  intro old hold
  obtain ⟨later, hlater, _⟩ := h.becomes hold
  rw [hnone] at hlater
  cases hlater

/-- What is in the journal was created or was there before. -/
theorem created_or_origin (h : Departs origin tx) {kind : EntityKind} {id : Id kind}
    (hkey : (⟨kind, id⟩ : RowKey) ∈ tx.keys) :
    (⟨kind, id, .created⟩ : Entry) ∈ tx.journal ∨ (origin.find? id).isSome := by
  cases horigin : origin.find? id with
  | none => exact .inl (h.created.mpr ⟨horigin, h.present hkey⟩)
  | some old => exact .inr rfl

/-- A new row can be written under a key that was never there. -/
theorem writeNew (h : Departs origin tx) {kind : EntityKind} (row : kind.Row)
    (hnew : tx.working.find? (Row.id row) = none) : Departs origin (tx.write row .created) := by
  have horigin := h.origin_of_working hnew
  have hfound := find?_write_self tx row .created
  have hkept : ∀ {other : EntityKind} {id : Id other} {old : other.Row},
      origin.find? id = some old →
        (tx.write row .created).working.find? id = tx.working.find? id := by
    intro other id old hold
    refine find?_write_of_key_ne fun hkey => ?_
    cases hkey
    rw [horigin] at hold
    cases hold
  refine ⟨fun {other id} hkey => ?_, fun {other id} hkey => ?_, fun {other id} => ?_,
    fun {other id old} hold => ?_, fun {other id old new} hupdated hold hfind => ?_⟩
  · rw [mem_keys_write, not_or] at hkey
    exact (find?_write_of_key_ne hkey.2).trans (h.untouched hkey.1)
  · by_cases hsame : (⟨kind, Row.id row⟩ : RowKey) = ⟨other, id⟩
    · cases hsame
      exact Option.isSome_of_eq_some hfound
    · rw [find?_write_of_key_ne hsame]
      exact h.present ((mem_keys_write.mp hkey).resolve_right hsame)
  · rw [mem_journal_write]
    by_cases hsame : (⟨kind, Row.id row⟩ : RowKey) = ⟨other, id⟩
    · cases hsame
      exact ⟨fun _ => ⟨horigin, Option.isSome_of_eq_some hfound⟩, fun _ => .inr rfl⟩
    · have hentry : (⟨other, id, .created⟩ : Entry) ≠ ⟨kind, Row.id row, .created⟩ := by
        intro heq
        cases heq
        exact hsame rfl
      rw [or_iff_left hentry, find?_write_of_key_ne hsame]
      exact h.created
  · rw [hkept hold]
    exact h.becomes hold
  · rw [hkept hold] at hfind
    rw [mem_journal_write, not_or] at hupdated
    exact h.linked hupdated.1 hold hfind

/-- A row can be written over by what becomes of it. -/
theorem writeOver (h : Departs origin tx) {kind : EntityKind} {old new : kind.Row}
    {action : Action} (hold : tx.working.find? (Row.id new) = some old)
    (hsucceeds : Row.Succeeds old new) (haction : action ≠ .created)
    (hlinks : action = .updated ∨ Row.SameLinks old new) :
    Departs origin (tx.write new action) := by
  have hfound := find?_write_self tx new action
  have hsome : ∀ {other : EntityKind} {id : Id other},
      ((tx.write new action).working.find? id).isSome ↔ (tx.working.find? id).isSome := by
    intro other id
    by_cases hsame : (⟨kind, Row.id new⟩ : RowKey) = ⟨other, id⟩
    · cases hsame
      rw [hold, hfound]
      exact Iff.rfl
    · rw [find?_write_of_key_ne hsame]
  refine ⟨fun {other id} hkey => ?_, fun {other id} hkey => ?_, fun {other id} => ?_,
    fun {other id first} hfirst => ?_, fun {other id first last} hupdated hfirst hlast => ?_⟩
  · rw [mem_keys_write, not_or] at hkey
    exact (find?_write_of_key_ne hkey.2).trans (h.untouched hkey.1)
  · rw [hsome]
    rcases mem_keys_write.mp hkey with hkey | hkey
    · exact h.present hkey
    · cases hkey
      exact Option.isSome_of_eq_some hold
  · have hentry : (⟨other, id, .created⟩ : Entry) ≠ ⟨kind, Row.id new, action⟩ := by
      intro heq
      cases heq
      exact haction rfl
    rw [mem_journal_write, or_iff_left hentry, hsome]
    exact h.created
  · obtain ⟨later, hlater, hlaterSucceeds⟩ := h.becomes hfirst
    by_cases hsame : (⟨kind, Row.id new⟩ : RowKey) = ⟨other, id⟩
    · cases hsame
      rw [hold] at hlater
      cases hlater
      exact ⟨new, hfound, hlaterSucceeds.trans hsucceeds⟩
    · exact ⟨later, (find?_write_of_key_ne hsame).trans hlater, hlaterSucceeds⟩
  · rw [mem_journal_write, not_or] at hupdated
    by_cases hsame : (⟨kind, Row.id new⟩ : RowKey) = ⟨other, id⟩
    · cases hsame
      rw [hfound] at hlast
      cases hlast
      rcases hlinks with rfl | hlinks
      · exact absurd rfl hupdated.2
      · exact (h.linked hupdated.1 hfirst hold).trans hlinks
    · rw [find?_write_of_key_ne hsame] at hlast
      exact h.linked hupdated.1 hfirst hlast

end Departs

variable {session after : Session}

theorem Stroke.find?_nextId (hdrawn : session.transaction.working.Drawn session.registers.sequences)
    (kind : EntityKind) : session.transaction.working.find? (session.nextId kind) = none := by
  refine hdrawn.find?_eq_none ?_
  rw [Session.number_nextId]
  omega

/-- Every stroke is a departure from the same tables. -/
theorem Stroke.departs {origin : Tables} (h : Stroke session after)
    (hdrawn : session.transaction.working.Drawn session.registers.sequences)
    (hdeparts : Departs origin session.transaction) : Departs origin after.transaction := by
  cases h with
  | tick => exact hdeparts
  | draw => exact hdeparts
  | @create kind row hid =>
      apply hdeparts.writeNew row
      rw [hid]
      exact find?_nextId hdrawn kind
  | revise old new hfound _ _ hsucceeds =>
      exact hdeparts.writeOver hfound hsucceeds nofun (.inl rfl)
  | retire row moment hfound =>
      refine hdeparts.writeOver ?_ (Row.Succeeds.archive row moment) nofun
        (.inr (Row.sameLinks_archive row moment))
      rw [Row.id_archive]
      exact hfound

/-- What a stroke creates has a number that was not drawn before. -/
theorem Stroke.created {kind : EntityKind} {id : Id kind} (h : Stroke session after)
    (hcreated : (⟨kind, id, .created⟩ : Entry) ∈ after.transaction.journal) :
    (⟨kind, id, .created⟩ : Entry) ∈ session.transaction.journal ∨
      session.registers.sequences.last kind < id.number := by
  cases h with
  | tick => exact .inl hcreated
  | draw => exact .inl hcreated
  | @create other row hid =>
      refine (Transaction.mem_journal_write.mp hcreated).imp_right fun heq => ?_
      cases heq
      rw [hid, Session.number_nextId]
      omega
  | revise =>
      refine .inl ((Transaction.mem_journal_write.mp hcreated).resolve_right ?_)
      exact fun heq => nomatch congrArg Entry.action heq
  | retire =>
      refine .inl ((Transaction.mem_journal_write.mp hcreated).resolve_right ?_)
      exact fun heq => nomatch congrArg Entry.action heq

end Memory

/-! ## What becomes of the committed rows -/

namespace Committed

variable {origin : Tables} {committed after : Committed} {tx : Transaction}

/-- A row that is written over was live, and what it says that no edit can change,
both sides have from the tables that the transaction began on. -/
theorem becomes_merge (horigin : origin.Becomes committed.tables) (hdeparts : Departs origin tx)
    (hfresh : ∀ {kind : EntityKind} {id : Id kind},
      (⟨kind, id, .created⟩ : Entry) ∈ tx.journal → committed.tables.find? id = none)
    (h : committed.merge tx = .ok after) : committed.tables.Becomes after.tables := by
  obtain ⟨hlive, _, rfl⟩ := merge_eq_ok.mp h
  intro kind id row hrow
  by_cases hkey : (⟨kind, id⟩ : RowKey) ∈ tx.keys
  · obtain ⟨action, hentry⟩ := Transaction.mem_keys.mp hkey
    have hcreated : (⟨kind, id, .created⟩ : Entry) ∉ tx.journal := by
      intro hcreated
      rw [hfresh hcreated] at hrow
      cases hrow
    obtain ⟨old, hold⟩ := Option.isSome_iff_exists.mp
      ((hdeparts.created_or_origin hkey).resolve_left hcreated)
    obtain ⟨mine, hmine, hmineSucceeds⟩ := hdeparts.becomes hold
    have htheirsSucceeds := horigin.succeeds hold hrow
    refine ⟨mine, ?_, ?_, ?_, ?_, fun hdead => ?_⟩
    · rw [find?_overlay, if_pos hkey, hmine]
      rfl
    · exact hmineSucceeds.id.trans htheirsSucceeds.id.symm
    · exact hmineSucceeds.createdOn.trans htheirsSucceeds.createdOn.symm
    · exact htheirsSucceeds.anchor.of_common hmineSucceeds.anchor
    · have haction : action ≠ .created := fun heq => hcreated (heq ▸ hentry)
      have hrowLive := checkFresh_eq_ok.mp (hlive _ hentry) haction row hrow
      rw [hdead] at hrowLive
      cases hrowLive
  · refine ⟨row, ?_, Row.Succeeds.refl row⟩
    rw [find?_overlay, if_neg hkey]
    exact hrow

theorem drawn_merge {sequences : Sequences} (hcommitted : committed.tables.Drawn sequences)
    (hworking : tx.working.Drawn sequences) (h : committed.merge tx = .ok after) :
    after.tables.Drawn sequences := by
  obtain ⟨_, _, rfl⟩ := merge_eq_ok.mp h
  intro kind id row hfind
  rw [find?_overlay] at hfind
  split at hfind
  · rcases Option.or_eq_some_iff.mp hfind with hfind | ⟨_, hfind⟩
    · exact hworking hfind
    · exact hcommitted hfind
  · exact hcommitted hfind

/-- After a merge, a row that was not there before is one that was created. -/
theorem created_of_merge (horigin : origin.Becomes committed.tables)
    (hdeparts : Departs origin tx) (h : committed.merge tx = .ok after) {kind : EntityKind}
    {id : Id kind} (hnone : committed.tables.find? id = none)
    (hsome : (after.tables.find? id).isSome) :
    (⟨kind, id, .created⟩ : Entry) ∈ tx.journal := by
  obtain ⟨_, _, rfl⟩ := merge_eq_ok.mp h
  rw [find?_overlay] at hsome
  by_cases hkey : (⟨kind, id⟩ : RowKey) ∈ tx.keys
  · refine (hdeparts.created_or_origin hkey).resolve_right fun hold => ?_
    have hcommitted := horigin.isSome hold
    rw [hnone] at hcommitted
    cases hcommitted
  · rw [if_neg hkey, hnone] at hsome
    cases hsome

end Committed

end VariantCatalog
