/-
# A stale snapshot makes no difference to a creation

When the body of a creation has come to its end, its transaction has found its names free
on the tables that it began on, and those may be long out of date.  What it is told when it
commits does not depend on that: the rows that it has created are checked against what is
committed by then, and all that they can clash with there are the names that it gives.  So
it is merged just if these are free now (`Creation.Expands.merge_cases`), and this is also
what decides about the same creation if it is carried out from the start.

A row cannot be without its parents when it is merged, since a creation creates the parents
of all its rows.  For the same reason no name of an option, no value and no bridge can be
in the way that is not its own.
-/

import VariantCatalog.Proofs.Interleaving.Acceptance
import VariantCatalog.Proofs.Interleaving.Retrieval

namespace VariantCatalog

open Memory

/-! ## Merges of created rows -/

namespace Memory.Inserts

variable {origin tables : Tables} {rows : List AnyRow} {tx : Transaction} {kind : EntityKind}
  {committed : Committed}

/-- After a merge there are the rows that were created, and those that were there. -/
theorem find?_overlay_cases (h : Inserts origin rows tx) {id : Id kind} {row : kind.Row}
    (hrow : (Committed.overlay tables tx).find? id = some row) :
    (⟨kind, row⟩ : AnyRow) ∈ rows ∨ tables.find? id = some row := by
  rw [Committed.find?_overlay, h.keys_eq] at hrow
  split at hrow
  · next hkey =>
    obtain ⟨new, hnew, rfl⟩ := AnyRow.exists_of_mem_keys hkey
    rw [h.find?_of_mem hnew] at hrow
    cases hrow
    exact .inl hnew
  · exact .inr hrow

theorem find?_overlay_of_mem (h : Inserts origin rows tx) {row : kind.Row}
    (hmem : (⟨kind, row⟩ : AnyRow) ∈ rows) :
    (Committed.overlay tables tx).find? (Row.id row) = some row := by
  apply Committed.find?_overlay_of_mem _ _ (h.find?_of_mem hmem)
  rw [h.keys_eq]
  exact List.mem_map.mpr ⟨_, hmem, rfl⟩

/-- A row whose parents were created with it finds them when it is merged. -/
theorem isSome_parent (h : Inserts origin rows tx)
    (hclosed : ∀ any ∈ rows, ∀ parent ∈ Row.parents any.row, parent ∈ rows.map AnyRow.key)
    {any : AnyRow} (hany : any ∈ rows) {parent : RowKey} (hparent : parent ∈ Row.parents any.row) :
    ((Committed.overlay tables tx).find? parent.id).isSome := by
  obtain ⟨above, habove, heq⟩ := AnyRow.exists_of_mem_keys (hclosed any hany parent hparent)
  rw [← heq]
  exact Option.isSome_of_eq_some (h.find?_overlay_of_mem habove)

theorem forM_checkFresh (h : Inserts origin rows tx) :
    tx.journal.forM committed.checkFresh = .ok () := by
  apply (Committed.forM_eq_ok _ _).mpr
  intro entry hentry
  have hcreated : entry.action = .created := (h.mem_journal.mp hentry).1
  exact Committed.checkFresh_eq_ok.mpr fun haction => absurd hcreated haction

/-- So such rows are merged, or one of them is in conflict. -/
theorem merge_cases (h : Inserts origin rows tx)
    (hclosed : ∀ any ∈ rows, ∀ parent ∈ Row.parents any.row, parent ∈ rows.map AnyRow.key) :
    (∃ after, committed.merge tx = .ok after) ∨
      ∃ constraint, committed.merge tx = .error (.uniqueViolation constraint) := by
  have hcheck : ∀ entry ∈ tx.journal,
      Committed.checkEntry (Committed.overlay committed.tables tx) entry = .ok () ∨
        ∃ error, Committed.checkEntry (Committed.overlay committed.tables tx) entry =
          .error error ∧ ∃ constraint, error = .uniqueViolation constraint := by
    intro entry hentry
    obtain ⟨row, hrow, hid⟩ := AnyRow.exists_of_mem_keys (h.mem_journal.mp hentry).2
    rw [Committed.checkEntry, ← hid, h.find?_overlay_of_mem hrow]
    rcases Tables.check_cases fun parent => h.isSome_parent hclosed hrow with
      hok | ⟨hconflict, _⟩
    · exact .inl hok
    · exact .inr ⟨_, hconflict, _, rfl⟩
  rw [Committed.merge_of_fresh h.forM_checkFresh]
  rcases Committed.forM_cases hcheck with hok | ⟨_, herror, constraint, rfl⟩
  · rw [hok]
    exact .inl ⟨_, rfl⟩
  · rw [herror]
    exact .inr ⟨constraint, rfl⟩

/-- They are merged if they clash with nothing that is there. -/
theorem exists_merge_of_apart (h : Inserts origin rows tx) (hworking : tx.working.Intact)
    (hclosed : ∀ any ∈ rows, ∀ parent ∈ Row.parents any.row, parent ∈ rows.map AnyRow.key)
    (hapart : ∀ {kind : EntityKind} {id : Id kind} {new old : kind.Row},
      (⟨kind, new⟩ : AnyRow) ∈ rows → committed.tables.find? id = some old →
        Tables.clash new old = false) :
    ∃ after, committed.merge tx = .ok after := by
  refine ⟨_, Committed.merge_eq_ok.mpr
    ⟨(Committed.forM_eq_ok _ _).mp h.forM_checkFresh, fun entry hentry => ?_, rfl⟩⟩
  obtain ⟨row, hrow, hid⟩ := AnyRow.exists_of_mem_keys (h.mem_journal.mp hentry).2
  apply Committed.checkEntry_eq_ok.mpr
  rw [← hid, h.find?_overlay_of_mem hrow]
  rintro _ ⟨⟩
  refine Tables.check_eq_ok.mpr ⟨Tables.brokenReference?_eq_none.mpr ?_, ?_⟩
  · exact fun parent => h.isSome_parent hclosed hrow
  · apply Tables.hasRival_eq_false.mpr
    intro rival hrival hne
    rcases h.find?_overlay_cases hrival with hnew | hold
    · -- Among themselves the rows were checked when they were created.
      exact hworking.clash_eq_false (h.find?_of_mem hrow) (h.find?_of_mem hnew) hne.symm
    · exact hapart hrow hold

end Memory.Inserts

/-! ## Clashes -/

/-- Rows clash over a prefix or a SKU, or else have a parent in common. -/
theorem Tables.exists_parent_of_clash {kind : EntityKind} {first second : kind.Row}
    (hkind : ¬ kind.IsAnchored) (h : clash first second = true) :
    ∃ parent ∈ Row.parents first, parent ∈ Row.parents second := by
  cases kind with
  | root => exact absurd trivial hkind
  | product => exact absurd trivial hkind
  | option =>
      obtain ⟨_, _, hroot, _⟩ := clash_option_iff.mp h
      refine ⟨_, List.mem_cons_self, ?_⟩
      rw [hroot]
      exact List.mem_cons_self
  | value =>
      obtain ⟨_, _, hoption, _⟩ := clash_value_iff.mp h
      refine ⟨_, List.mem_cons_self, ?_⟩
      rw [hoption]
      exact List.mem_cons_self
  | bridge =>
      obtain ⟨_, _, hproduct, _⟩ := clash_bridge_iff.mp h
      refine ⟨_, List.mem_cons_self, ?_⟩
      rw [hproduct]
      exact List.mem_cons_self

namespace Committed.Gains

variable {before after : Committed} {rows : List AnyRow} {kind : EntityKind}

/-- In tables that keep all constraints, what was gained clashes with nothing that was
there. -/
theorem clash_eq_false (h : before.Gains rows after) (hafter : after.tables.Intact)
    {new old : kind.Row} (hnew : (⟨kind, new⟩ : AnyRow) ∈ rows) {id : Id kind}
    (hold : before.tables.find? id = some old) : Tables.clash new old = false := by
  apply hafter.clash_eq_false (h.find?_of_mem hnew) ((h.found _ _).mpr (.inl hold))
  rintro rfl
  rw [h.absent _ hnew] at hold
  cases hold

/-- Nor do two of the rows that were gained. -/
theorem pairwise_clash_eq_false (h : before.Gains rows after) (hafter : after.tables.Intact)
    {created : List kind.Row} (hcreated : (AnyRow.ofRows kind created).Sublist rows) :
    created.Pairwise fun first second => Tables.clash first second = false := by
  apply hafter.pairwise_clash_eq_false (precedes_of_ascending h.ascending hcreated)
  exact fun row hrow => h.find?_of_mem (hcreated.subset (AnyRow.mem_ofRows.mpr hrow))

end Committed.Gains

/-! ## Creations -/

theorem Growth.root_mem_rows {growth : Growth} {row : ProductRoot} :
    (⟨.root, row⟩ : AnyRow) ∈ growth.rows ↔ row = growth.root := by
  simp [rows, ProductOption.rows, Variant.rows]

namespace Creation.Expands

variable {creation : Creation} {growth : Growth}

/-- A creation creates the parents of all its rows. -/
theorem parent_mem_rows (h : creation.Expands growth) :
    ∀ any ∈ growth.rows, ∀ parent ∈ Row.parents any.row, parent ∈ growth.rows.map AnyRow.key := by
  intro any hany parent hparent
  rcases Row.mem_parents hparent with hstem | hkeeper
  · exact h.stems hany hstem
  · exact h.areRooted_rows.keepers hany hkeeper

/-- With free names, a creation clashes with nothing that was there before it. -/
theorem clash_eq_false (h : creation.Expands growth) {tables : Tables}
    (hfree : creation.Unclaimed tables) (hintact : tables.Intact)
    (habsent : ∀ any ∈ growth.rows, tables.find? (Row.id any.row) = none) {kind : EntityKind}
    {id : Id kind} {new old : kind.Row} (hnew : (⟨kind, new⟩ : AnyRow) ∈ growth.rows)
    (hold : tables.find? id = some old) : Tables.clash new old = false := by
  rw [Bool.eq_false_iff]
  intro hclash
  have hapart : kind.IsAnchored := by
    by_contra hkind
    obtain ⟨parent, hparent, hshared⟩ := Tables.exists_parent_of_clash hkind hclash
    obtain ⟨above, habove, heq⟩ :=
      AnyRow.exists_of_mem_keys (h.parent_mem_rows _ hnew parent hparent)
    have hsome := hintact.referenced hold parent hshared
    rw [← heq, habsent _ habove] at hsome
    cases hsome
  cases kind with
  | root =>
      obtain rfl := Growth.root_mem_rows.mp hnew
      have hsame : growth.root.skuPrefix = ProductRoot.skuPrefix old := of_decide_eq_true hclash
      exact hfree.skuPrefix old (Table.mem_of_find? hold) (hsame.symm.trans h.skuPrefix)
  | product =>
      obtain ⟨variant, hvariant, rfl⟩ := Growth.product_mem_rows.mp hnew
      have hsame : variant.product.sku = Product.sku old := of_decide_eq_true hclash
      apply hfree.skus old (Table.mem_of_find? hold)
      rw [h.skus_eq, ← hsame]
      exact List.mem_map.mpr ⟨variant, hvariant, rfl⟩
  | option => cases hapart
  | value => cases hapart
  | bridge => cases hapart

/-- The transaction of a creation is merged just if the names of the creation are free by
then, and else it is in conflict. -/
theorem merge_cases (h : creation.Expands growth) {origin : Tables} {tx : Transaction}
    {committed : Committed} (hinserts : Inserts origin growth.rows tx)
    (hworking : tx.working.Intact) (hintact : committed.tables.Intact)
    (hfresh : ∀ {kind : EntityKind} {id : Id kind},
      (⟨kind, id, .created⟩ : Entry) ∈ tx.journal → committed.tables.find? id = none) :
    (∃ after, committed.merge tx = .ok after ∧ committed.Gains growth.rows after ∧
        creation.Unclaimed committed.tables) ∨
      ∃ constraint, committed.merge tx = .error (.uniqueViolation constraint) ∧
        ¬ creation.Unclaimed committed.tables := by
  have hclosed := h.parent_mem_rows
  rcases @Inserts.merge_cases _ _ _ committed hinserts hclosed with
    ⟨after, hmerge⟩ | ⟨constraint, hmerge⟩
  · have hgains := hinserts.gains_merge hfresh hmerge
    have hafter := Committed.intact_merge hintact hworking.bare hmerge
    refine .inl ⟨after, hmerge, hgains, h.unclaimed_of_apart ?_ ?_⟩
    · exact fun hnew hold => hgains.clash_eq_false hafter hnew hold
    · exact fun hcreated => hgains.pairwise_clash_eq_false hafter hcreated
  · refine .inr ⟨constraint, hmerge, fun hfree => ?_⟩
    have habsent : ∀ any ∈ growth.rows, committed.tables.find? (Row.id any.row) = none := by
      intro any hany
      exact hfresh (hinserts.mem_journal.mpr ⟨rfl, List.mem_map.mpr ⟨any, hany, rfl⟩⟩)
    obtain ⟨after, hok⟩ := hinserts.exists_merge_of_apart hworking hclosed
      fun hnew hold => h.clash_eq_false hfree hintact habsent hnew hold
    rw [hmerge] at hok
    cases hok

end Creation.Expands

/-! ## Late commits and fresh ones -/

namespace Memory

/-- Two outcomes tell the same: both are a success, or both are a conflict. -/
def Agree {α : Type} (first second : Except CatalogError α) : Prop :=
  (∃ result other, first = .ok result ∧ second = .ok other) ∨
    ∃ detail other, first = .error (.conflict detail) ∧ second = .error (.conflict other)

/-- The transaction of an operation whose body has come to its end, and its result. -/
def Progress.done? {operation : Operation} :
    Progress operation → Option (Transaction × operation.Result)
  | .working tx (.done result) => some (tx, result)
  | .committing tx result => some (tx, result)
  | _ => none

theorem Progress.done_cases {operation : Operation} {progress : Progress operation}
    {tx : Transaction} {result : operation.Result} (h : progress.done? = some (tx, result)) :
    progress = .working tx (.done result) ∨ progress = .committing tx result := by
  cases progress with
  | working tx rest =>
      cases rest with
      | done result =>
          cases h
          exact .inl rfl
      | refuse error => cases h
      | call request next => cases h
  | committing tx result =>
      cases h
      exact .inr rfl
  | ended outcome => cases h

namespace System

/-- An operation whose body has come to its end has its effect. -/
theorem effect_of_done {moves : List Move} {name : Nat} {origin : Tables}
    {operation : Operation} {progress : Progress operation} {tx : Transaction}
    {result : operation.Result}
    (hclient : (run moves).client name = some ⟨origin, .serving operation progress⟩)
    (hdone : progress.done? = some (tx, result)) : operation.Effect origin result tx := by
  have hkeeps := keeps_run moves hclient
  rcases Progress.done_cases hdone with rfl | rfl
  · obtain ⟨session, rfl, _, heffect⟩ := hkeeps
    exact heffect
  · exact hkeeps.2

/-- The transaction of a creation whose body has come to its end is merged just if the names
of the creation are free by then. -/
theorem merge_of_done {moves : List Move} {name : Nat} {origin : Tables} {creation : Creation}
    {progress : Progress (.commit creation)} {tx : Transaction} {graph : RootGraph}
    (hclient : (run moves).client name = some ⟨origin, .serving (.commit creation) progress⟩)
    (hdone : progress.done? = some (tx, graph)) :
    ∃ growth, creation.Expands growth ∧
      ((∃ after, (run moves).memory.committed.merge tx = .ok after ∧
          (run moves).memory.committed.Gains growth.rows after ∧
            creation.Unclaimed (run moves).memory.committed.tables) ∨
        ∃ constraint, (run moves).memory.committed.merge tx =
            .error (.uniqueViolation constraint) ∧
          ¬ creation.Unclaimed (run moves).memory.committed.tables) := by
  have htx : progress.tx? = some tx := by
    rcases Progress.done_cases hdone with rfl | rfl <;> rfl
  have hholds := draft_scene hclient htx
  obtain ⟨growth, _, hexpands, hinserts⟩ := effect_of_done hclient hdone
  exact ⟨growth, hexpands, hexpands.merge_cases hinserts ((sound_run moves).drafts hholds)
    (sound_run moves).intact fun hcreated => (orderly_run moves).fresh hholds hcreated⟩

/-- A creation whose body came to its end on whatever tables is told the same as one that is
carried out from the start, and if that is a conflict, then neither of them leaves a trace. -/
theorem settle_agrees {moves : List Move} {name : Nat} {origin : Tables} {creation : Creation}
    {progress : Progress (.commit creation)} {tx : Transaction} {graph : RootGraph}
    (hclient : (run moves).client name = some ⟨origin, .serving (.commit creation) progress⟩)
    (hdone : progress.done? = some (tx, graph)) {limit : Option Nat}
    (hcalm : (run moves).memory.registers.fault = none)
    (hvalid : creation.validate limit = .ok ()) :
    Agree (settle tx graph (run moves).memory).1
        (store.perform limit (.commit creation) (run moves).memory).1 ∧
      ∀ error, (settle tx graph (run moves).memory).1 = .error error →
        (settle tx graph (run moves).memory).2.committed = (run moves).memory.committed ∧
          (store.perform limit (.commit creation) (run moves).memory).2.committed =
            (run moves).memory.committed := by
  obtain ⟨growth, _, hmerge⟩ := merge_of_done hclient hdone
  rcases hmerge with ⟨after, hok, _, hfree⟩ | ⟨constraint, herror, hnot⟩
  · rw [settle_of_merge_eq_ok hcalm graph hok]
    rcases perform_commit_cases (sound_begin moves hcalm) hvalid with
      ⟨other, hfresh, _⟩ | ⟨_, _, hnot⟩
    · refine ⟨.inl ⟨graph, other, rfl, hfresh⟩, ?_⟩
      intro error hfails
      cases hfails
    · exact absurd hfree hnot
  · rw [settle_of_merge_eq_error hcalm graph herror]
    rcases perform_commit_cases (sound_begin moves hcalm) hvalid with
      ⟨_, _, hfree⟩ | ⟨detail, hfresh, _⟩
    · exact absurd hfree hnot
    · refine ⟨.inr ⟨_, detail, rfl, hfresh⟩, fun _ _ => ⟨rfl, ?_⟩⟩
      rcases committed_perform limit (.commit creation) (run moves).memory with
        hsame | ⟨other, hother⟩
      · exact hsame
      · rw [hfresh] at hother
        cases hother

end System

end Memory

end VariantCatalog
