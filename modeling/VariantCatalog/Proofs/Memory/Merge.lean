/-
# What a commit merges

A commit copies the rows of a journal onto whatever is committed by then.  This
module says which rows are there afterwards, and what a commit that succeeds has
checked: no row that it writes over was archived meanwhile, and each row that it
writes fits among all others.  Rows that it does not write were checked when they
were written, and `intact_merge` shows that this is enough: a clash of two rows is
seen from either of them, and no reference ever loses its target.

That a row is not found, a commit says of a row only that it came too late for, and it says
so before it looks at anything else (`merge_barred_cases`).
-/

import VariantCatalog.Proofs.Memory.Stroke

namespace VariantCatalog

open Memory

/-- Where the row of an entry is stored. -/
def Memory.Entry.key (entry : Entry) : RowKey := ⟨entry.kind, entry.id⟩

/-- What a commit says of a row that it was to write over, and that is archived by then. -/
def RowKey.overtaken (key : RowKey) : String :=
  key.kind.name ++ " " ++ key.id.text ++ " was archived concurrently"

/-- The rows that a transaction has written. -/
def Memory.Transaction.keys (tx : Transaction) : List RowKey := tx.journal.map Entry.key

theorem Memory.Transaction.mem_keys {tx : Transaction} {kind : EntityKind} {id : Id kind} :
    (⟨kind, id⟩ : RowKey) ∈ tx.keys ↔ ∃ action, (⟨kind, id, action⟩ : Entry) ∈ tx.journal := by
  constructor
  · intro h
    obtain ⟨⟨otherKind, other, action⟩, hmem, heq⟩ := List.mem_map.mp h
    cases heq
    exact ⟨action, hmem⟩
  · rintro ⟨action, h⟩
    exact List.mem_map.mpr ⟨_, h, rfl⟩

/-! ## Rows after a merge -/

namespace Tables

variable {tables source : Tables} {kind : EntityKind} {id : Id kind}

theorem find?_copyRow (tables source : Tables) (id : Id kind) :
    (tables.copyRow id source).find? id = (source.find? id).or (tables.find? id) := by
  rw [copyRow]
  cases hfind : source.find? id with
  | none => rfl
  | some row =>
      dsimp only
      rw [find?_put, if_pos (id_of_find? hfind)]
      rfl

theorem find?_copyRow_of_key_ne (tables source : Tables) {other : EntityKind} (id : Id kind)
    (otherId : Id other) (h : (⟨kind, id⟩ : RowKey) ≠ ⟨other, otherId⟩) :
    (tables.copyRow id source).find? otherId = tables.find? otherId := by
  rw [copyRow]
  cases hfind : source.find? id with
  | none => rfl
  | some row =>
      refine find?_put_of_key_ne tables row otherId ?_
      rw [id_of_find? hfind]
      exact h

end Tables

namespace Committed

theorem find?_foldl_copyRow (source : Tables) {kind : EntityKind} (id : Id kind)
    (journal : List Entry) (tables : Tables) :
    (journal.foldl (fun next entry => next.copyRow entry.id source) tables).find? id =
      if (⟨kind, id⟩ : RowKey) ∈ journal.map Entry.key then
        (source.find? id).or (tables.find? id)
      else tables.find? id := by
  induction journal generalizing tables with
  | nil => rw [List.foldl_nil, List.map_nil, if_neg List.not_mem_nil]
  | cons entry rest ih =>
      rw [List.foldl_cons, ih, List.map_cons]
      by_cases hkey : entry.key = ⟨kind, id⟩
      · obtain ⟨otherKind, other, action⟩ := entry
        cases hkey
        have hmem : (⟨otherKind, other⟩ : RowKey) ∈
            Entry.key ⟨otherKind, other, action⟩ :: rest.map Entry.key := List.mem_cons_self
        rw [Tables.find?_copyRow, if_pos hmem]
        cases source.find? other <;> exact ite_self _
      · have hmem : (⟨kind, id⟩ : RowKey) ∈ entry.key :: rest.map Entry.key ↔
            (⟨kind, id⟩ : RowKey) ∈ rest.map Entry.key := by
          rw [List.mem_cons, or_iff_right (Ne.symm hkey)]
        rw [Tables.find?_copyRow_of_key_ne tables source entry.id id hkey]
        simp only [hmem]

/-- After a merge, a row that was written is as the transaction left it, and every
other row is as it was. -/
theorem find?_overlay (tables : Tables) (tx : Transaction) {kind : EntityKind} (id : Id kind) :
    (overlay tables tx).find? id =
      if (⟨kind, id⟩ : RowKey) ∈ tx.keys then (tx.working.find? id).or (tables.find? id)
      else tables.find? id :=
  find?_foldl_copyRow tx.working id tx.journal tables

theorem find?_overlay_of_mem (tables : Tables) {tx : Transaction} {kind : EntityKind}
    {id : Id kind} {row : kind.Row} (hkey : (⟨kind, id⟩ : RowKey) ∈ tx.keys)
    (hrow : tx.working.find? id = some row) : (overlay tables tx).find? id = some row := by
  rw [find?_overlay, if_pos hkey, hrow]
  rfl

theorem isSome_find?_overlay {tables : Tables} (tx : Transaction) {kind : EntityKind}
    {id : Id kind} (h : (tables.find? id).isSome) : ((overlay tables tx).find? id).isSome := by
  rw [find?_overlay]
  split
  · cases tx.working.find? id
    · exact h
    · rfl
  · exact h

/-! ## What a merge has checked -/

theorem forM_eq_ok {α ε : Type} (check : α → Except ε Unit) (items : List α) :
    items.forM check = .ok () ↔ ∀ item ∈ items, check item = .ok () := by
  induction items with
  | nil => exact ⟨fun _ _ h => absurd h List.not_mem_nil, fun _ => rfl⟩
  | cons item rest ih =>
      rw [List.forall_mem_cons, ← ih]
      show (check item >>= fun _ => rest.forM check) = .ok () ↔ _
      cases check item with
      | error error => exact ⟨nofun, fun h => nomatch h.1⟩
      | ok _ => exact ⟨fun h => ⟨rfl, h⟩, fun h => h.2⟩

/-- A check of many things passes, or fails as one of them does. -/
theorem forM_cases {α ε : Type} {check : α → Except ε Unit} {bad : ε → Prop}
    {items : List α}
    (h : ∀ item ∈ items, check item = .ok () ∨ ∃ error, check item = .error error ∧ bad error) :
    items.forM check = .ok () ∨ ∃ error, items.forM check = .error error ∧ bad error := by
  induction items with
  | nil => exact .inl rfl
  | cons item rest ih =>
      obtain ⟨hitem, hrest⟩ := List.forall_mem_cons.mp h
      have hcons : (item :: rest).forM check = (check item >>= fun _ => rest.forM check) := rfl
      rw [hcons]
      rcases hitem with hok | ⟨error, herror, hbad⟩
      · rw [hok]
        exact ih hrest
      · rw [herror]
        exact .inr ⟨error, rfl, hbad⟩

/-- A merge that finds no row archived goes on to look at what fits. -/
theorem merge_of_fresh {committed : Committed} {tx : Transaction}
    (h : tx.journal.forM committed.checkFresh = .ok ()) :
    committed.merge tx = (tx.journal.forM (checkEntry (overlay committed.tables tx)) >>= fun _ =>
      .ok ⟨overlay committed.tables tx, committed.journal ++ tx.journal⟩) := by
  rw [merge, h]
  rfl

/-- What it takes for a merge to succeed, and what it makes. -/
theorem merge_eq_ok {committed after : Committed} {tx : Transaction} :
    committed.merge tx = .ok after ↔
      (∀ entry ∈ tx.journal, committed.checkFresh entry = .ok ()) ∧
        (∀ entry ∈ tx.journal, checkEntry (overlay committed.tables tx) entry = .ok ()) ∧
          after = ⟨overlay committed.tables tx, committed.journal ++ tx.journal⟩ := by
  rw [← forM_eq_ok committed.checkFresh, ← forM_eq_ok (checkEntry (overlay committed.tables tx))]
  cases hfresh : tx.journal.forM committed.checkFresh with
  | error error =>
      rw [merge, hfresh]
      exact ⟨nofun, fun h => nomatch h.1⟩
  | ok _ =>
      rw [merge_of_fresh hfresh]
      cases tx.journal.forM (checkEntry (overlay committed.tables tx)) with
      | error error => exact ⟨nofun, fun h => nomatch h.2.1⟩
      | ok _ =>
          exact ⟨fun h => ⟨rfl, rfl, (Except.ok.inj h).symm⟩, fun h => congrArg _ h.2.2.symm⟩

theorem checkFresh_eq_ok {committed : Committed} {entry : Entry} :
    committed.checkFresh entry = .ok () ↔
      (entry.action ≠ .created → ∀ row, committed.tables.find? entry.id = some row →
        Row.isLive row) := by
  simp only [checkFresh, Tables.isArchived, Bool.and_eq_true, decide_eq_true_eq,
    Option.any_eq_true, Bool.not_eq_true']
  split
  · next h =>
    obtain ⟨haction, row, hfind, hdead⟩ := h
    refine ⟨nofun, fun h => ?_⟩
    rw [h haction row hfind] at hdead
    exact absurd hdead nofun
  · next h =>
    refine ⟨fun _ haction row hfind => ?_, fun _ => rfl⟩
    exact Bool.not_eq_false _ ▸ fun hdead => h ⟨haction, row, hfind, hdead⟩

theorem checkEntry_eq_ok {tables : Tables} {entry : Entry} :
    checkEntry tables entry = .ok () ↔
      ∀ row, tables.find? entry.id = some row → tables.check row = .ok () := by
  rw [checkEntry]
  cases tables.find? entry.id with
  | none => exact ⟨fun _ _ => nofun, fun _ => rfl⟩
  | some row =>
      refine ⟨fun h other heq => ?_, fun h => h row rfl⟩
      rw [← Option.some.inj heq]
      exact h

/-! ## Rows that somebody else has archived -/

/-- A row that a transaction has written over is barred once it is archived. -/
def Bars (committed : Committed) (entry : Entry) : Prop :=
  entry.action ≠ .created ∧ committed.tables.isArchived entry.id

theorem checkFresh_cases (committed : Committed) (entry : Entry) :
    committed.checkFresh entry = .ok () ∧ ¬ committed.Bars entry ∨
      committed.checkFresh entry = .error (.rowNotFound entry.key.overtaken) ∧
        committed.Bars entry := by
  have hbars : (entry.action ≠ .created && committed.tables.isArchived entry.id) = true ↔
      committed.Bars entry := by
    rw [Bool.and_eq_true, decide_eq_true_eq, Bars]
  rw [checkFresh]
  split
  · next h => exact .inr ⟨rfl, hbars.mp h⟩
  · next h => exact .inl ⟨rfl, fun hbarred => h (hbars.mpr hbarred)⟩

/-- A row that does not fit is not one that is missing. -/
theorem checkEntry_cases (tables : Tables) (entry : Entry) :
    checkEntry tables entry = .ok () ∨ ∃ error, checkEntry tables entry = .error error ∧
      ∀ detail, error ≠ .rowNotFound detail := by
  rw [checkEntry]
  cases tables.find? entry.id with
  | none => exact .inl rfl
  | some row =>
      dsimp only
      rw [Tables.check]
      cases tables.brokenReference? row with
      | some reference => exact .inr ⟨_, rfl, nofun⟩
      | none =>
          cases tables.hasRival row with
          | true => exact .inr ⟨_, rfl, nofun⟩
          | false => exact .inl rfl

/-- A merge says that a row is missing just if one of those that the transaction has written
over is barred, and this is the row that it names. -/
theorem merge_barred_cases (committed : Committed) (tx : Transaction) :
    (∃ entry ∈ tx.journal, committed.Bars entry ∧
        committed.merge tx = .error (.rowNotFound entry.key.overtaken)) ∨
      (∀ entry ∈ tx.journal, ¬ committed.Bars entry) ∧
        ∀ detail, committed.merge tx ≠ .error (.rowNotFound detail) := by
  have hfresh : tx.journal.forM committed.checkFresh = .ok () ∨
      ∃ error, tx.journal.forM committed.checkFresh = .error error ∧
        ∃ entry ∈ tx.journal, committed.Bars entry ∧
          error = .rowNotFound entry.key.overtaken := by
    apply forM_cases
    intro entry hentry
    rcases checkFresh_cases committed entry with ⟨hok, _⟩ | ⟨herror, hbars⟩
    · exact .inl hok
    · exact .inr ⟨_, herror, entry, hentry, hbars, rfl⟩
  rcases hfresh with hok | ⟨_, herror, entry, hentry, hbars, rfl⟩
  · refine .inr ⟨fun entry hentry hbars => ?_, fun detail => ?_⟩
    · rcases checkFresh_cases committed entry with ⟨_, hnot⟩ | ⟨herror, _⟩
      · exact hnot hbars
      · rw [(forM_eq_ok _ _).mp hok entry hentry] at herror
        cases herror
    · rw [merge_of_fresh hok]
      rcases forM_cases fun entry _ => checkEntry_cases (overlay committed.tables tx) entry with
        hok | ⟨error, herror, hother⟩
      · rw [hok]
        nofun
      · rw [herror]
        exact fun heq => hother detail (Except.error.inj heq)
  · left
    refine ⟨entry, hentry, hbars, ?_⟩
    rw [merge, herror]
    rfl

end Committed

/-! ## Constraints -/

namespace Tables

variable {tables other : Tables} {kind : EntityKind} {row : kind.Row}

theorem check_eq_ok :
    tables.check row = .ok () ↔
      tables.brokenReference? row = none ∧ tables.hasRival row = false := by
  rw [check]
  cases tables.brokenReference? row with
  | some reference => exact ⟨nofun, fun h => nomatch h.1⟩
  | none =>
      cases tables.hasRival row with
      | true => exact ⟨nofun, fun h => nomatch h.2⟩
      | false => exact ⟨fun _ => ⟨rfl, rfl⟩, fun _ => rfl⟩

theorem hasRival_eq_false :
    tables.hasRival row = false ↔
      ∀ rival : kind.Row, tables.find? (Row.id rival) = some rival → Row.id rival ≠ Row.id row →
        clash row rival = false := by
  simp only [hasRival, List.any_eq_false, Bool.and_eq_true, decide_eq_true_eq, not_and,
    Bool.not_eq_true, mem_iff]

theorem clash_option_iff {first second : ProductOption} :
    @clash .option first second = true ↔ first.lifecycle.isLive ∧ second.lifecycle.isLive ∧
      first.root = second.root ∧ first.name = second.name := by
  simp only [clash, Bool.and_eq_true, decide_eq_true_eq, and_assoc]

theorem clash_value_iff {first second : OptionValue} :
    @clash .value first second = true ↔ first.lifecycle.isLive ∧ second.lifecycle.isLive ∧
      first.option = second.option ∧ first.value = second.value := by
  simp only [clash, Bool.and_eq_true, decide_eq_true_eq, and_assoc]

theorem clash_bridge_iff {first second : VariantBridge} :
    @clash .bridge first second = true ↔ first.lifecycle.isLive ∧ second.lifecycle.isLive ∧
      first.product = second.product ∧ first.value = second.value := by
  simp only [clash, Bool.and_eq_true, decide_eq_true_eq, and_assoc]

theorem clash_comm (first second : kind.Row) : clash first second = clash second first := by
  cases kind with
  | root => exact decide_eq_decide.mpr eq_comm
  | option =>
      simp only [clash, Bool.and_comm, @eq_comm _ (ProductOption.root first),
        @eq_comm _ (ProductOption.name first)]
  | value =>
      simp only [clash, Bool.and_comm, @eq_comm _ (OptionValue.option first),
        @eq_comm _ (OptionValue.value first)]
  | product => exact decide_eq_decide.mpr eq_comm
  | bridge =>
      simp only [clash, Bool.and_comm, @eq_comm _ (VariantBridge.product first),
        @eq_comm _ (VariantBridge.value first)]

end Tables

/-- The rows that a row refers to. -/
def Row.parents : {kind : EntityKind} → kind.Row → List RowKey
  | .root, _ => []
  | .option, row => [⟨.root, ProductOption.root row⟩]
  | .value, row => [⟨.option, OptionValue.option row⟩]
  | .product, row => [⟨.root, Product.root row⟩]
  | .bridge, row => [⟨.product, VariantBridge.product row⟩, ⟨.value, VariantBridge.value row⟩]

namespace Tables

variable {tables other : Tables} {kind : EntityKind} {row : kind.Row}

theorem contains_iff (kind : EntityKind) {id : Id kind} :
    (tables.table kind).contains id ↔ (tables.find? id).isSome := Iff.rfl

theorem ite_some_eq_none {α : Type} {condition : Prop} [Decidable condition] {a : α} :
    (if condition then none else some a) = none ↔ condition := by
  split <;> simp only [*, reduceCtorEq]

/-- No reference of a row is broken when every row that it refers to is there. -/
theorem brokenReference?_eq_none :
    tables.brokenReference? row = none ↔
      ∀ parent ∈ Row.parents row, (tables.find? parent.id).isSome := by
  cases kind with
  | root => exact ⟨fun _ _ h => absurd h List.not_mem_nil, fun _ => rfl⟩
  | option =>
      rw [brokenReference?, Row.parents, List.forall_mem_singleton, ← contains_iff .root]
      exact ite_some_eq_none
  | value =>
      rw [brokenReference?, Row.parents, List.forall_mem_singleton, ← contains_iff .option]
      exact ite_some_eq_none
  | product =>
      rw [brokenReference?, Row.parents, List.forall_mem_singleton, ← contains_iff .root]
      exact ite_some_eq_none
  | bridge =>
      rw [brokenReference?, Row.parents, List.forall_mem_cons, List.forall_mem_singleton,
        ← contains_iff .product, ← contains_iff .value]
      show ite _ _ (ite _ _ _) = _ ↔ tables.products.contains _ ∧ tables.values.contains _
      cases tables.products.contains (VariantBridge.product row) <;>
        cases tables.values.contains (VariantBridge.value row) <;>
        simp only [Bool.not_true, Bool.not_false, Bool.false_eq_true, if_true, if_false,
          reduceCtorEq, false_and, and_false, and_self]

/-- Tables whose rows hold nothing that is loaded from other rows. -/
def Bare (tables : Tables) : Prop :=
  ∀ ⦃kind : EntityKind⦄ ⦃id : Id kind⦄ ⦃row : kind.Row⦄, tables.find? id = some row →
    Row.IsBare row

/-- Tables that keep every constraint: all references lead somewhere, no two rows
claim the same unique key, and all rows are bare. -/
structure Intact (tables : Tables) : Prop where
  referenced {kind : EntityKind} {id : Id kind} {row : kind.Row} :
    tables.find? id = some row → ∀ parent ∈ Row.parents row, (tables.find? parent.id).isSome
  unrivalled {kind : EntityKind} {firstId secondId : Id kind} {first second : kind.Row} :
    tables.find? firstId = some first → tables.find? secondId = some second →
      clash first second = true → first = second
  bare : tables.Bare

theorem intact_empty : empty.Intact where
  referenced h := by
    rw [find?_empty] at h
    cases h
  unrivalled h := by
    rw [find?_empty] at h
    cases h
  bare _ _ _ h := by
    rw [find?_empty] at h
    cases h

/-- A row that was checked claims no key of another row. -/
theorem eq_of_clash_of_check {first second : kind.Row} {firstId secondId : Id kind}
    (hfirst : tables.find? firstId = some first) (hsecond : tables.find? secondId = some second)
    (hcheck : tables.check first = .ok ()) (hclash : clash first second = true) :
    first = second := by
  obtain rfl := id_of_find? hfirst
  obtain rfl := id_of_find? hsecond
  by_cases hid : Row.id second = Row.id first
  · rw [hid, hfirst] at hsecond
    exact Option.some.inj hsecond
  · have hno := hasRival_eq_false.mp (check_eq_ok.mp hcheck).2 second hsecond hid
    rw [hclash] at hno
    exact absurd hno nofun

end Tables

/-! ## A merge keeps every constraint -/

namespace Committed

variable {committed after : Committed} {tx : Transaction}

theorem bare_overlay (hbare : committed.tables.Bare) (hworking : tx.working.Bare) :
    (overlay committed.tables tx).Bare := by
  intro kind id row h
  rw [find?_overlay] at h
  split at h
  · rcases Option.or_eq_some_iff.mp h with h | ⟨_, h⟩
    · exact hworking h
    · exact hbare h
  · exact hbare h

/-- Only the rows of the journal are checked again, and that is enough. -/
theorem intact_merge (hintact : committed.tables.Intact) (hworking : tx.working.Bare)
    (h : committed.merge tx = .ok after) : after.tables.Intact := by
  obtain ⟨_, hcheck, rfl⟩ := merge_eq_ok.mp h
  have hwritten : ∀ {kind : EntityKind} {id : Id kind} {row : kind.Row},
      (⟨kind, id⟩ : RowKey) ∈ tx.keys → (overlay committed.tables tx).find? id = some row →
        (overlay committed.tables tx).check row = .ok () := by
    intro kind id row hkey hfind
    obtain ⟨action, hmem⟩ := Transaction.mem_keys.mp hkey
    exact checkEntry_eq_ok.mp (hcheck _ hmem) row hfind
  have hkept : ∀ {kind : EntityKind} {id : Id kind} {row : kind.Row},
      (⟨kind, id⟩ : RowKey) ∉ tx.keys → (overlay committed.tables tx).find? id = some row →
        committed.tables.find? id = some row := by
    intro kind id row hkey hfind
    rwa [find?_overlay, if_neg hkey] at hfind
  refine ⟨fun {kind id row} hfind => ?_, ?_, bare_overlay hintact.bare hworking⟩
  · by_cases hkey : (⟨kind, id⟩ : RowKey) ∈ tx.keys
    · exact Tables.brokenReference?_eq_none.mp (Tables.check_eq_ok.mp (hwritten hkey hfind)).1
    · exact fun parent hparent =>
        isSome_find?_overlay tx (hintact.referenced (hkept hkey hfind) parent hparent)
  · intro kind firstId secondId first second hfirst hsecond hclash
    -- A pair of rows is checked as soon as one of the two was written.
    by_cases hkey : (⟨kind, firstId⟩ : RowKey) ∈ tx.keys
    · exact Tables.eq_of_clash_of_check hfirst hsecond (hwritten hkey hfirst) hclash
    · by_cases hsecondKey : (⟨kind, secondId⟩ : RowKey) ∈ tx.keys
      · rw [Tables.clash_comm] at hclash
        exact (Tables.eq_of_clash_of_check hsecond hfirst (hwritten hsecondKey hsecond)
          hclash).symm
      · exact hintact.unrivalled (hkept hkey hfirst) (hkept hsecondKey hsecond) hclash

end Committed

namespace Memory

theorem bare_put {tables : Tables} (h : tables.Bare) {kind : EntityKind} {new : kind.Row}
    (hnew : Row.IsBare new) : (tables.put new).Bare := by
  intro other id row hfind
  rcases Tables.of_find?_put hfind with heq | ⟨_, hold⟩
  · cases heq
    exact hnew
  · exact h hold

end Memory

end VariantCatalog
