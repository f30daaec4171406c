/-
# Commits in either order

Two transactions that began on what is committed and have no row in common can still get
into each other's way: each may have written a row that claims a unique key of the other's.
This is the only way in which they can (`Stands.merge_after_iff`).  A row that the second one
refers to is there after the first one, since no commit removes a row, and a row that the
second one has written over was live when it began and is left alone by the first one.

A clash of two rows is seen from either of them, so whether both transactions can be
committed does not depend on which goes first.  Nor does what is committed then: of each row,
one of them at most has anything to say.
-/

import VariantCatalog.Proofs.Interleaving.Installation
import VariantCatalog.Proofs.Operation.Performance

namespace VariantCatalog

open Memory

namespace Memory

variable {origin : Tables} {first second : Transaction}

/-! ## Transactions on one state -/

/-- A transaction that could be merged into the tables that it began on. -/
structure Stands (origin : Tables) (tx : Transaction) : Prop where
  departs : Departs origin tx
  intact : tx.working.Intact
  spares : Spares origin tx

theorem System.stands_run {moves : List Move} {name : Nat} {client : Client} {tx : Transaction}
    (hclient : (run moves).client name = some client) (htx : client.standing.tx? = some tx) :
    Stands client.origin tx := by
  have hholds : (run moves).scene.draft name = some ⟨client.origin, tx⟩ :=
    draft_scene hclient htx
  exact ⟨(orderly_run moves).departs hholds, (sound_run moves).drafts hholds,
    sparing_run moves hholds⟩

/-- No row that the one has written claims a unique key of a row that the other has
written. -/
def Compatible (first second : Transaction) : Prop :=
  ∀ ⦃kind : EntityKind⦄ ⦃firstId secondId : Id kind⦄ ⦃mine theirs : kind.Row⦄,
    (⟨kind, firstId⟩ : RowKey) ∈ first.keys → first.working.find? firstId = some mine →
      (⟨kind, secondId⟩ : RowKey) ∈ second.keys → second.working.find? secondId = some theirs →
        Tables.clash mine theirs = false

theorem Compatible.symm (h : Compatible first second) : Compatible second first := by
  intro kind firstId secondId mine theirs hmineKey hmine htheirsKey htheirs
  rw [Tables.clash_comm]
  exact h htheirsKey htheirs hmineKey hmine

theorem apply_eq_ok {memory after : Memory} {tx : Transaction} :
    memory.apply tx = (.ok (), after) ↔
      ∃ committed, memory.committed.merge tx = .ok committed ∧
        after = { memory with committed } := by
  rw [apply]
  cases memory.committed.merge tx with
  | error error =>
      constructor
      · intro h
        cases h
      · rintro ⟨_, h, _⟩
        cases h
  | ok committed =>
      constructor
      · intro h
        cases h
        exact ⟨committed, rfl, rfl⟩
      · rintro ⟨_, h, rfl⟩
        cases h
        rfl

/-! ## One after the other -/

/-- What is found once the second is merged after the first: what the second has written,
and otherwise what the first has made of it. -/
theorem Stands.find?_overlay (h : Stands origin second) (tables : Tables) {kind : EntityKind}
    (id : Id kind) :
    (Committed.overlay tables second).find? id =
      if (⟨kind, id⟩ : RowKey) ∈ second.keys then second.working.find? id
      else tables.find? id := by
  rw [Committed.find?_overlay]
  split
  · next hkey =>
    obtain ⟨row, hrow⟩ := Option.isSome_iff_exists.mp (h.departs.present hkey)
    rw [hrow]
    rfl
  · rfl

/-- Of each row one of the two at most has anything to say. -/
theorem Stands.overlay_comm (hfirst : Stands origin first) (hsecond : Stands origin second)
    (hapart : first.keys.Disjoint second.keys) :
    Committed.overlay first.working second = Committed.overlay second.working first := by
  apply Tables.ext_find?
  intro kind id
  rw [hsecond.find?_overlay, hfirst.find?_overlay]
  by_cases hmine : (⟨kind, id⟩ : RowKey) ∈ first.keys
  · rw [if_pos hmine, if_neg (hapart hmine)]
  · rw [if_neg hmine, hfirst.departs.untouched hmine]
    split
    · rfl
    · next htheirs => exact (hsecond.departs.untouched htheirs).symm

/-- The rows of the second are fresh after the first, which has left them alone. -/
theorem Stands.checkFresh_eq_ok (hfirst : Stands origin first) (hsecond : Stands origin second)
    (hapart : first.keys.Disjoint second.keys) (journal : List Entry) {entry : Entry}
    (hentry : entry ∈ second.journal) :
    Committed.checkFresh ⟨first.working, journal⟩ entry = .ok () := by
  refine Committed.checkFresh_eq_ok.mpr fun _ row hrow => ?_
  have htheirs : (⟨entry.kind, entry.id⟩ : RowKey) ∈ second.keys :=
    List.mem_map_of_mem (f := Entry.key) hentry
  have hmine : (⟨entry.kind, entry.id⟩ : RowKey) ∉ first.keys := fun hkey => hapart hkey htheirs
  exact hsecond.spares entry hentry row ((hfirst.departs.untouched hmine).symm.trans hrow)

/-- What a row of the second refers to is there after the first as well. -/
theorem Stands.isSome_parent (hfirst : Stands origin first) (hsecond : Stands origin second)
    {kind : EntityKind} {id : Id kind} {row : kind.Row}
    (hrow : second.working.find? id = some row) {parent : RowKey}
    (hparent : parent ∈ Row.parents row) :
    ((Committed.overlay first.working second).find? parent.id).isSome := by
  have hthere := hsecond.intact.referenced hrow parent hparent
  rw [hsecond.find?_overlay]
  split
  · exact hthere
  · next hkey =>
    rw [hsecond.departs.untouched hkey] at hthere
    exact hfirst.departs.becomes.isSome hthere

/-- A row of the second has no rival after the first, unless the first has written it. -/
theorem Stands.clash_eq_false (hfirst : Stands origin first) (hsecond : Stands origin second)
    (hcompatible : Compatible first second) {kind : EntityKind} {id rivalId : Id kind}
    {row rival : kind.Row} (hkey : (⟨kind, id⟩ : RowKey) ∈ second.keys)
    (hrow : second.working.find? id = some row)
    (hrival : (Committed.overlay first.working second).find? rivalId = some rival)
    (hne : id ≠ rivalId) : Tables.clash row rival = false := by
  rw [hsecond.find?_overlay] at hrival
  by_cases htheirs : (⟨kind, rivalId⟩ : RowKey) ∈ second.keys
  · rw [if_pos htheirs] at hrival
    exact hsecond.intact.clash_eq_false hrow hrival hne
  · rw [if_neg htheirs] at hrival
    by_cases hmine : (⟨kind, rivalId⟩ : RowKey) ∈ first.keys
    · exact hcompatible.symm hkey hrow hmine hrival
    · -- Neither of them has written the rival, so the second has it as well.
      rw [hfirst.departs.untouched hmine, ← hsecond.departs.untouched htheirs] at hrival
      exact hsecond.intact.clash_eq_false hrow hrival hne

/-- After the first, the second can be merged just if their rows are compatible. -/
theorem Stands.merge_after_iff (hfirst : Stands origin first) (hsecond : Stands origin second)
    (hapart : first.keys.Disjoint second.keys) (journal : List Entry) (after : Committed) :
    Committed.merge ⟨first.working, journal⟩ second = .ok after ↔
      Compatible first second ∧
        after = ⟨Committed.overlay first.working second, journal ++ second.journal⟩ := by
  constructor
  · intro hmerge
    obtain ⟨_, hchecks, hafter⟩ := Committed.merge_eq_ok.mp hmerge
    refine ⟨?_, hafter⟩
    intro kind firstId secondId mine theirs hmineKey hmine htheirsKey htheirs
    have hmineFound : (Committed.overlay first.working second).find? firstId = some mine := by
      rw [hsecond.find?_overlay, if_neg (hapart hmineKey)]
      exact hmine
    have htheirsFound : (Committed.overlay first.working second).find? secondId =
        some theirs := by
      rw [hsecond.find?_overlay, if_pos htheirsKey]
      exact htheirs
    obtain ⟨action, hentry⟩ := Transaction.mem_keys.mp htheirsKey
    have hcheck := Committed.checkEntry_eq_ok.mp (hchecks _ hentry) theirs htheirsFound
    rw [Bool.eq_false_iff, Tables.clash_comm]
    intro hclash
    -- The two would be one row, written by both of them.
    obtain rfl := Tables.eq_of_clash_of_check htheirsFound hmineFound hcheck hclash
    obtain rfl := Tables.id_of_find? hmine
    obtain rfl := Tables.id_of_find? htheirs
    exact hapart hmineKey htheirsKey
  · rintro ⟨hcompatible, hafter⟩
    refine Committed.merge_eq_ok.mpr ⟨fun entry hentry => ?_, fun entry hentry => ?_, hafter⟩
    · exact hfirst.checkFresh_eq_ok hsecond hapart journal hentry
    · have hkey : (⟨entry.kind, entry.id⟩ : RowKey) ∈ second.keys :=
        List.mem_map_of_mem (f := Entry.key) hentry
      refine Committed.checkEntry_eq_ok.mpr fun row hfound => ?_
      have hrow := hfound
      rw [hsecond.find?_overlay, if_pos hkey] at hrow
      refine Tables.check_eq_ok.mpr ⟨Tables.brokenReference?_eq_none.mpr ?_,
        Tables.hasRival_eq_false.mpr fun rival hrival hne => ?_⟩
      · exact fun parent hparent => hfirst.isSome_parent hsecond hrow hparent
      · apply hfirst.clash_eq_false hsecond hcompatible hkey hrow hrival
        rw [← Tables.id_of_find? hrow]
        exact hne.symm

/-! ## Two commits -/

/-- Commit two transactions, the second right after the first. -/
def commitBoth (first second : Transaction) (memory : Memory) : Except StoreError Unit × Memory :=
  match store.commit first memory with
  | (.error error, memory) => (.error error, memory)
  | (.ok (), memory) => store.commit second memory

/-- What it takes to commit both on the tables that they began on, and what it makes: their
rows have to be compatible, and their journals are added in this order. -/
theorem commitBoth_eq_ok {memory : Memory} (hcalm : memory.registers.fault = none)
    (hfirst : Stands memory.committed.tables first)
    (hsecond : Stands memory.committed.tables second)
    (hapart : first.keys.Disjoint second.keys) (after : Memory) :
    memory.commitBoth first second = (.ok (), after) ↔
      Compatible first second ∧
        after = { memory with
          committed := ⟨Committed.overlay first.working second,
            memory.committed.journal ++ first.journal ++ second.journal⟩ } := by
  have hinstalled : store.commit first memory = (.ok (), memory.install first) := by
    rw [commit_of_calm hcalm, apply, hfirst.departs.merge_eq_ok hfirst.intact hfirst.spares]
    rfl
  have hstillCalm : (memory.install first).registers.fault = none := hcalm
  have hthen : store.commit second (memory.install first) =
      (memory.install first).apply second :=
    commit_of_calm hstillCalm second
  have hmerge := hfirst.merge_after_iff hsecond hapart
    (memory.committed.journal ++ first.journal)
  rw [commitBoth, hinstalled]
  dsimp only
  rw [hthen]
  constructor
  · intro happly
    obtain ⟨committed, hmerged, rfl⟩ := apply_eq_ok.mp happly
    obtain ⟨hcompatible, rfl⟩ := (hmerge committed).mp hmerged
    exact ⟨hcompatible, rfl⟩
  · rintro ⟨hcompatible, rfl⟩
    exact apply_eq_ok.mpr ⟨_, (hmerge _).mpr ⟨hcompatible, rfl⟩, rfl⟩

namespace System

/-- **Transactions that have no row in common can be committed in either order.** Whatever
calls led to two transactions, if what is committed is what both began on, if no row is in both
of their journals and no fault is armed, then they can be committed one after the other just if
they can be committed the other way round; and then the same tables are committed, and of the
journals the same blocks have been added, in the order of the commits. -/
theorem commit_in_either_order {moves : List Move} {firstName secondName : Nat}
    {mine theirs : Client} {first second : Transaction}
    (hmine : (run moves).client firstName = some mine) (hfirst : mine.standing.tx? = some first)
    (htheirs : (run moves).client secondName = some theirs)
    (hsecond : theirs.standing.tx? = some second)
    (hmineOrigin : (run moves).memory.committed.tables = mine.origin)
    (htheirsOrigin : (run moves).memory.committed.tables = theirs.origin)
    (hapart : first.keys.Disjoint second.keys)
    (hcalm : (run moves).memory.registers.fault = none) :
    ((∃ after, (run moves).memory.commitBoth first second = (.ok (), after)) ↔
        ∃ after, (run moves).memory.commitBoth second first = (.ok (), after)) ∧
      ∀ after other, (run moves).memory.commitBoth first second = (.ok (), after) →
        (run moves).memory.commitBoth second first = (.ok (), other) →
          after.committed.tables = other.committed.tables ∧ after.registers = other.registers ∧
            after.committed.journal =
              (run moves).memory.committed.journal ++ first.journal ++ second.journal ∧
            other.committed.journal =
              (run moves).memory.committed.journal ++ second.journal ++ first.journal := by
  have hfirstStands := stands_run hmine hfirst
  have hsecondStands := stands_run htheirs hsecond
  rw [← hmineOrigin] at hfirstStands
  rw [← htheirsOrigin] at hsecondStands
  have hforth := commitBoth_eq_ok hcalm hfirstStands hsecondStands hapart
  have hback := commitBoth_eq_ok hcalm hsecondStands hfirstStands (List.disjoint_symm hapart)
  refine ⟨⟨?_, ?_⟩, ?_⟩
  · rintro ⟨after, hafter⟩
    exact ⟨_, (hback _).mpr ⟨((hforth after).mp hafter).1.symm, rfl⟩⟩
  · rintro ⟨after, hafter⟩
    exact ⟨_, (hforth _).mpr ⟨((hback after).mp hafter).1.symm, rfl⟩⟩
  · intro after other hafter hother
    obtain ⟨_, rfl⟩ := (hforth after).mp hafter
    obtain ⟨_, rfl⟩ := (hback other).mp hother
    exact ⟨hfirstStands.overlay_comm hsecondStands hapart, rfl, rfl, rfl⟩

/-- Somebody gives the shirt a colour while somebody else archives one of its variants and
creates another root; a third one has thought of the colour as well. -/
def shirtColors : List Move :=
  [.begin 2, .call 2 (.write (.createOption ⟨⟨2⟩, "Color"⟩)),
    .call 2 (.write (.createValue ⟨⟨2⟩, "Red"⟩)),
    .begin 3, .call 3 (.write (.archiveProduct ⟨1⟩)),
    .call 3 (.write (.createRoot { NewRoot.ofDraft shirt.product with skuPrefix := "cap" })),
    .begin 4, .call 4 (.write (.createOption ⟨⟨2⟩, "Color"⟩))]

theorem commit_in_either_order_shirt :
    ∃ colored trimmed rival,
      ((run (shirtDone ++ shirtColors)).client 2).bind (·.standing.tx?) = some colored ∧
      ((run (shirtDone ++ shirtColors)).client 3).bind (·.standing.tx?) = some trimmed ∧
      ((run (shirtDone ++ shirtColors)).client 4).bind (·.standing.tx?) = some rival ∧
      (∃ after other,
        (run (shirtDone ++ shirtColors)).memory.commitBoth colored trimmed = (.ok (), after) ∧
        (run (shirtDone ++ shirtColors)).memory.commitBoth trimmed colored = (.ok (), other) ∧
        after.committed.tables = other.committed.tables) ∧
      ∀ after,
        (run (shirtDone ++ shirtColors)).memory.commitBoth rival colored ≠ (.ok (), after) := by
  have hruns : (((run (shirtDone ++ shirtColors)).client 2).bind (·.standing.tx?)).bind
      (fun colored => (((run (shirtDone ++ shirtColors)).client 3).bind (·.standing.tx?)).bind
        fun trimmed => (((run (shirtDone ++ shirtColors)).client 4).bind (·.standing.tx?)).map
          fun rival => decide ((∀ key ∈ colored.keys, key ∉ trimmed.keys) ∧
            (∀ key ∈ rival.keys, key ∉ colored.keys) ∧
            ((run (shirtDone ++ shirtColors)).memory.commitBoth colored trimmed).1 = .ok () ∧
            ((run (shirtDone ++ shirtColors)).memory.commitBoth colored rival).1 ≠ .ok ())) =
      some true := by decide +kernel
  obtain ⟨colored, hcolored, hruns⟩ := Option.bind_eq_some_iff.mp hruns
  obtain ⟨trimmed, htrimmed, hruns⟩ := Option.bind_eq_some_iff.mp hruns
  obtain ⟨rival, hrival, hruns⟩ := Option.map_eq_some_iff.mp hruns
  obtain ⟨htrimmedApart, hrivalApart, hok, hbad⟩ := of_decide_eq_true hruns
  refine ⟨colored, trimmed, rival, hcolored, htrimmed, hrival, ?_⟩
  obtain ⟨first, hfirst, hcolored⟩ := Option.bind_eq_some_iff.mp hcolored
  obtain ⟨second, hsecond, htrimmed⟩ := Option.bind_eq_some_iff.mp htrimmed
  obtain ⟨third, hthird, hrival⟩ := Option.bind_eq_some_iff.mp hrival
  have hquiet : ∀ {name : Nat} {client : Client}, (run shirtDone).client name = none →
      (run (shirtDone ++ shirtColors)).client name = some client →
        (run (shirtDone ++ shirtColors)).memory.committed.tables = client.origin :=
    fun hnone hclient => origin_of_quiet hnone (by decide) hclient
  have hfirstOrigin := hquiet (Option.isNone_iff_eq_none.mp (by decide +kernel)) hfirst
  have hsecondOrigin := hquiet (Option.isNone_iff_eq_none.mp (by decide +kernel)) hsecond
  have hthirdOrigin := hquiet (Option.isNone_iff_eq_none.mp (by decide +kernel)) hthird
  have hcalm : (run (shirtDone ++ shirtColors)).memory.registers.fault = none := by
    decide +kernel
  have hsucceeds : ∀ {outcome : Except StoreError Unit × Memory}, outcome.1 = .ok () →
      ∃ after, outcome = (.ok (), after) := fun hok => ⟨_, Prod.ext hok rfl⟩
  have htrims := commit_in_either_order hfirst hcolored hsecond htrimmed hfirstOrigin
    hsecondOrigin (List.disjoint_left.mpr htrimmedApart) hcalm
  have hrivals := commit_in_either_order hthird hrival hfirst hcolored hthirdOrigin
    hfirstOrigin (List.disjoint_left.mpr hrivalApart) hcalm
  constructor
  · obtain ⟨after, hafter⟩ := hsucceeds hok
    obtain ⟨other, hother⟩ := htrims.1.mp ⟨after, hafter⟩
    exact ⟨after, other, hafter, hother, (htrims.2 after other hafter hother).1⟩
  · intro after hafter
    obtain ⟨other, hother⟩ := hrivals.1.mp ⟨after, hafter⟩
    exact hbad (congrArg Prod.fst hother)

end System

end Memory

end VariantCatalog
