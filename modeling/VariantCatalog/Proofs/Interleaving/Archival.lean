/-
# An archive archives what is below its target

When operations are carried out one after the other, a row that is archived takes with it
exactly what lives below it, whatever was archived, renamed or added before: the rows are
stamped and otherwise left as they are, no other row is touched, and nothing below the
target is left alive (`archive_sequel`).  The order in which the journal tells of them is
that of the cascade, from the bridges up.

That nothing is left is more than the archiving body sees.  It goes down from live rows to
live rows, so it relies on there being no live row whose parent was archived before.
-/

import VariantCatalog.Proofs.Interleaving.Sequence
import VariantCatalog.Proofs.Operation.Cascade

namespace VariantCatalog

open Memory Calendar

/-- Some live rows of the committed tables have been archived, in this order, and nothing
else has happened to them. -/
structure Committed.Loses (before : Committed) (rows : List AnyRow) (after : Committed) :
    Prop where
  live : ∀ any ∈ rows, before.tables.live? (Row.id any.row) = some any.row
  distinct : (rows.map AnyRow.key).Nodup
  /-- Of a row that was archived nothing has changed but when it was. -/
  stamped : ∀ any ∈ rows, ∃ moment, after.tables.find? (Row.id any.row) =
    some (Row.withLifecycle any.row
      { Row.lifecycle any.row with archivedOn := some moment })
  kept : ∀ {kind : EntityKind} (id : Id kind), (⟨kind, id⟩ : RowKey) ∉ rows.map AnyRow.key →
    after.tables.find? id = before.tables.find? id
  journal : after.journal =
    before.journal ++ rows.map fun any => ⟨any.kind, Row.id any.row, .archived⟩

namespace Memory.Retires

variable {origin : Tables} {rows : List AnyRow} {tx : Transaction}

/-- Merged right where it began, a transaction that archives rows does nothing else. -/
theorem loses_merge {before after : Committed} (h : Retires before.tables rows tx)
    (hmerge : before.merge tx = .ok after) : before.Loses rows after := by
  obtain ⟨_, _, rfl⟩ := Committed.merge_eq_ok.mp hmerge
  refine ⟨fun _ hany => h.live hany, h.distinct, fun any hany => ?_, fun {kind} id hkey => ?_, ?_⟩
  · obtain ⟨moment, hfind⟩ := h.find?_of_mem hany
    rw [Row.archive_of_isLive (Tables.live?_eq_some.mp (h.live hany)).2] at hfind
    refine ⟨moment, Committed.find?_overlay_of_mem _ ?_ hfind⟩
    rw [h.keys_eq]
    exact List.mem_map.mpr ⟨any, hany, rfl⟩
  · rw [Committed.find?_overlay, h.keys_eq, if_neg hkey]
  · rw [h.journal_eq]

end Memory.Retires

namespace Committed.Loses

variable {before after : Committed} {rows : List AnyRow}

theorem of_find? (h : before.Loses rows after) {kind : EntityKind} {id : Id kind}
    {row : kind.Row} (hrow : after.tables.find? id = some row) :
    (⟨kind, id⟩ : RowKey) ∉ rows.map AnyRow.key ∧ before.tables.find? id = some row ∨
      ∃ old moment, (⟨kind, old⟩ : AnyRow) ∈ rows ∧ Row.id old = id ∧
        row = Row.withLifecycle old { Row.lifecycle old with archivedOn := some moment } := by
  by_cases hkey : (⟨kind, id⟩ : RowKey) ∈ rows.map AnyRow.key
  · obtain ⟨old, hold, rfl⟩ := AnyRow.exists_of_mem_keys hkey
    obtain ⟨moment, hfind⟩ := h.stamped _ hold
    rw [hrow] at hfind
    exact .inr ⟨old, moment, hold, rfl, Option.some.inj hfind⟩
  · exact .inl ⟨hkey, (h.kept id hkey).symm.trans hrow⟩

/-- What is below a row was below it. -/
theorem below (h : before.Loses rows after) {top key : RowKey}
    (hbelow : after.tables.Below top key) : before.tables.Below top key := by
  induction hbelow with
  | self => exact .self
  | @under kind id row parent hfound hrefers _ ih =>
      rcases h.of_find? hfound with ⟨_, hold⟩ | ⟨old, moment, hold, rfl, rfl⟩
      · exact .under hold hrefers ih
      · have hparents : parent ∈ Row.parents old := by
          cases kind <;> exact hrefers
        exact .under (Tables.live?_eq_some.mp (h.live _ hold)).1 hparents ih

/-- What is live was live, and is not among the rows that were archived. -/
theorem live?_eq_some (h : before.Loses rows after) {kind : EntityKind} {id : Id kind}
    {row : kind.Row} (hlive : after.tables.live? id = some row) :
    (⟨kind, id⟩ : RowKey) ∉ rows.map AnyRow.key ∧ before.tables.live? id = some row := by
  obtain ⟨hrow, hisLive⟩ := Tables.live?_eq_some.mp hlive
  rcases h.of_find? hrow with ⟨hkey, hold⟩ | ⟨old, moment, _, _, rfl⟩
  · exact ⟨hkey, Tables.live?_eq_some.mpr ⟨hold, hisLive⟩⟩
  · rw [Row.isLive, Row.lifecycle_withLifecycle] at hisLive
    cases hisLive

end Committed.Loses

namespace Operation

/-- The row that an operation archives. -/
def target? : Operation → Option RowKey
  | archiveRoot id => some ⟨.root, id⟩
  | archiveVariant id => some ⟨.product, id⟩
  | archiveOption id => some ⟨.option, id⟩
  | archiveValue id => some ⟨.value, id⟩
  | _ => none

/-- An archiving operation finds its target live and archives the cascade of it. -/
theorem Effect.retires {operation : Operation} {target : RowKey} {origin : Tables}
    {result : operation.Result} {tx : Transaction} (h : Effect operation origin result tx)
    (htarget : operation.target? = some target) :
    ∃ row : target.kind.Row, origin.live? target.id = some row ∧
      Retires origin (origin.cascade row) tx := by
  cases operation <;> cases htarget <;> exact h

theorem isRead_of_target? {operation : Operation} {target : RowKey}
    (h : operation.target? = some target) : operation.isRead = false := by
  cases operation <;> first | rfl | cases h

end Operation

namespace Memory

/-- **An archive archives its target and what lives below it.** When operations are carried
out one after the other, an archive that succeeds has found its target live. It archives the
rows of the cascade in their order, and they are the target and the live rows below it.
Nothing else changes, and nothing that is below the target is live afterwards. -/
theorem archive_sequel (errands : List Errand) (limit : Option Nat) (operation : Operation)
    (target : RowKey) (result : operation.Result) (after : Memory)
    (htarget : operation.target? = some target)
    (h : store.perform limit operation (sequel errands) = (.ok result, after)) :
    ∃ row : target.kind.Row,
      (sequel errands).committed.tables.live? target.id = some row ∧
      (sequel errands).committed.Loses ((sequel errands).committed.tables.cascade row)
        after.committed ∧
      (∀ {kind : EntityKind} (other : kind.Row),
        (⟨kind, other⟩ : AnyRow) ∈ (sequel errands).committed.tables.cascade row ↔
          (sequel errands).committed.tables.live? (Row.id other) = some other ∧
            (sequel errands).committed.tables.Below target ⟨kind, Row.id other⟩) ∧
      ∀ {kind : EntityKind} (id : Id kind), after.committed.tables.Below target ⟨kind, id⟩ →
        after.committed.tables.live? id = none := by
  have hcoherent := System.coherent_sequel errands
  have hattached := System.attached_sequel errands
  obtain ⟨moves, _, hmemory⟩ := System.exists_moves errands
  rw [← hmemory] at h hcoherent hattached ⊢
  obtain ⟨tx, hsettles⟩ := System.exists_settles (Operation.isRead_of_target? htarget) h
  obtain ⟨row, hlive, hretires⟩ := hsettles.effect.retires htarget
  obtain ⟨kind, id⟩ := target
  dsimp only at row hlive hretires ⊢
  obtain rfl := Tables.id_of_find? (Tables.live?_eq_some.mp hlive).1
  have hloses := hretires.loses_merge hsettles.merged
  refine ⟨row, hlive, hloses, fun {kind} other => ?_, fun {kind} id hbelow => ?_⟩
  · constructor
    · exact fun hother => ⟨hloses.live _ hother, Tables.below_of_mem_cascade hother⟩
    · rintro ⟨hother, hbelow⟩
      exact Tables.mem_cascade_of_below hcoherent hattached hlive hbelow hother
  · rw [Option.eq_none_iff_forall_ne_some]
    intro other hother
    obtain ⟨hkey, hold⟩ := hloses.live?_eq_some hother
    have hmem := Tables.mem_cascade_of_below hcoherent hattached hlive (hloses.below hbelow) hold
    refine hkey (List.mem_map.mpr ⟨_, hmem, ?_⟩)
    exact congrArg (RowKey.mk kind) (Tables.id_of_find? (Tables.live?_eq_some.mp hold).1)

/-- The shirt is created and loses its smaller size. -/
def trimmedShirt : List Errand :=
  [.carry none (.commit System.shirt), .carry none (.archiveValue ⟨1⟩)]

/-- With the shirt goes what is left of it. The variant of the smaller size is still there,
and its bridge is not archived twice. -/
theorem archive_sequel_shirt :
    ∃ (root : ProductRoot) (after : Memory),
      ((sequel trimmedShirt).committed.tables.cascadeOfRoot root).map AnyRow.key =
        [⟨.bridge, ⟨2⟩⟩, ⟨.product, ⟨1⟩⟩, ⟨.product, ⟨2⟩⟩, ⟨.value, ⟨2⟩⟩, ⟨.option, ⟨1⟩⟩,
          ⟨.root, ⟨1⟩⟩] ∧
        (sequel trimmedShirt).committed.Loses
          ((sequel trimmedShirt).committed.tables.cascadeOfRoot root) after.committed := by
  have hkeys : ((sequel trimmedShirt).committed.tables.live? (⟨1⟩ : Id .root)).map
      (fun root => ((sequel trimmedShirt).committed.tables.cascadeOfRoot root).map AnyRow.key) =
        some [⟨.bridge, ⟨2⟩⟩, ⟨.product, ⟨1⟩⟩, ⟨.product, ⟨2⟩⟩, ⟨.value, ⟨2⟩⟩, ⟨.option, ⟨1⟩⟩,
          ⟨.root, ⟨1⟩⟩] := by decide +kernel
  have hdone : (store.perform none (.archiveRoot ⟨1⟩)
      (sequel trimmedShirt)).1.toOption.isSome := by decide +kernel
  generalize houtcome : store.perform none (.archiveRoot ⟨1⟩) (sequel trimmedShirt) = outcome
    at hdone
  obtain ⟨error | moment, after⟩ := outcome
  · cases hdone
  · obtain ⟨root, hlive, hloses, _⟩ := archive_sequel trimmedShirt none (.archiveRoot ⟨1⟩)
      ⟨.root, ⟨1⟩⟩ moment after rfl houtcome
    rw [hlive] at hkeys
    exact ⟨root, after, Option.some.inj hkeys, hloses⟩

end Memory

end VariantCatalog
