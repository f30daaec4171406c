/-
# The constraints hold in every committed state

A transaction works on a copy that may long be out of date when it commits, and a
commit checks again only the rows that it writes.  Still no committed state ever
breaks a constraint, whoever works on the catalog and in whatever order: the rows
that a commit leaves alone were consistent among themselves, and a clash with a
row that it writes is seen from that row.

The constraints are stated twice.  `Tables.Intact` says them once for all kinds of
rows, which is how they are preserved; `Tables.Consistent` says them kind by kind,
which is how they are read.
-/

import VariantCatalog.Proofs.Interleaving.Scene
import VariantCatalog.Proofs.Memory.Fitting

namespace VariantCatalog

open Memory

/-- What can be relied on in the tables of a catalog, kind by kind. -/
structure Tables.Consistent (tables : Tables) : Prop where
  root_of_option : ∀ option ∈ tables.options.rows, ∃ root ∈ tables.roots.rows,
    root.id = option.root
  option_of_value : ∀ value ∈ tables.values.rows, ∃ option ∈ tables.options.rows,
    option.id = value.option
  root_of_product : ∀ product ∈ tables.products.rows, ∃ root ∈ tables.roots.rows,
    root.id = product.root
  product_of_bridge : ∀ bridge ∈ tables.bridges.rows, ∃ product ∈ tables.products.rows,
    product.id = bridge.product
  value_of_bridge : ∀ bridge ∈ tables.bridges.rows, ∃ value ∈ tables.values.rows,
    value.id = bridge.value
  /-- Prefixes and SKUs are claimed by archived rows as well. -/
  unique_prefix : ∀ first ∈ tables.roots.rows, ∀ second ∈ tables.roots.rows,
    first.skuPrefix = second.skuPrefix → first = second
  unique_sku : ∀ first ∈ tables.products.rows, ∀ second ∈ tables.products.rows,
    first.sku = second.sku → first = second
  /-- Names, values and links are claimed by live rows only. -/
  unique_name : ∀ first ∈ tables.options.rows, ∀ second ∈ tables.options.rows,
    first.lifecycle.isLive → second.lifecycle.isLive →
      first.root = second.root → first.name = second.name → first = second
  unique_value : ∀ first ∈ tables.values.rows, ∀ second ∈ tables.values.rows,
    first.lifecycle.isLive → second.lifecycle.isLive →
      first.option = second.option → first.value = second.value → first = second
  unique_link : ∀ first ∈ tables.bridges.rows, ∀ second ∈ tables.bridges.rows,
    first.lifecycle.isLive → second.lifecycle.isLive →
      first.product = second.product → first.value = second.value → first = second
  own_id : ∀ {kind : EntityKind} (id : Id kind) (row : kind.Row),
    tables.find? id = some row → Row.id row = id
  no_values : ∀ option ∈ tables.options.rows, option.values = []
  no_option_values : ∀ product ∈ tables.products.rows, product.optionValues = []

namespace Tables.Intact

variable {tables : Tables}

theorem exists_parent (h : tables.Intact) (kind : EntityKind) {parentKind : EntityKind}
    {row : kind.Row} {parent : Id parentKind} (hrow : row ∈ (tables.table kind).rows)
    (hparent : (⟨parentKind, parent⟩ : RowKey) ∈ Row.parents row) :
    ∃ found ∈ (tables.table parentKind).rows, Row.id found = parent := by
  have hsome := h.referenced (Tables.mem_iff.mp hrow) _ hparent
  obtain ⟨found, hfound⟩ := Option.isSome_iff_exists.mp hsome
  exact ⟨found, Table.mem_of_find? hfound, Tables.id_of_find? hfound⟩

theorem eq_of_clash (h : tables.Intact) (kind : EntityKind) {first second : kind.Row}
    (hfirst : first ∈ (tables.table kind).rows) (hsecond : second ∈ (tables.table kind).rows)
    (hclash : clash first second = true) : first = second :=
  h.unrivalled (Tables.mem_iff.mp hfirst) (Tables.mem_iff.mp hsecond) hclash

theorem isBare_of_mem (h : tables.Intact) (kind : EntityKind) {row : kind.Row}
    (hrow : row ∈ (tables.table kind).rows) : Row.IsBare row :=
  h.bare (Tables.mem_iff.mp hrow)

/-- The constraints of all kinds of rows, read kind by kind. -/
theorem consistent (h : tables.Intact) : tables.Consistent where
  root_of_option _ hrow := h.exists_parent .option hrow List.mem_cons_self
  option_of_value _ hrow := h.exists_parent .value hrow List.mem_cons_self
  root_of_product _ hrow := h.exists_parent .product hrow List.mem_cons_self
  product_of_bridge _ hrow := h.exists_parent .bridge hrow List.mem_cons_self
  value_of_bridge _ hrow :=
    h.exists_parent .bridge hrow (List.mem_cons_of_mem _ List.mem_cons_self)
  unique_prefix _ hfirst _ hsecond heq :=
    h.eq_of_clash .root hfirst hsecond (decide_eq_true heq)
  unique_sku _ hfirst _ hsecond heq :=
    h.eq_of_clash .product hfirst hsecond (decide_eq_true heq)
  unique_name _ hfirst _ hsecond hlive hsecondLive hroot hname :=
    h.eq_of_clash .option hfirst hsecond
      (clash_option_iff.mpr ⟨hlive, hsecondLive, hroot, hname⟩)
  unique_value _ hfirst _ hsecond hlive hsecondLive hoption hvalue :=
    h.eq_of_clash .value hfirst hsecond
      (clash_value_iff.mpr ⟨hlive, hsecondLive, hoption, hvalue⟩)
  unique_link _ hfirst _ hsecond hlive hsecondLive hproduct hvalue :=
    h.eq_of_clash .bridge hfirst hsecond
      (clash_bridge_iff.mpr ⟨hlive, hsecondLive, hproduct, hvalue⟩)
  own_id _ _ hfind := Tables.id_of_find? hfind
  no_values _ hrow := h.isBare_of_mem .option hrow
  no_option_values _ hrow := h.isBare_of_mem .product hrow

end Tables.Intact

namespace Memory

/-- The committed tables keep every constraint, and so do the tables of every draft. -/
structure Scene.Sound (scene : Scene) : Prop where
  intact : scene.memory.committed.tables.Intact
  drafts {name : Nat} {draft : Draft} : scene.draft name = some draft → draft.tx.working.Intact

namespace Scene

variable {scene : Scene}

/-- A sound scene stays sound when a draft that breaks no constraint is held. -/
theorem Sound.hold (h : scene.Sound) (name : Nat) (draft : Option Draft)
    (hdraft : ∀ new, draft = some new → new.tx.working.Intact) : (scene.hold name draft).Sound where
  intact := h.intact
  drafts {other new} hholds := by
    rcases draft_hold_cases hholds with ⟨_, hnew⟩ | ⟨_, hbefore⟩
    · exact hdraft new hnew
    · exact h.drafts hbefore

end Scene

/-- No event makes a sound scene unsound. -/
theorem Event.sound {scene after : Scene} (h : Event scene after) (hsound : scene.Sound) :
    after.Sound := by
  cases h with
  | turn fault => exact ⟨hsound.intact, hsound.drafts⟩
  | begin name =>
      refine hsound.hold name _ fun new hnew => ?_
      cases hnew
      exact hsound.intact
  | stroke name origin tx later holds hstroke =>
      have hrecalled : (scene.withMemory
          { scene.memory with registers := later.registers }).Sound :=
        ⟨hsound.intact, hsound.drafts⟩
      refine hrecalled.hold name _ fun new hnew => ?_
      cases hnew
      exact hstroke.intact (hsound.drafts holds)
  | leave name => exact hsound.hold name none fun new hnew => nomatch hnew
  | merge name origin tx committed holds merged =>
      have hrecalled : (scene.withMemory { scene.memory with committed }).Sound :=
        ⟨Committed.intact_merge hsound.intact (hsound.drafts holds).bare merged, hsound.drafts⟩
      exact hrecalled.hold name none fun new hnew => nomatch hnew

namespace System

theorem sound_run (moves : List Move) : (run moves).scene.Sound := by
  refine scene_run_preserves ⟨Tables.intact_empty, ?_⟩ Event.sound moves
  intro name draft hholds
  cases hholds

/-- **The constraints hold in every committed state**, whatever transactions and
operations ran before, in whatever order their calls and the halves of their commits
came, and whatever faults struck. -/
theorem consistent_run (moves : List Move) :
    (run moves).memory.committed.tables.Consistent :=
  (sound_run moves).intact.consistent

end System

end Memory

end VariantCatalog
