/-
# Operations leave tables coherent and attached

Each archiving operation archives a cascade, and a cascade leaves nothing behind: a
live row that hangs below a row of it belongs to it.  For a root this takes more
than that live rows have live keepers.  The values of the root are archived without
a look at the bridges to them; that none of these is left is because a bridge joins
rows of one root, so that its variant is archived as well.

Options and values are uprooted as well: with what they stem from, they are archived.

A creation makes every row together with its keepers and its stem, and an edit neither
archives a row nor moves it.
-/

import VariantCatalog.Proofs.Memory.Attachment
import VariantCatalog.Proofs.Operation.Effect

namespace VariantCatalog

open Memory Expansion

/-! ## Cascades -/

namespace Tables

variable {tables : Tables}

theorem mem_ofRows_liveRows {kind : EntityKind} {condition : kind.Row → Bool} {any : AnyRow} :
    any ∈ AnyRow.ofRows kind ((tables.table kind).liveRows condition) ↔
      ∃ row, tables.live? (Row.id row) = some row ∧ condition row ∧ any = ⟨kind, row⟩ := by
  constructor
  · intro h
    obtain ⟨row, hrow, rfl⟩ := List.mem_map.mp h
    obtain ⟨hlive, hcondition⟩ := mem_liveRows.mp hrow
    exact ⟨row, hlive, hcondition, rfl⟩
  · rintro ⟨row, hlive, hcondition, rfl⟩
    exact AnyRow.mem_ofRows.mpr (mem_liveRows.mpr ⟨hlive, hcondition⟩)

theorem mem_bridgesOf {product : Id .product} {any : AnyRow} :
    any ∈ tables.bridgesOf product ↔ ∃ bridge : VariantBridge,
      tables.live? bridge.id = some bridge ∧ bridge.product = product ∧
        any = ⟨.bridge, bridge⟩ := by
  have hmem := @mem_ofRows_liveRows tables .bridge (fun bridge => bridge.product = product) any
  simp only [decide_eq_true_eq] at hmem
  exact hmem

theorem mem_bridgesTo {value : Id .value} {any : AnyRow} :
    any ∈ tables.bridgesTo value ↔ ∃ bridge : VariantBridge,
      tables.live? bridge.id = some bridge ∧ bridge.value = value ∧
        any = ⟨.bridge, bridge⟩ := by
  have hmem := @mem_ofRows_liveRows tables .bridge (fun bridge => bridge.value = value) any
  simp only [decide_eq_true_eq] at hmem
  exact hmem

theorem mem_valuesOf {option : Id .option} {any : AnyRow} :
    any ∈ tables.valuesOf option ↔ ∃ value : OptionValue,
      tables.live? value.id = some value ∧ value.option = option ∧
        any = ⟨.value, value⟩ := by
  have hmem := @mem_ofRows_liveRows tables .value (fun value => value.option = option) any
  simp only [decide_eq_true_eq] at hmem
  exact hmem

theorem encloses_cascadeOfVariant (row : Product) :
    tables.Encloses (tables.cascadeOfVariant row) where
  products {root product} hroot := by
    simp [cascadeOfVariant, mem_bridgesOf] at hroot
  bridgesOf {product bridge} hproduct hlive hbridge := by
    have hrow : product = row := by
      simpa [cascadeOfVariant, mem_bridgesOf] using hproduct
    subst hrow
    simpa [cascadeOfVariant, mem_bridgesOf] using ⟨hlive, hbridge⟩
  bridgesTo {value bridge} hvalue := by
    simp [cascadeOfVariant, mem_bridgesOf] at hvalue

theorem encloses_cascadeOfValue (row : OptionValue) :
    tables.Encloses (tables.cascadeOfValue row) where
  products {root product} hroot := by
    simp [cascadeOfValue, mem_bridgesTo] at hroot
  bridgesOf {product bridge} hproduct := by
    simp [cascadeOfValue, mem_bridgesTo] at hproduct
  bridgesTo {value bridge} hvalue hlive hbridge := by
    have hrow : value = row := by
      simpa [cascadeOfValue, mem_bridgesTo] using hvalue
    subst hrow
    simpa [cascadeOfValue, mem_bridgesTo] using ⟨hlive, hbridge⟩

theorem encloses_cascadeOfOption (row : ProductOption) :
    tables.Encloses (tables.cascadeOfOption row) where
  products {root product} hroot := by
    simp [cascadeOfOption, mem_bridgesTo, mem_valuesOf] at hroot
  bridgesOf {product bridge} hproduct := by
    simp [cascadeOfOption, mem_bridgesTo, mem_valuesOf] at hproduct
  bridgesTo {value bridge} hvalue hlive hbridge := by
    have hrow : tables.live? value.id = some value ∧ value.option = row.id := by
      simpa [cascadeOfOption, mem_bridgesTo, mem_valuesOf] using hvalue
    have hmem : value ∈ tables.values.liveRows (·.option = row.id) :=
      mem_liveRows.mpr ⟨hrow.1, decide_eq_true hrow.2⟩
    simpa [cascadeOfOption, mem_bridgesTo, mem_valuesOf] using ⟨value, hmem, hlive, hbridge⟩

/-- The variant of a live bridge to a value is of the root of the value. -/
theorem Coherent.exists_product (h : tables.Coherent) {bridge : VariantBridge}
    {value : OptionValue} {option : ProductOption}
    (hbridge : tables.live? bridge.id = some bridge) (hvalue : tables.find? value.id = some value)
    (hoption : tables.find? option.id = some option) (hvalueId : bridge.value = value.id)
    (hoptionId : value.option = option.id) :
    ∃ product : Product, tables.live? product.id = some product ∧
      bridge.product = product.id ∧ product.root = option.root := by
  have hlive := h.live hbridge ⟨.product, bridge.product⟩ List.mem_cons_self
  obtain ⟨product, hproduct⟩ := Option.isSome_iff_exists.mp hlive
  have hfound := (live?_eq_some.mp hproduct).1
  have hid : product.id = bridge.product := id_of_find? hfound
  obtain ⟨joined, valued, optioned, hjoined, hvalued, hoptioned, hroot⟩ :=
    h.oneRoot (live?_eq_some.mp hbridge).1
  rw [hvalueId, hvalue] at hvalued
  cases hvalued
  rw [hoptionId, hoption] at hoptioned
  cases hoptioned
  rw [hfound] at hjoined
  cases hjoined
  exact ⟨product, hid.symm ▸ hproduct, hid.symm, hroot.symm⟩

theorem encloses_cascadeOfRoot (h : tables.Coherent) (row : ProductRoot) :
    tables.Encloses (tables.cascadeOfRoot row) where
  products {root product} hroot hlive hproduct := by
    have hrow : root = row := by
      simpa [cascadeOfRoot, mem_bridgesOf, mem_valuesOf, AnyRow.ofRows] using hroot
    subst hrow
    have hmem : product ∈ tables.products.liveRows (·.root = root.id) :=
      mem_liveRows.mpr ⟨hlive, decide_eq_true hproduct⟩
    simpa [cascadeOfRoot, mem_bridgesOf, mem_valuesOf, AnyRow.ofRows] using hmem
  bridgesOf {product bridge} hproduct hlive hbridge := by
    have hmem : product ∈ tables.products.liveRows (·.root = row.id) := by
      simpa [cascadeOfRoot, mem_bridgesOf, mem_valuesOf, AnyRow.ofRows] using hproduct
    simpa [cascadeOfRoot, mem_bridgesOf, mem_valuesOf, AnyRow.ofRows] using
      ⟨product, hmem, hlive, hbridge⟩
  bridgesTo {value bridge} hvalue hlive hbridge := by
    have hrow : ∃ option ∈ tables.options.liveRows (·.root = row.id),
        tables.live? value.id = some value ∧ value.option = option.id := by
      simpa [cascadeOfRoot, mem_bridgesOf, mem_valuesOf, AnyRow.ofRows] using hvalue
    obtain ⟨option, hoption, hvalueLive, hvalueOption⟩ := hrow
    obtain ⟨hoptionLive, hoptionRoot⟩ := (@mem_liveRows tables .option option _).mp hoption
    have hvalueFound := (live?_eq_some.mp hvalueLive).1
    have hoptionFound := (live?_eq_some.mp hoptionLive).1
    obtain ⟨product, hproductLive, hproductId, hproductRoot⟩ :=
      h.exists_product hlive hvalueFound hoptionFound hbridge hvalueOption
    have hroot : product.root = row.id := hproductRoot.trans (of_decide_eq_true hoptionRoot)
    have hmem : product ∈ tables.products.liveRows (·.root = row.id) :=
      mem_liveRows.mpr ⟨hproductLive, decide_eq_true hroot⟩
    simpa [cascadeOfRoot, mem_bridgesOf, mem_valuesOf, AnyRow.ofRows] using
      ⟨product, hmem, hlive, hproductId⟩

theorem uproots_cascadeOfVariant (row : Product) :
    tables.Uproots (tables.cascadeOfVariant row) where
  options hroot := by
    simp [cascadeOfVariant, mem_bridgesOf] at hroot
  values hoption := by
    simp [cascadeOfVariant, mem_bridgesOf] at hoption

theorem uproots_cascadeOfValue (row : OptionValue) :
    tables.Uproots (tables.cascadeOfValue row) where
  options hroot := by
    simp [cascadeOfValue, mem_bridgesTo] at hroot
  values hoption := by
    simp [cascadeOfValue, mem_bridgesTo] at hoption

theorem uproots_cascadeOfOption (row : ProductOption) :
    tables.Uproots (tables.cascadeOfOption row) where
  options hroot := by
    simp [cascadeOfOption, mem_bridgesTo, mem_valuesOf] at hroot
  values {option value} hoption hlive hvalue := by
    have hrow : option = row := by
      simpa [cascadeOfOption, mem_bridgesTo, mem_valuesOf] using hoption
    subst hrow
    simpa [cascadeOfOption, mem_bridgesTo, mem_valuesOf] using ⟨hlive, hvalue⟩

theorem uproots_cascadeOfRoot (row : ProductRoot) :
    tables.Uproots (tables.cascadeOfRoot row) where
  options {root option} hroot hlive hoption := by
    have hrow : root = row := by
      simpa [cascadeOfRoot, mem_bridgesOf, mem_valuesOf, AnyRow.ofRows] using hroot
    subst hrow
    have hmem : option ∈ tables.options.liveRows (·.root = root.id) :=
      mem_liveRows.mpr ⟨hlive, decide_eq_true hoption⟩
    simpa [cascadeOfRoot, mem_bridgesOf, mem_valuesOf, AnyRow.ofRows] using hmem
  values {option value} hoption hlive hvalue := by
    have hmem : option ∈ tables.options.liveRows (·.root = row.id) := by
      simpa [cascadeOfRoot, mem_bridgesOf, mem_valuesOf, AnyRow.ofRows] using hoption
    simpa [cascadeOfRoot, mem_bridgesOf, mem_valuesOf, AnyRow.ofRows] using
      ⟨option, hmem, hlive, hvalue⟩

end Tables

/-! ## Creations -/

theorem mem_of_mem_select {options : List ProductOption} {positions : List Nat}
    {selection : Selection} (h : selection ∈ select options positions) :
    selection.option ∈ options ∧ selection.value ∈ selection.option.values := by
  obtain ⟨⟨option, position⟩, hmem, hselection⟩ := List.mem_filterMap.mp h
  obtain ⟨value, hvalue, rfl⟩ := Option.map_eq_some_iff.mp hselection
  exact ⟨(List.of_mem_zip hmem).1, List.mem_of_getElem? hvalue⟩

theorem OptionSpec.Lists.areRooted {option : Id .option} {text : String} {value : OptionValue}
    (h : OptionSpec.Lists option text value) : AreRooted [⟨.value, value⟩] where
  live {kind row} hrow := by
    cases List.mem_singleton.mp hrow
    exact h.live
  products hproduct := nomatch List.mem_singleton.mp hproduct
  bridges hbridge := nomatch List.mem_singleton.mp hbridge

/-- What an option was created with, besides its row, are its values. -/
theorem OptionSpec.Describes.value {root : Id .root} {spec : OptionSpec} {option : ProductOption}
    (h : spec.Describes root option) {value : OptionValue} (hvalue : value ∈ option.values) :
    value.option = option.id ∧ value.lifecycle.isLive := by
  obtain ⟨text, _, hlists⟩ := exists_of_forall₂ h.values.flip hvalue
  exact ⟨hlists.parent, hlists.live⟩

theorem OptionSpec.Describes.areRooted_rows {root : Id .root} {spec : OptionSpec}
    {option : ProductOption} (h : spec.Describes root option) : AreRooted option.rows where
  live {kind row} hrow := by
    rcases List.mem_cons.mp hrow with heq | hrow
    · cases heq
      exact h.live
    · obtain ⟨value, hvalue, heq⟩ := List.mem_map.mp hrow
      cases heq
      exact (h.value hvalue).2
  products hproduct := by
    simp [ProductOption.rows] at hproduct
  bridges hbridge := by
    simp [ProductOption.rows] at hbridge

/-- The rows of an option that was created hang below its root and below each other. -/
theorem OptionSpec.Describes.stems {root : Id .root} {spec : OptionSpec}
    {option : ProductOption} (h : spec.Describes root option) {kind : EntityKind}
    {row : kind.Row} (hrow : (⟨kind, row⟩ : AnyRow) ∈ option.rows) {stem : RowKey}
    (hstem : stem ∈ Row.stems row) :
    stem = ⟨.root, root⟩ ∨ stem ∈ option.rows.map AnyRow.key := by
  rcases List.mem_cons.mp hrow with heq | hrow
  · cases heq
    refine .inl ((List.mem_singleton.mp hstem).trans ?_)
    exact congrArg (RowKey.mk .root) h.parent
  · obtain ⟨value, hvalue, heq⟩ := List.mem_map.mp hrow
    cases heq
    refine .inr ?_
    rw [List.mem_singleton.mp hstem, (h.value hvalue).1]
    exact List.mem_map.mpr ⟨_, List.mem_cons_self, rfl⟩

namespace Growth

variable {growth : Growth}

theorem option_mem_rows {row : ProductOption} : (⟨.option, row⟩ : AnyRow) ∈ growth.rows ↔
    ∃ option ∈ growth.options, row = option.stored := by
  simp [rows, ProductOption.rows, Variant.rows]

theorem value_mem_rows {value : OptionValue} : (⟨.value, value⟩ : AnyRow) ∈ growth.rows ↔
    ∃ option ∈ growth.options, value ∈ option.values := by
  simp [rows, ProductOption.rows, Variant.rows]

theorem product_mem_rows {row : Product} : (⟨.product, row⟩ : AnyRow) ∈ growth.rows ↔
    ∃ variant ∈ growth.variants, row = variant.product.stored := by
  simp [rows, ProductOption.rows, Variant.rows]

theorem bridge_mem_rows {bridge : VariantBridge} : (⟨.bridge, bridge⟩ : AnyRow) ∈ growth.rows ↔
    ∃ variant ∈ growth.variants, bridge ∈ variant.bridges := by
  simp [rows, ProductOption.rows, Variant.rows]

end Growth

namespace Creation.Expands

variable {creation : Creation} {growth : Growth}

theorem option (h : creation.Expands growth) {option : ProductOption}
    (hoption : option ∈ growth.options) :
    ∃ spec : OptionSpec, spec.Describes growth.root.id option := by
  obtain ⟨spec, _, hdescribes⟩ := exists_of_forall₂ h.options.flip hoption
  exact ⟨spec, hdescribes⟩

/-- Every variant is of the root, was made of values of its options, and is joined to
them. -/
theorem variant (h : creation.Expands growth) {variant : Variant}
    (hvariant : variant ∈ growth.variants) :
    variant.product.root = growth.root.id ∧ variant.product.lifecycle.isLive ∧
      ∃ combination : Combination, variant.product.optionValues = combination.values ∧
        Joins variant.product.id combination.valueIds variant.bridges ∧
          ∀ selection ∈ combination,
            selection.option ∈ growth.options ∧ selection.value ∈ selection.option.values := by
  by_cases hoptions : creation.options = []
  · obtain ⟨plain, hvariants, hplain⟩ := h.plain hoptions
    rw [hvariants] at hvariant
    cases List.mem_singleton.mp hvariant
    refine ⟨hplain.parent, hplain.live, [], hplain.optionValues, ?_,
      fun _ hmem => absurd hmem List.not_mem_nil⟩
    rw [hplain.bridges]
    exact List.Forall₂.nil
  · obtain ⟨place, hplace⟩ := List.mem_iff_getElem?.mp hvariant
    obtain ⟨_, hselects⟩ := h.variants hoptions place variant hplace
    exact ⟨hselects.parent, hselects.live, _, hselects.optionValues, hselects.bridges,
      fun _ => mem_of_mem_select⟩

/-- A creation makes its rows from the root down. -/
theorem areRooted_rows (h : creation.Expands growth) : AreRooted growth.rows where
  live {kind row} hrow := by
    rcases List.mem_append.mp hrow with hrow | hrow
    · rcases List.mem_cons.mp hrow with heq | hrow
      · cases heq
        exact h.live
      · obtain ⟨option, hoption, hrow⟩ := List.mem_flatMap.mp hrow
        obtain ⟨spec, hdescribes⟩ := h.option hoption
        exact hdescribes.areRooted_rows.live hrow
    · obtain ⟨variant, hvariant, hrow⟩ := List.mem_flatMap.mp hrow
      obtain ⟨_, hlive, combination, _, hjoins, _⟩ := h.variant hvariant
      rcases List.mem_cons.mp hrow with heq | hrow
      · cases heq
        exact hlive
      · obtain ⟨bridge, hbridge, heq⟩ := List.mem_map.mp hrow
        cases heq
        obtain ⟨_, _, _, _, hbridgeLive⟩ := exists_of_forall₂ hjoins.flip hbridge
        exact hbridgeLive
  products {product} hproduct := by
    obtain ⟨variant, hvariant, rfl⟩ := Growth.product_mem_rows.mp hproduct
    exact ⟨growth.root, List.mem_cons_self, (h.variant hvariant).1⟩
  bridges {bridge} hbridge := by
    obtain ⟨variant, hvariant, hbridge⟩ := Growth.bridge_mem_rows.mp hbridge
    obtain ⟨hroot, _, combination, _, hjoins, hselected⟩ := h.variant hvariant
    obtain ⟨id, hid, hproduct, hvalue, _⟩ := exists_of_forall₂ hjoins.flip hbridge
    obtain ⟨selection, hselection, rfl⟩ := List.mem_map.mp hid
    obtain ⟨hoptionMem, hvalueMem⟩ := hselected selection hselection
    obtain ⟨spec, hdescribes⟩ := h.option hoptionMem
    have hvalueOption := (hdescribes.value hvalueMem).1
    have hoptionRoot : selection.option.root = variant.product.root :=
      hdescribes.parent.trans hroot.symm
    exact ⟨variant.product.stored, selection.value, selection.option.stored,
      Growth.product_mem_rows.mpr ⟨variant, hvariant, rfl⟩,
      Growth.value_mem_rows.mpr ⟨selection.option, hoptionMem, hvalueMem⟩,
      Growth.option_mem_rows.mpr ⟨selection.option, hoptionMem, rfl⟩,
      hproduct, hvalue, hvalueOption, hoptionRoot⟩

/-- The rows of a creation hang below each other. -/
theorem stems (h : creation.Expands growth) {kind : EntityKind} {row : kind.Row}
    (hrow : (⟨kind, row⟩ : AnyRow) ∈ growth.rows) {stem : RowKey}
    (hstem : stem ∈ Row.stems row) : stem ∈ growth.rows.map AnyRow.key := by
  rcases List.mem_append.mp hrow with hrow | hrow
  · rcases List.mem_cons.mp hrow with heq | hrow
    · cases heq
      cases hstem
    · obtain ⟨option, hoption, hrow⟩ := List.mem_flatMap.mp hrow
      obtain ⟨spec, hdescribes⟩ := h.option hoption
      rcases hdescribes.stems hrow hstem with rfl | hstem
      · exact List.mem_map.mpr ⟨_, List.mem_cons_self, rfl⟩
      · obtain ⟨any, hany, rfl⟩ := List.mem_map.mp hstem
        refine List.mem_map.mpr ⟨any, List.mem_append_left _ (List.mem_cons_of_mem _ ?_), rfl⟩
        exact List.mem_flatMap.mpr ⟨option, hoption, hany⟩
  · obtain ⟨variant, _, hrow⟩ := List.mem_flatMap.mp hrow
    rcases List.mem_cons.mp hrow with heq | hrow
    · cases heq
      cases hstem
    · obtain ⟨bridge, _, heq⟩ := List.mem_map.mp hrow
      cases heq
      cases hstem

end Creation.Expands

/-! ## Edits -/

namespace Operation

variable {origin : Tables} {tx : Transaction}

theorem Revises.settled {kind : EntityKind} {old new : kind.Row}
    (h : Revises origin kind old new tx) (hkind : kind ≠ .bridge) : tx.Settled := by
  have hentry : ∀ entry ∈ tx.journal, entry = ⟨kind, Row.id new, .updated⟩ := by
    rw [h.transaction]
    exact fun entry => List.mem_singleton.mp
  constructor
  · exact fun hcreated => nomatch congrArg Entry.action (hentry _ hcreated)
  · exact fun hupdated => hkind (congrArg Entry.kind (hentry _ hupdated)).symm

/-- An edit that leaves its row live leaves everything live. -/
theorem Revises.isSome_live? {kind : EntityKind} {old new : kind.Row}
    (h : Revises origin kind old new tx) (hnew : Row.isLive new) {other : EntityKind}
    {id : Id other} (hlive : (origin.live? id).isSome) : (tx.working.live? id).isSome := by
  rw [h.transaction]
  by_cases hkey : (⟨kind, Row.id new⟩ : RowKey) = ⟨other, id⟩
  · cases hkey
    exact Tables.isSome_live? (Transaction.find?_write_self _ new .updated) hnew
  · obtain ⟨row, hrow⟩ := Option.isSome_iff_exists.mp hlive
    obtain ⟨hfound, hrowLive⟩ := Tables.live?_eq_some.mp hrow
    exact Tables.isSome_live? ((Transaction.find?_write_of_key_ne hkey).trans hfound) hrowLive

theorem Revises.coherent {kind : EntityKind} {old new : kind.Row}
    (h : Revises origin kind old new tx) (hdeparts : Departs origin tx)
    (hcoherent : origin.Coherent) (hkind : kind ≠ .bridge) (hnew : Row.isLive new) :
    tx.working.Coherent :=
  (h.settled hkind).coherent hdeparts hcoherent fun _ _ _ hkept => h.isSome_live? hnew hkept

end Operation

end VariantCatalog
