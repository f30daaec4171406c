/-
# What a creation needs to be free

A creation that nobody comes between succeeds just if all names that it gives are free:
the prefix and the SKUs among all rows that ever were, the names of its options and the
values of each option among themselves.  `Creation.Unclaimed` says so from the request
alone, with the SKUs spelt out.

The bodies ask about some of these names before they write and not about others, and
what they miss is found when the row is written.  Either way a name that is not free
makes for a conflict, and nothing else does: all rows that a new row refers to were
created before it in the same transaction.
-/

import VariantCatalog.Proofs.Memory.Fitting
import VariantCatalog.Proofs.Operation.Upkeep
import Mathlib.Data.List.Flatten
import Mathlib.Data.List.Nodup

namespace VariantCatalog

open Memory Calendar Expansion Text

/-! ## Names -/

/-- The ways to choose one value of each option, the last option turning fastest. -/
def OptionSpec.choices : List OptionSpec → List (List String)
  | [] => [[]]
  | spec :: rest => spec.values.flatMap fun value => (choices rest).map (value :: ·)

namespace Creation

/-- The SKU of the variant that some values are chosen for. -/
def skuOf (creation : Creation) (texts : List String) : String :=
  creation.product.sku ++ "_" ++ "_".intercalate (texts.map lowercase)

/-- The SKUs of all variants: one for each choice of values, or the prefix itself. -/
def skus (creation : Creation) : List String :=
  if creation.options.isEmpty then [creation.product.sku]
  else (OptionSpec.choices creation.options).map creation.skuOf

/-- All names that a creation gives are free. -/
structure Unclaimed (creation : Creation) (tables : Tables) : Prop where
  skuPrefix : ∀ root ∈ tables.roots.rows, root.skuPrefix ≠ creation.product.sku
  names : (creation.options.map (·.name)).Nodup
  values : ∀ spec ∈ creation.options, spec.values.Nodup
  distinct : creation.skus.Nodup
  skus : ∀ product ∈ tables.products.rows, product.sku ∉ creation.skus

instance (creation : Creation) (tables : Tables) : Decidable (creation.Unclaimed tables) :=
  decidable_of_iff
    ((∀ root ∈ tables.roots.rows, root.skuPrefix ≠ creation.product.sku) ∧
      (creation.options.map (·.name)).Nodup ∧ (∀ spec ∈ creation.options, spec.values.Nodup) ∧
        creation.skus.Nodup ∧ ∀ product ∈ tables.products.rows, product.sku ∉ creation.skus)
    ⟨fun ⟨skuPrefix, names, values, distinct, skus⟩ => ⟨skuPrefix, names, values, distinct, skus⟩,
      fun h => ⟨h.skuPrefix, h.names, h.values, h.distinct, h.skus⟩⟩

end Creation

/-! ## Choices and combinations -/

theorem texts_of_lists {option : Id .option} {texts : List String} {values : List OptionValue}
    (h : List.Forall₂ (OptionSpec.Lists option) texts values) : values.map (·.value) = texts := by
  induction h with
  | nil => rfl
  | cons hlists _ ih => rw [List.map_cons, ih, hlists.value]

theorem names_of_describes {root : Id .root} {specs : List OptionSpec}
    {options : List ProductOption} (h : List.Forall₂ (OptionSpec.Describes root) specs options) :
    options.map (·.name) = specs.map (·.name) := by
  induction h with
  | nil => rfl
  | cons hdescribes _ ih => rw [List.map_cons, List.map_cons, ih, hdescribes.name]

/-- The combinations of options as created are the choices of their specifications. -/
theorem choices_of_describes {root : Id .root} {specs : List OptionSpec}
    {options : List ProductOption} (h : List.Forall₂ (OptionSpec.Describes root) specs options) :
    (Combination.all options).map (fun combination => combination.map (·.value.value)) =
      OptionSpec.choices specs := by
  induction h with
  | nil => rfl
  | cons hdescribes _ ih =>
      rw [Combination.all, OptionSpec.choices, ← ih, List.map_flatMap,
        ← texts_of_lists hdescribes.values, List.flatMap_map]
      simp only [List.map_map, Function.comp_def, List.map_cons]

theorem skus_of_describes {creation : Creation} {root : Id .root} {options : List ProductOption}
    (h : List.Forall₂ (OptionSpec.Describes root) creation.options options)
    (hoptions : options ≠ []) :
    (Combination.all options).map (fun combination =>
      combination.naming.sku creation.product.sku) = creation.skus := by
  have hspecs : creation.options.isEmpty = false := by
    rw [List.isEmpty_eq_false_iff]
    rintro hnil
    rw [hnil, List.forall₂_nil_left_iff] at h
    exact hoptions h
  simp only [Creation.skus, hspecs, Bool.false_eq_true, if_false, ← choices_of_describes h,
    List.map_map, Function.comp_def, Creation.skuOf, VariantNaming.sku, Combination.naming,
    VariantNaming.ofPairs]

/-- The SKU of a variant is the one that its combination names. -/
theorem Variant.Selects.sku_eq {root : ProductRoot} {combination : Combination}
    {variant : Variant} (h : variant.Selects root combination) :
    variant.product.sku = combination.naming.sku root.skuPrefix := by
  simp only [h.sku, VariantNaming.sku, Combination.naming, VariantNaming.ofPairs, List.map_map,
    Function.comp_def]

/-- A combination selects different values, if no two values of the options are the
same. -/
theorem nodup_valueIds {options : List ProductOption}
    (h : (options.flatMap fun option => option.values.map (·.id)).Nodup) :
    ∀ combination ∈ Combination.all options, combination.valueIds.Nodup ∧
      ∀ id ∈ combination.valueIds, id ∈ options.flatMap fun option => option.values.map (·.id) := by
  induction options with
  | nil =>
      intro combination hmem
      rw [List.mem_singleton.mp hmem]
      exact ⟨List.nodup_nil, fun _ hid => nomatch hid⟩
  | cons option rest ih =>
      intro combination hmem
      rw [List.flatMap_cons] at h ⊢
      obtain ⟨_, hrest, hapart⟩ := List.nodup_append.mp h
      obtain ⟨value, hvalue, hmem⟩ := List.mem_flatMap.mp hmem
      obtain ⟨others, hothers, rfl⟩ := List.mem_map.mp hmem
      obtain ⟨hnodup, hids⟩ := ih hrest others hothers
      have hvalueId : value.id ∈ option.values.map (·.id) := List.mem_map.mpr ⟨value, hvalue, rfl⟩
      refine ⟨List.nodup_cons.mpr ⟨fun hid => ?_, hnodup⟩, fun id hid => ?_⟩
      · exact hapart _ hvalueId _ (hids _ hid) rfl
      · rcases List.mem_cons.mp hid with rfl | hid
        · exact List.mem_append_left _ hvalueId
        · exact List.mem_append_right _ (hids id hid)

theorem not_nodup_of_initial {α β : Type} {f : α → β} {done items : List α} {item : α}
    (hinitial : done ++ [item] <+: items) (hmem : f item ∈ done.map f) :
    ¬ (items.map f).Nodup := by
  intro hnodup
  have hdone := hnodup.sublist (hinitial.map f).sublist
  rw [List.map_append, List.nodup_append] at hdone
  exact hdone.2.2 _ hmem _ (List.mem_singleton_self _) rfl

namespace Operation

open Program

variable {session : Session} {obstacle : Prop}

/-! ## The bodies -/

/-- A loop that makes something for each item meets no obstacle if none of its steps
does, whatever was made before it. -/
theorem Achieves.mapM {ι β γ : Type} {f : ι → Program β} {fits : ι → γ → Prop}
    {rows : γ → List AnyRow} {view : γ → β} {items : List ι} (h : session.Sound)
    (hmakes : ∀ item, Makes (fits item) rows view (f item))
    (hstep : ∀ done item made middle, done ++ [item] <+: items → List.Forall₂ fits done made →
      Adds session (made.flatMap rows) middle → middle.Sound →
        Achieves obstacle (f item) middle) : Achieves obstacle (items.mapM f) session := by
  -- The induction is on the items that are left, with what was made for the others.
  have hloop : ∀ (rest done : List ι) (made : List γ) (middle : Session), done ++ rest = items →
      List.Forall₂ fits done made → Adds session (made.flatMap rows) middle → middle.Sound →
        Achieves obstacle (rest.mapM f) middle := by
    intro rest
    induction rest with
    | nil => exact fun done made middle _ _ _ hmiddle => hmiddle
    | cons item rest ih =>
        intro done made middle hitems hfits hadds hmiddle
        have hnext : (done ++ [item]) ++ rest = items := by
          rw [List.append_assoc]
          exact hitems
        rw [List.mapM_cons]
        apply (hstep done item made middle ⟨rest, hnext⟩ hfits hadds hmiddle).bind
          (hmakes item middle)
        rintro result after ⟨last, rfl, hlast, hmore⟩ hafter
        have hall : Adds session ((made ++ [last]).flatMap rows) after := by
          rw [List.flatMap_append, List.flatMap_singleton]
          exact hadds.trans hmore
        have hfitsAll := List.rel_append hfits (List.Forall₂.cons hlast List.Forall₂.nil)
        exact (ih _ _ after hnext hfitsAll hall hafter).andReturn _
  exact hloop items [] [] session rfl List.Forall₂.nil (.none rfl (Sequences.le_refl _)) h

theorem achieves_createValue {option : Id .option} {text : String} (h : session.Sound)
    (hoption : (session.transaction.working.find? option).isSome)
    (hobstacle : ∀ (id : Id .value) (rival : OptionValue),
      session.transaction.working.live? id = some rival → rival.option = option →
        rival.value = text → obstacle) : Achieves obstacle (createValue option text) session := by
  apply Achieves.askRequire rfl
  · intro htaken
    obtain ⟨rival, hrival, hcondition⟩ := @Tables.exists_of_liveRows session.transaction.working .value
      (fun row => row.option = option && row.value = text) ((Bool.not_not _).symm.trans htaken)
    simp only [Bool.and_eq_true, decide_eq_true_eq] at hcondition
    exact hobstacle _ rival hrival hcondition.1 hcondition.2
  · exact achieves_newValue h hoption hobstacle

/-- A new option has no value in the way of the first one that has its text. -/
theorem achieves_createOption {root : Id .root} {spec : OptionSpec} (h : session.Sound)
    (hroot : (session.transaction.working.find? root).isSome)
    (hname : ∀ (id : Id .option) (rival : ProductOption),
      session.transaction.working.live? id = some rival → rival.root = root →
        rival.name = spec.name → obstacle)
    (hvalues : ¬ spec.values.Nodup → obstacle) :
    Achieves obstacle (createOption root spec) session := by
  apply Achieves.askRequire rfl
  · intro htaken
    obtain ⟨rival, hrival, hcondition⟩ := @Tables.exists_of_liveRows session.transaction.working .option
      (fun row => row.root = root && row.name = spec.name) ((Bool.not_not _).symm.trans htaken)
    simp only [Bool.and_eq_true, decide_eq_true_eq] at hcondition
    exact hname _ rival hrival hcondition.1 hcondition.2
  · apply (achieves_newOption h hroot hname).bind
      (ensures_order.mpr fun option after => answers_createOption)
    rintro option middle ⟨⟨moment, number, rfl⟩, hadds⟩ hmiddle
    have hloop : Achieves obstacle (spec.values.mapM (createValue number)) middle := by
      apply Achieves.mapM hmiddle (makes_createValue number)
      intro done text made last hinitial hfits hmade hlast
      apply achieves_createValue hlast
      · apply hmade.isSome_of_before hmiddle.drawn
        exact Option.isSome_of_eq_some (hadds.find?_of_mem List.mem_cons_self)
      · intro other rival hrival hparent htext
        -- A value in the way is one of those before it: no older one is of this option.
        rcases hmade.live?_cases hrival with hnew | hbefore
        · obtain ⟨value, hvalue, heq⟩ := List.mem_flatMap.mp hnew
          cases List.mem_singleton.mp heq
          obtain ⟨listed, hlisted, hlists⟩ := exists_of_forall₂ hfits.flip hvalue
          have hsame : listed = text := hlists.value.symm.trans htext
          have hnot := @not_nodup_of_initial _ _ id _ _ _ hinitial
            (List.mem_map.mpr ⟨listed, hlisted, hsame⟩)
          rw [List.map_id] at hnot
          exact hvalues hnot
        · rcases hadds.live?_cases hbefore with hnew | hold
          · cases List.mem_singleton.mp hnew
          · have hnot := hadds.parent_not_mem h (Tables.live?_eq_some.mp hold).1
              (List.mem_singleton_self _)
            rw [hparent] at hnot
            exact absurd List.mem_cons_self hnot
    exact hloop.andReturn _

/-- The options of a new root are only in the way of each other. -/
theorem achieves_createOptions {root : Id .root} {specs : List OptionSpec} (h : session.Sound)
    (hroot : (session.transaction.working.find? root).isSome)
    (hnew : ∀ (id : Id .option) (option : ProductOption),
      session.transaction.working.find? id = some option → option.root ≠ root)
    (hnames : ¬ (specs.map (·.name)).Nodup → obstacle)
    (hvalues : ∀ spec ∈ specs, ¬ spec.values.Nodup → obstacle) :
    Achieves obstacle (specs.mapM (createOption root)) session := by
  apply Achieves.mapM h (makes_createOption root)
  intro done spec made last hinitial hfits hmade hlast
  have hspec : spec ∈ specs := hinitial.subset List.mem_concat_self
  apply achieves_createOption hlast (hmade.isSome_of_before h.drawn hroot) _ (hvalues spec hspec)
  intro other rival hrival hparent hname
  rcases hmade.live?_cases hrival with hcreated | hold
  · obtain ⟨option, hoption, hrow⟩ := List.mem_flatMap.mp hcreated
    have hstored : rival = option.stored := by
      simpa [ProductOption.rows] using hrow
    obtain ⟨named, hnamed, hdescribes⟩ := exists_of_forall₂ hfits.flip hoption
    have hsame : named.name = spec.name := by
      rw [← hname, hstored]
      exact hdescribes.name.symm
    exact hnames (not_nodup_of_initial hinitial (List.mem_map.mpr ⟨named, hnamed, hsame⟩))
  · exact absurd hparent (hnew other rival (Tables.live?_eq_some.mp hold).1)

/-- A new variant has no bridges, so only its SKU can be in the way. -/
theorem achieves_createVariant {root : ProductRoot} {draft : ProductDraft}
    {combination : Combination} (h : session.Sound)
    (hroot : (session.transaction.working.find? root.id).isSome)
    (hvalues : ∀ id ∈ combination.valueIds, (session.transaction.working.find? id).isSome)
    (hdistinct : combination.valueIds.Nodup)
    (hsku : ∀ (id : Id .product) (rival : Product),
      session.transaction.working.find? id = some rival →
        rival.sku = combination.naming.sku root.skuPrefix → obstacle) :
    Achieves obstacle (createVariant root draft combination) session := by
  apply Achieves.bind (achieves_newProduct h hroot hsku)
    (ensures_order.mpr fun product after => answers_createProduct)
  rintro product middle ⟨⟨moment, number, rfl⟩, hadds⟩ hmiddle
  have hbridges : Achieves obstacle (order (.createBridges number combination.valueIds))
      middle := by
    apply achieves_newBridges hmiddle
    · exact Option.isSome_of_eq_some (hadds.find?_of_mem List.mem_cons_self)
    · exact fun id hid => hadds.isSome_of_before h.drawn (hvalues id hid)
    · exact hdistinct
    · intro id bridge hbridge hparent
      rcases hadds.find?_cases hbridge with hnew | hold
      · cases List.mem_singleton.mp hnew
      · have hnot := hadds.parent_not_mem h hold List.mem_cons_self
        rw [hparent] at hnot
        exact absurd List.mem_cons_self hnot
  exact hbridges.andReturn _

/-- The variants of some combinations are in the way of each other if two have the same SKU,
and else only those that were there before can be. -/
theorem achieves_createVariants_of {root : ProductRoot} {draft : ProductDraft}
    {combinations : List Combination} (h : session.Sound)
    (hroot : (session.transaction.working.find? root.id).isSome)
    (hvalues : ∀ combination ∈ combinations, combination.valueIds.Nodup ∧
      ∀ id ∈ combination.valueIds, (session.transaction.working.find? id).isSome)
    (hdistinct : ¬ (combinations.map (·.naming.sku root.skuPrefix)).Nodup → obstacle)
    (hskus : ∀ (id : Id .product) (rival : Product),
      session.transaction.working.find? id = some rival →
        rival.sku ∈ combinations.map (·.naming.sku root.skuPrefix) → obstacle) :
    Achieves obstacle (combinations.mapM (createVariant root draft)) session := by
  apply Achieves.mapM h (makes_createVariant root draft)
  intro done combination made last hinitial hfits hmade hlast
  have hmem : combination ∈ combinations := hinitial.subset List.mem_concat_self
  obtain ⟨hnodup, hfound⟩ := hvalues combination hmem
  apply achieves_createVariant hlast (hmade.isSome_of_before h.drawn hroot)
    (fun id hid => hmade.isSome_of_before h.drawn (hfound id hid)) hnodup
  intro other rival hrival hsku
  rcases hmade.find?_cases hrival with hcreated | hold
  · obtain ⟨variant, hvariant, hrow⟩ := List.mem_flatMap.mp hcreated
    have hstored : rival = variant.product.stored := by
      simpa [Variant.rows] using hrow
    obtain ⟨chosen, hchosen, hselects⟩ := exists_of_forall₂ hfits.flip hvariant
    have hsame : chosen.naming.sku root.skuPrefix = combination.naming.sku root.skuPrefix := by
      rw [← hsku, hstored, ← hselects.sku_eq]
      rfl
    exact hdistinct (not_nodup_of_initial hinitial (List.mem_map.mpr ⟨chosen, hchosen, hsame⟩))
  · exact hskus other rival hold (hsku ▸ List.mem_map.mpr ⟨combination, hmem, rfl⟩)

/-- The numbers of the values of some options are different. -/
theorem nodup_valueIds_of_rows {options : List ProductOption}
    (h : ((options.flatMap ProductOption.rows).map AnyRow.key).Nodup) :
    (options.flatMap fun option => option.values.map (·.id)).Nodup := by
  refine List.Nodup.of_map (fun id => (⟨.value, id⟩ : RowKey)) (List.Nodup.sublist ?_ h)
  rw [List.map_flatMap, List.map_flatMap]
  apply List.Sublist.flatMap_right
  intro option _
  rw [ProductOption.rows, List.map_cons, List.map_map, List.map_map]
  exact List.sublist_cons_self _ _

/-- The variants of a root whose options have just been created. -/
theorem achieves_createVariants {creation : Creation} {root : ProductRoot} {before : Session}
    {options : List ProductOption} (h : session.Sound)
    (hroot : (session.transaction.working.find? root.id).isSome)
    (hstem : root.skuPrefix = creation.product.sku)
    (hoptions : List.Forall₂ (OptionSpec.Describes root.id) creation.options options)
    (hmade : Adds before (options.flatMap ProductOption.rows) session)
    (hsome : ∀ spec ∈ creation.options, spec.values ≠ [])
    (hdistinct : ¬ creation.skus.Nodup → obstacle)
    (hskus : ∀ (id : Id .product) (rival : Product),
      session.transaction.working.find? id = some rival → rival.sku ∈ creation.skus → obstacle) :
    Achieves obstacle (createVariants root creation.product options) session := by
  by_cases hcons : options = []
  · obtain rfl := hcons
    have hplain : creation.skus = [creation.product.sku] := by
      rw [Creation.skus, List.forall₂_nil_right_iff.mp hoptions]
      rfl
    refine Achieves.andReturn (achieves_newProduct h hroot fun id rival hrival hsku => ?_) _
    apply hskus id rival hrival
    rw [hplain, hsku, ← hstem]
    exact List.mem_singleton_self _
  · have hvalues : ∀ option ∈ options, option.values ≠ [] := by
      intro option hoption hnil
      obtain ⟨spec, hspec, hdescribes⟩ := exists_of_forall₂ hoptions.flip hoption
      have hlisted := texts_of_lists hdescribes.values
      rw [hnil] at hlisted
      exact hsome spec hspec hlisted.symm
    have hnames := skus_of_describes hoptions hcons
    rw [← hstem] at hnames
    have hnodup := nodup_valueIds_of_rows (nodup_keys_of_ascending hmade.ascending)
    rw [createVariants_eq root creation.product hvalues hcons]
    apply achieves_createVariants_of h hroot
    · intro combination hcombination
      obtain ⟨hdifferent, hmem⟩ := nodup_valueIds hnodup combination hcombination
      refine ⟨hdifferent, fun id hid => ?_⟩
      obtain ⟨option, hoption, hlisted⟩ := List.mem_flatMap.mp (hmem id hid)
      obtain ⟨value, hvalue, rfl⟩ := List.mem_map.mp hlisted
      have hrow : (⟨.value, value⟩ : AnyRow) ∈ options.flatMap ProductOption.rows :=
        List.mem_flatMap.mpr ⟨option, hoption,
          List.mem_cons_of_mem _ (List.mem_map.mpr ⟨value, hvalue, rfl⟩)⟩
      exact Option.isSome_of_eq_some (hmade.find?_of_mem hrow)
    · rw [hnames]
      exact hdistinct
    · rw [hnames]
      exact hskus

/-! ## The whole creation -/

/-- A creation on sound tables meets no obstacle but a name that is not free. -/
theorem achieves_createGraph {creation : Creation} (h : session.Sound)
    (hsome : ∀ spec ∈ creation.options, spec.values ≠ []) :
    Achieves (¬ creation.Unclaimed session.transaction.working) (createGraph creation)
      session := by
  have hskuPrefix : ∀ (id : Id .root) (rival : ProductRoot),
      session.transaction.working.find? id = some rival →
        rival.skuPrefix = creation.product.sku →
          ¬ creation.Unclaimed session.transaction.working :=
    fun _ rival hrival hsame hfree => hfree.skuPrefix rival (Table.mem_of_find? hrival) hsame
  apply Achieves.askRequire rfl
  · intro htaken
    have hany : answerQuery session.transaction.working (.hasPrefix creation.product.sku) = true :=
      (Bool.not_eq_false' _).mp htaken
    obtain ⟨rival, hrival, hsame⟩ := List.any_eq_true.mp hany
    exact hskuPrefix rival.id rival (Tables.mem_iff.mp hrival) (of_decide_eq_true hsame)
  apply (achieves_newRoot h hskuPrefix).bind
    (ensures_order.mpr fun root after => answers_createRoot)
  rintro root first ⟨⟨moment, number, rfl⟩, hroot⟩ hfirst
  have hrootFound := Option.isSome_of_eq_some (hroot.find?_of_mem List.mem_cons_self)
  apply (achieves_createOptions hfirst hrootFound ?_ ?_ ?_).bind
    (Makes.mapM (makes_createOption number) creation.options first)
  · rintro options second ⟨made, rfl, hoptions, hmade⟩ hsecond
    rw [List.map_id]
    refine Achieves.andReturn (achieves_createVariants hsecond
      (hmade.isSome_of_before hfirst.drawn hrootFound) rfl hoptions hmade hsome ?_ ?_) _
    · exact fun hnot hfree => hnot hfree.distinct
    · intro id rival hrival hsku hfree
      -- No variant has been created yet.
      rcases hmade.find?_cases hrival with hcreated | hold
      · obtain ⟨option, _, hrow⟩ := List.mem_flatMap.mp hcreated
        simp [ProductOption.rows] at hrow
      · rcases hroot.find?_cases hold with hcreated | hold
        · cases List.mem_singleton.mp hcreated
        · exact hfree.skus rival (Table.mem_of_find? hold) hsku
  · intro id option hoption
    rcases hroot.find?_cases hoption with hcreated | hold
    · cases List.mem_singleton.mp hcreated
    · intro hparent
      have hnot := hroot.parent_not_mem h hold List.mem_cons_self
      rw [hparent] at hnot
      exact hnot List.mem_cons_self
  · exact fun hnot hfree => hnot hfree.names
  · exact fun spec hspec hnot hfree => hnot (hfree.values spec hspec)

end Operation

/-! ## What was created was free -/

/-- An option whose values do not clash was given different texts. -/
theorem OptionSpec.Describes.nodup_of_apart {root : Id .root} {spec : OptionSpec}
    {option : ProductOption} (h : spec.Describes root option)
    (hapart : option.values.Pairwise fun first second =>
      @Tables.clash .value first second = false) : spec.values.Nodup := by
  rw [← texts_of_lists h.values]
  apply List.pairwise_map.mpr
  apply hapart.imp_of_mem
  intro first second hfirst hsecond hclash htext
  obtain ⟨hparent, hlive⟩ := h.value hfirst
  obtain ⟨hsecondParent, hsecondLive⟩ := h.value hsecond
  exact Bool.eq_false_iff.mp hclash (Tables.clash_value_iff.mpr
    ⟨hlive, hsecondLive, hparent.trans hsecondParent.symm, htext⟩)

namespace Growth

variable {growth : Growth}

theorem option_rows_sublist (growth : Growth) :
    (AnyRow.ofRows .option (growth.options.map ProductOption.stored)).Sublist growth.rows := by
  apply List.Sublist.trans _ (List.sublist_append_left _ _)
  apply List.Sublist.trans _ (List.sublist_cons_self _ _)
  rw [AnyRow.ofRows, List.map_map, List.map_eq_flatMap]
  apply List.Sublist.flatMap_right
  exact fun option _ => List.singleton_sublist.mpr List.mem_cons_self

theorem value_rows_sublist {option : ProductOption} (hoption : option ∈ growth.options) :
    (AnyRow.ofRows .value option.values).Sublist growth.rows := by
  apply List.Sublist.trans _ (List.sublist_append_left _ _)
  apply List.Sublist.trans _ (List.sublist_cons_self _ _)
  apply List.Sublist.trans (List.sublist_cons_self _ _)
  exact List.sublist_flatten_of_mem (List.mem_map.mpr ⟨option, hoption, rfl⟩)

theorem product_rows_sublist (growth : Growth) :
    (AnyRow.ofRows .product (growth.variants.map (·.product.stored))).Sublist growth.rows := by
  apply List.Sublist.trans _ (List.sublist_append_right _ _)
  rw [AnyRow.ofRows, List.map_map, List.map_eq_flatMap]
  apply List.Sublist.flatMap_right
  exact fun variant _ => List.singleton_sublist.mpr List.mem_cons_self

end Growth

namespace Creation.Expands

variable {creation : Creation} {growth : Growth}

/-- The SKUs that were given are those that the request tells. -/
theorem skus_eq (h : creation.Expands growth) :
    creation.skus = growth.variants.map (·.product.sku) := by
  by_cases hempty : creation.options = []
  · obtain ⟨variant, hvariants, hplain⟩ := h.plain hempty
    rw [Creation.skus, hempty, hvariants, List.map_singleton, hplain.sku, h.skuPrefix]
    rfl
  · have hoptions : growth.options ≠ [] := by
      intro hnil
      have hlength := h.options.length_eq
      rw [hnil] at hlength
      exact hempty (List.eq_nil_of_length_eq_zero hlength)
    rw [← skus_of_describes h.options hoptions, all_eq_map_range,
      ← Operation.sizes_eq_of_describes h.options, List.map_map, ← h.count hempty, ← h.skuPrefix]
    apply List.ext_getElem?
    intro place
    rw [List.getElem?_map, List.getElem?_map]
    cases hvariant : growth.variants[place]? with
    | none =>
        have hpast : (List.range growth.variants.length).length ≤ place :=
          List.length_range.trans_le (List.getElem?_eq_none_iff.mp hvariant)
        rw [List.getElem?_eq_none hpast]
        rfl
    | some variant =>
        obtain ⟨_, hselects⟩ := h.variants hempty place variant hvariant
        rw [List.getElem?_range (List.getElem?_eq_some_iff.mp hvariant).1]
        exact congrArg some hselects.sku_eq.symm

/-- A creation whose rows clash neither with what is there nor with each other finds its
names free. -/
theorem unclaimed_of_apart (h : creation.Expands growth) {tables : Tables}
    (hold : ∀ {kind : EntityKind} {id : Id kind} {new old : kind.Row},
      (⟨kind, new⟩ : AnyRow) ∈ growth.rows → tables.find? id = some old →
        Tables.clash new old = false)
    (hpairwise : ∀ {kind : EntityKind} {created : List kind.Row},
      (AnyRow.ofRows kind created).Sublist growth.rows →
        created.Pairwise fun first second => Tables.clash first second = false) :
    creation.Unclaimed tables where
  skuPrefix root hroot hsame := by
    have hapart := @hold .root _ _ _ List.mem_cons_self ((@Tables.mem_iff _ .root _).mp hroot)
    exact of_decide_eq_false hapart (h.skuPrefix.trans hsame.symm)
  names := by
    have hapart := hpairwise (Growth.option_rows_sublist growth)
    rw [← names_of_describes h.options]
    apply List.pairwise_map.mpr
    apply (List.pairwise_map.mp hapart).imp_of_mem
    intro first second hfirst hsecond hclash hname
    obtain ⟨_, hfirst⟩ := h.option hfirst
    obtain ⟨_, hsecond⟩ := h.option hsecond
    exact Bool.eq_false_iff.mp hclash (Tables.clash_option_iff.mpr
      ⟨hfirst.live, hsecond.live, hfirst.parent.trans hsecond.parent.symm, hname⟩)
  values spec hspec := by
    obtain ⟨option, hoption, hdescribes⟩ := exists_of_forall₂ h.options hspec
    exact hdescribes.nodup_of_apart (hpairwise (Growth.value_rows_sublist hoption))
  distinct := by
    have hapart := hpairwise (Growth.product_rows_sublist growth)
    rw [h.skus_eq]
    apply List.pairwise_map.mpr
    apply (List.pairwise_map.mp hapart).imp
    exact fun hclash => of_decide_eq_false hclash
  skus product hproduct hsku := by
    rw [h.skus_eq] at hsku
    obtain ⟨variant, hvariant, hsame⟩ := List.mem_map.mp hsku
    have hapart := hold (Growth.product_mem_rows.mpr ⟨variant, hvariant, rfl⟩)
      ((@Tables.mem_iff _ .product _).mp hproduct)
    exact of_decide_eq_false hapart hsame

/-- A creation that has left all constraints intact has found its names free. -/
theorem unclaimed (h : creation.Expands growth) {origin : Tables} {tx : Transaction}
    (hinserts : Inserts origin growth.rows tx) (hdeparts : Departs origin tx)
    (hintact : tx.working.Intact) : creation.Unclaimed origin :=
  h.unclaimed_of_apart (fun hnew hold => hinserts.clash_eq_false hdeparts hintact hnew hold)
    fun hcreated => hinserts.pairwise_clash_eq_false hintact hcreated

end Creation.Expands

end VariantCatalog
