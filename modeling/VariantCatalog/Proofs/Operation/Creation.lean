/-
# What a creation makes

The bodies that create rows do four things one inside the other: options with their
values, and variants with their bridges, the variants in the order of an odometer.
`Makes` is the form in which each of them is described: what was made, which rows
of the store it consists of in the order of their creation, and what of it is handed
back.  Such descriptions add up along a loop, so each body has one theorem, and the
theorem about the whole graph (`makes_createGraph`) is assembled from them.

Nothing is assumed of the tables, and others may draw numbers in between.
-/

import VariantCatalog.Operation.Body
import VariantCatalog.Proofs.Expansion.Walk
import VariantCatalog.Proofs.Memory.Answers

namespace VariantCatalog

open Memory Calendar Expansion Text

/-! ## What is made -/

/-- An option as it is stored. -/
def ProductOption.stored (option : ProductOption) : ProductOption := { option with values := [] }

/-- A variant as it is stored. -/
def Product.stored (product : Product) : Product := { product with optionValues := [] }

/-- The rows of an option that was created with its values. -/
def ProductOption.rows (option : ProductOption) : List AnyRow :=
  ⟨.option, option.stored⟩ :: option.values.map fun value => ⟨.value, value⟩

/-- A variant that was created, and its bridges. -/
structure Variant where
  product : Product
  bridges : List VariantBridge

/-- The rows of a variant. -/
def Variant.rows (variant : Variant) : List AnyRow :=
  ⟨.product, variant.product.stored⟩ :: variant.bridges.map fun bridge => ⟨.bridge, bridge⟩

/-- What a creation adds to a catalog. -/
structure Growth where
  root : ProductRoot
  options : List ProductOption
  variants : List Variant

namespace Growth

/-- What was added, as it is handed back. -/
def graph (growth : Growth) : RootGraph :=
  ⟨growth.root, growth.options, growth.variants.map Variant.product⟩

/-- The rows that were added, in the order of their creation: the root, each option
before its values, and each variant before its bridges. -/
def rows (growth : Growth) : List AnyRow :=
  ⟨.root, growth.root⟩ :: growth.options.flatMap ProductOption.rows ++
    growth.variants.flatMap Variant.rows

end Growth

/-- A live value of an option that has a text. -/
structure OptionSpec.Lists (option : Id .option) (text : String) (row : OptionValue) : Prop where
  parent : row.option = option
  value : row.value = text
  live : row.lifecycle.isLive

/-- A live option of a root that has what its specification lists. -/
structure OptionSpec.Describes (root : Id .root) (spec : OptionSpec) (row : ProductOption) :
    Prop where
  parent : row.root = root
  name : row.name = spec.name
  live : row.lifecycle.isLive
  values : List.Forall₂ (Lists row.id) spec.values row.values

/-- A live variant without options. -/
structure Variant.IsPlain (root : ProductRoot) (variant : Variant) : Prop where
  parent : variant.product.root = root.id
  sku : variant.product.sku = root.skuPrefix
  summary : variant.product.optionSummary = ""
  live : variant.product.lifecycle.isLive
  optionValues : variant.product.optionValues = []
  bridges : variant.bridges = []

/-- A live variant of a combination, named after the values it selects and joined to
them in their order. -/
structure Variant.Selects (root : ProductRoot) (combination : Combination) (variant : Variant) :
    Prop where
  parent : variant.product.root = root.id
  sku : variant.product.sku =
    root.skuPrefix ++ "_" ++
      "_".intercalate (combination.map fun selection => lowercase selection.value.value)
  summary : variant.product.optionSummary =
    ", ".intercalate (combination.map fun selection =>
      selection.option.name ++ ": " ++ selection.value.value)
  live : variant.product.lifecycle.isLive
  optionValues : variant.product.optionValues = combination.values
  bridges : Joins variant.product.id combination.valueIds variant.bridges

/-- What a creation comes to. -/
structure Creation.Expands (creation : Creation) (growth : Growth) : Prop where
  skuPrefix : growth.root.skuPrefix = creation.product.sku
  details : growth.root.details = creation.product.details.ofRoot
  live : growth.root.lifecycle.isLive
  /-- There is one option for each specification. -/
  options : List.Forall₂ (OptionSpec.Describes growth.root.id) creation.options growth.options
  /-- Without options there is one variant. -/
  plain : creation.options = [] → ∃ variant, growth.variants = [variant] ∧
    variant.IsPlain growth.root
  /-- With options there are as many variants as combinations. -/
  count : creation.options ≠ [] →
    growth.variants.length = (creation.options.map (·.values.length)).prod
  /-- Each is that of the combination at its place, which selects one value of every
  option. -/
  variants : creation.options ≠ [] → ∀ place variant, growth.variants[place]? = some variant →
    let combination :=
      select growth.options (wheels (creation.options.map (·.values.length)) place)
    combination.map (·.option) = growth.options ∧ variant.Selects growth.root combination

/-! ## Making -/

/-- A program that makes something that fits: it adds the rows of it to whatever
transaction it runs in, and hands back what is seen of it. -/
def Makes {α β : Type} (fits : α → Prop) (rows : α → List AnyRow) (view : α → β)
    (program : Program β) : Prop :=
  ∀ session, Secures
    (fun result after => ∃ made, view made = result ∧ fits made ∧ Adds session (rows made) after)
    program session

namespace Makes

variable {α β ι : Type} {rows : α → List AnyRow} {view : α → β}

/-- What is asked before makes no difference. -/
theorem afterAsk {fits : α → Prop} {read : Query} {next : read.Reply → Program β}
    (h : ∀ reply, Makes fits rows view (next reply)) :
    Makes fits rows view (Program.ask read >>= next) := by
  intro session
  refine Program.ensures_bind.mpr (Program.ensures_ask.mpr fun reply middle hanswers => ?_)
  apply (h reply middle).mono
  rintro result after ⟨made, hview, hfits, hadds⟩
  exact ⟨made, hview, hfits, hadds.widen (answers_query hanswers).2 hanswers.sequences_le⟩

theorem afterRequire {fits : α → Prop} {condition : Bool} {error : CatalogError}
    {program : Program β} (h : Makes fits rows view program) :
    Makes fits rows view (Program.require condition error >>= fun _ => program) := by
  intro session
  refine Program.ensures_bind.mpr (Program.ensures_require.mpr ?_)
  cases condition with
  | true => exact h session
  | false => trivial

/-- What a loop makes is what it made for each item. -/
theorem mapM {fits : ι → α → Prop} {f : ι → Program β}
    (h : ∀ item, Makes (fits item) rows view (f item)) (items : List ι) :
    Makes (List.Forall₂ fits items) (List.flatMap rows) (List.map view) (items.mapM f) := by
  intro session
  refine Program.Ensures.mapM (fun done results after => ∃ made : List α,
    made.map view = results ∧ List.Forall₂ fits done made ∧
      Adds session (made.flatMap rows) after) items ?_ ?_
  · rintro done item results middle _ ⟨made, rfl, hfits, hadds⟩
    apply (h item middle).mono
    rintro result after ⟨last, rfl, hlast, hmore⟩
    refine ⟨made ++ [last], ?_, ?_, ?_⟩
    · rw [List.map_append, List.map_singleton]
    · exact List.rel_append hfits (List.Forall₂.cons hlast List.Forall₂.nil)
    · rw [List.flatMap_append, List.flatMap_singleton]
      exact hadds.trans hmore
  · exact ⟨[], rfl, List.Forall₂.nil, Adds.none rfl (Sequences.le_refl _)⟩

end Makes

namespace Operation

open Program

theorem makes_createValue (option : Id .option) (text : String) :
    Makes (OptionSpec.Lists option text) (fun value => [⟨.value, value⟩]) id
      (createValue option text) := by
  refine Makes.afterAsk fun taken => Makes.afterRequire fun session => ?_
  refine ensures_order.mpr fun value after hanswers => ?_
  obtain ⟨⟨moment, number, rfl⟩, hadds⟩ := answers_createValue hanswers
  exact ⟨_, rfl, ⟨rfl, rfl, rfl⟩, hadds⟩

theorem makes_createOption (root : Id .root) (spec : OptionSpec) :
    Makes (spec.Describes root) ProductOption.rows id (createOption root spec) := by
  refine Makes.afterAsk fun taken => Makes.afterRequire fun session => ?_
  refine ensures_bind.mpr (ensures_order.mpr fun option middle hanswers => ?_)
  obtain ⟨⟨moment, number, rfl⟩, hadds⟩ := answers_createOption hanswers
  apply (Makes.mapM (makes_createValue number) spec.values middle).bind
  rintro values after ⟨made, rfl, hfits, hmore⟩
  refine ensures_pure.mpr ⟨_, rfl, ⟨rfl, rfl, rfl, ?_⟩, ?_⟩
  · rw [List.map_id]
    exact hfits
  · rw [← List.map_eq_flatMap] at hmore
    rw [List.map_id]
    exact hadds.trans hmore

theorem makes_createVariant (root : ProductRoot) (draft : ProductDraft)
    (combination : Combination) :
    Makes (Variant.Selects root combination) Variant.rows Variant.product
      (createVariant root draft combination) := by
  intro session
  refine ensures_bind.mpr (ensures_order.mpr fun product middle hanswers => ?_)
  obtain ⟨⟨moment, number, rfl⟩, hadds⟩ := answers_createProduct hanswers
  refine ensures_bind.mpr (ensures_order.mpr fun bridges after hbridges => ?_)
  obtain ⟨hjoins, hmore⟩ := answers_createBridges hbridges
  refine ensures_pure.mpr ⟨⟨_, bridges⟩, rfl, ⟨rfl, ?_, ?_, rfl, rfl, hjoins⟩, hadds.trans hmore⟩
  · simp only [productRow, combinationVariant, variant, VariantNaming.sku, Combination.naming,
      VariantNaming.ofPairs, List.map_map, Function.comp_def]
  · simp only [productRow, combinationVariant, variant, Combination.naming,
      VariantNaming.ofPairs, List.map_map, Function.comp_def]

/-! ## The variants of a root -/

/-- The walk goes through the combinations in their order. -/
theorem createVariants_eq (root : ProductRoot) (draft : ProductDraft)
    {options : List ProductOption} (hvalues : ∀ option ∈ options, option.values ≠ [])
    (hcons : options ≠ []) :
    createVariants root draft options =
      (Combination.all options).mapM (createVariant root draft) := by
  obtain ⟨walk, hwalk⟩ := ofOptions_eq_ok hvalues
  rw [createVariants, if_neg (mt List.isEmpty_iff.mp hcons), hwalk]
  exact Combinations.mapM_of_ofOptions hwalk hcons (createVariant root draft)

/-- The variants of a root: the plain one, or one for each combination. -/
def AreVariants (root : ProductRoot) (options : List ProductOption) (variants : List Variant) :
    Prop :=
  options = [] ∧ (∃ variant, variants = [variant] ∧ variant.IsPlain root) ∨
    options ≠ [] ∧ (∀ option ∈ options, option.values ≠ []) ∧
      List.Forall₂ (Variant.Selects root) (Combination.all options) variants

theorem makes_createVariants (root : ProductRoot) (draft : ProductDraft)
    (options : List ProductOption) :
    Makes (AreVariants root options) (List.flatMap Variant.rows) (List.map Variant.product)
      (createVariants root draft options) := by
  intro session
  by_cases hcons : options = []
  · obtain rfl := hcons
    refine ensures_bind.mpr (ensures_order.mpr fun product after hanswers => ?_)
    obtain ⟨⟨moment, number, rfl⟩, hadds⟩ := answers_createProduct hanswers
    exact ensures_pure.mpr ⟨[⟨_, []⟩], rfl,
      .inl ⟨rfl, _, rfl, rfl, rfl, rfl, rfl, rfl, rfl⟩, hadds⟩
  by_cases hvalues : ∀ option ∈ options, option.values ≠ []
  · rw [createVariants_eq root draft hvalues hcons]
    apply (Makes.mapM (makes_createVariant root draft) _ session).mono
    rintro products after ⟨made, hview, hfits, hadds⟩
    exact ⟨made, hview, .inr ⟨hcons, hvalues, hfits⟩, hadds⟩
  · rw [createVariants, if_neg (mt List.isEmpty_iff.mp hcons)]
    cases hwalk : Combinations.ofOptions options with
    | error flaw => trivial
    | ok walk => exact absurd (values_ne_nil_of_ofOptions hwalk) hvalues

/-! ## The whole graph -/

theorem sizes_eq_of_describes {root : Id .root} {specs : List OptionSpec}
    {options : List ProductOption}
    (h : List.Forall₂ (OptionSpec.Describes root) specs options) :
    specs.map (·.values.length) = sizes options := by
  induction h with
  | nil => rfl
  | cons hdescribes _ ih =>
      rw [List.map_cons, ih, hdescribes.values.length_eq]
      rfl

theorem expands_of_areVariants {creation : Creation} {growth : Growth}
    (hroot : growth.root.skuPrefix = creation.product.sku)
    (hdetails : growth.root.details = creation.product.details.ofRoot)
    (hlive : growth.root.lifecycle.isLive)
    (hoptions : List.Forall₂ (OptionSpec.Describes growth.root.id) creation.options
      growth.options)
    (hvariants : AreVariants growth.root growth.options growth.variants) :
    creation.Expands growth := by
  have hsizes := sizes_eq_of_describes hoptions
  have hempty : creation.options = [] ↔ growth.options = [] := by
    rw [← List.length_eq_zero_iff, ← List.length_eq_zero_iff, hoptions.length_eq]
  refine ⟨hroot, hdetails, hlive, hoptions, fun hnil => ?_, fun hcons => ?_, fun hcons => ?_⟩
  · rcases hvariants with ⟨_, hplain⟩ | ⟨hne, _⟩
    · exact hplain
    · exact absurd (hempty.mp hnil) hne
  · rcases hvariants with ⟨hnil, _⟩ | ⟨_, _, hall⟩
    · exact absurd (hempty.mpr hnil) hcons
    · rw [← hall.length_eq, all_eq_map_range, List.length_map, List.length_range, hsizes]
  · rcases hvariants with ⟨hnil, _⟩ | ⟨_, hvalues, hall⟩
    · exact absurd (hempty.mpr hnil) hcons
    · intro place variant hvariant
      obtain ⟨hlt, rfl⟩ := List.getElem?_eq_some_iff.mp hvariant
      rw [hsizes]
      refine ⟨map_option_select growth.options place hvalues, ?_⟩
      have hselects := hall.get (hall.length_eq.symm ▸ hlt) hlt
      simpa only [all_eq_map_range, List.get_eq_getElem, List.getElem_map, List.getElem_range]
        using hselects

/-- Whatever the tables, a creation that comes to an end has made what it asks
for. -/
theorem makes_createGraph (creation : Creation) :
    Makes creation.Expands Growth.rows Growth.graph (createGraph creation) := by
  refine Makes.afterAsk fun taken => Makes.afterRequire fun session => ?_
  refine ensures_bind.mpr (ensures_order.mpr fun root first hanswers => ?_)
  obtain ⟨⟨moment, number, rfl⟩, hroot⟩ := answers_createRoot hanswers
  apply (Makes.mapM (makes_createOption number) creation.options first).bind
  rintro options second ⟨made, rfl, hoptions, hmade⟩
  rw [List.map_id]
  apply (makes_createVariants _ creation.product made second).bind
  rintro products after ⟨variants, rfl, hvariants, hadds⟩
  refine ensures_pure.mpr ⟨⟨_, made, variants⟩, rfl, ?_, (hroot.trans hmade).trans hadds⟩
  exact expands_of_areVariants rfl rfl rfl hoptions hvariants

end Operation

end VariantCatalog
