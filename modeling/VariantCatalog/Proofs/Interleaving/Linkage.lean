/-
# What a variant is made of

A variant is joined to values when it is created and never again.  Later its bridges can only
be archived, with the variant itself or with a value or an option that goes.  So the bridges
of a variant, live or archived, stay the same for good, and they lead to one value of each
option that its root was created with, in the order of the options.

A reader lists the options of a root and the values of a variant independently of each other.
Still each value that is listed for a variant is listed for an option as well, and the
variant has them in the order of the options and at most one of each: a bridge that is live
is a bridge to a live value of a live option, whatever others have archived, renamed or added
meanwhile.
-/

import VariantCatalog.Proofs.Interleaving.Provenance

namespace VariantCatalog

open Memory Expansion

/-! ## Joints -/

/-- What a bridge of a variant leads to, whether it is live or archived. -/
structure Joint where
  bridge : Id .bridge
  value : Id .value
  deriving DecidableEq

/-- The joint at a bridge. -/
def VariantBridge.joint (bridge : VariantBridge) : Joint := ⟨bridge.id, bridge.value⟩

namespace Tables

/-- The joints of a variant, one for each of its bridges. -/
def joints (tables : Tables) (id : Id .product) : List Joint :=
  (tables.bridges.rows.filter (·.product = id)).map VariantBridge.joint

/-- A joint leads to a value of an option of a root. -/
def Leads (tables : Tables) (root : Id .root) (joint : Joint) (option : Id .option) : Prop :=
  ∃ (value : OptionValue) (row : ProductOption), tables.find? joint.value = some value ∧
    value.option = option ∧ tables.find? option = some row ∧ row.root = root

variable {tables : Tables}

theorem mem_joints {id : Id .product} {joint : Joint} :
    joint ∈ tables.joints id ↔ ∃ bridge : VariantBridge,
      tables.find? joint.bridge = some bridge ∧ bridge.product = id ∧
        bridge.value = joint.value := by
  rw [joints, List.mem_map]
  constructor
  · rintro ⟨bridge, hmem, rfl⟩
    obtain ⟨hrow, hproduct⟩ := List.mem_filter.mp hmem
    exact ⟨bridge, Table.find?_of_mem hrow, of_decide_eq_true hproduct, rfl⟩
  · rintro ⟨bridge, hrow, hproduct, hvalue⟩
    have hid : bridge.id = joint.bridge := id_of_find? hrow
    refine ⟨bridge, List.mem_filter.mpr ⟨Table.mem_of_find? hrow, decide_eq_true hproduct⟩, ?_⟩
    rw [VariantBridge.joint, hid, hvalue]

theorem ascending_joints (tables : Tables) (id : Id .product) :
    (tables.joints id).Pairwise (·.bridge.number < ·.bridge.number) :=
  List.pairwise_map.mpr (tables.bridges.ascending.sublist List.filter_sublist)

end Tables

/-! ## Reading -/

/-- What is found for some items stands in the order of the others that they belong to. -/
theorem sublistForall₂_filterMap {α β γ : Type} {belongs : α → β → Prop} {fits : γ → β → Prop}
    {condition : α → Bool} {find : α → Option γ} {items : List α} {others : List β}
    (h : List.Forall₂ belongs items others)
    (hfits : ∀ item ∈ items, condition item = true → ∀ other, belongs item other →
      ∃ found, find item = some found ∧ fits found other) :
    List.SublistForall₂ fits ((items.filter condition).filterMap find) others := by
  induction h with
  | nil => exact .nil
  | @cons item other items others hbelongs _ ih =>
      obtain ⟨hitem, hitems⟩ := List.forall_mem_cons.mp hfits
      cases hcondition : condition item with
      | false =>
          rw [List.filter_cons_of_neg (Bool.eq_false_iff.mp hcondition)]
          exact .cons_right (ih hitems)
      | true =>
          obtain ⟨found, hfound, hother⟩ := hitem hcondition other hbelongs
          rw [List.filter_cons_of_pos hcondition, List.filterMap_cons_some hfound]
          exact .cons hother (ih hitems)

namespace Tables

/-- A value is live, and so is its option, which is one of a root. -/
def Offers (tables : Tables) (root : Id .root) (value : OptionValue) (option : Id .option) :
    Prop :=
  tables.live? value.id = some value ∧ value.option = option ∧
    ∃ row : ProductOption, tables.live? option = some row ∧ row.root = root

variable {tables : Tables} {root : Id .root} {product : Product} {options : List (Id .option)}

/-- Where live bridges lead to values of live options, the values that a reader finds for a
variant are live, and in the order of the options. -/
theorem sublistForall₂_offers (hcoherent : tables.Coherent)
    (hlive : ∀ {id : Id .bridge} {bridge : VariantBridge} {value : OptionValue},
      tables.live? id = some bridge → tables.find? bridge.value = some value →
        (tables.live? value.option).isSome)
    (hleads : List.Forall₂ (tables.Leads root) (tables.joints product.id) options) :
    List.SublistForall₂ (tables.Offers root) (tables.withOptionValues product).optionValues
      options := by
  have hbridges : tables.bridges.liveRows (·.product = product.id) =
      (tables.bridges.rows.filter (·.product = product.id)).filter Row.isLive := by
    rw [List.filter_filter]
    rfl
  rw [withOptionValues, hbridges]
  apply sublistForall₂_filterMap (List.forall₂_map_left_iff.mp hleads)
  rintro bridge hmem hisLive option ⟨value, row, hvalue, rfl, hrow, hroot⟩
  have hbridge : tables.live? bridge.id = some bridge :=
    live?_eq_some.mpr ⟨Table.find?_of_mem (List.mem_filter.mp hmem).1, hisLive⟩
  have hkept := live?_of_find? hvalue
    (hcoherent.live hbridge ⟨.value, bridge.value⟩ (List.mem_cons_of_mem _ List.mem_cons_self))
  have hid : value.id = bridge.value := id_of_find? hvalue
  exact ⟨value, hvalue, hid.symm ▸ hkept, rfl, row,
    live?_of_find? hrow (hlive hbridge hvalue), hroot⟩

/-- Such values are among those that a reader finds for the options of the root. -/
theorem sublistForall₂_withValues {values : List OptionValue}
    (hascending : options.Pairwise (·.number < ·.number))
    (hoffers : List.SublistForall₂ (tables.Offers root) values options) :
    List.SublistForall₂ (fun value option => value ∈ (option : ProductOption).values) values
      ((tables.options.liveRows (·.root = root)).map tables.withValues) := by
  obtain ⟨chosen, hchosen, hsublist⟩ := List.sublistForall₂_iff.mp hoffers
  have hlisted : chosen.Sublist
      ((tables.options.liveRows (·.root = root)).map ProductOption.id) := by
    apply sublist_of_ascending Id.number (hascending.sublist hsublist)
      (List.pairwise_map.mpr (Table.ascending_liveRows _ _))
    intro option hoption
    obtain ⟨value, _, _, _, row, hrow, hroot⟩ := exists_of_forall₂ hchosen.flip hoption
    obtain rfl := id_of_find? (live?_eq_some.mp hrow).1
    refine List.mem_map.mpr ⟨row, ?_, rfl⟩
    exact (@mem_liveRows tables .option row _).mpr ⟨hrow, decide_eq_true hroot⟩
  obtain ⟨rows, hrows, rfl⟩ := List.sublist_map_iff.mp hlisted
  refine List.sublistForall₂_iff.mpr ⟨rows.map tables.withValues, ?_, hrows.map _⟩
  rw [List.forall₂_map_right_iff] at hchosen ⊢
  apply hchosen.imp
  rintro value row ⟨hvalue, hoption, _⟩
  exact (@mem_liveRows tables .value value _).mpr ⟨hvalue, decide_eq_true hoption⟩

end Tables

/-! ## Creations -/

/-- A bridge of a variant leads to a value of an option that was created with it. -/
def Growth.Chooses (growth : Growth) (variant : Variant) (bridge : VariantBridge)
    (option : ProductOption) : Prop :=
  bridge.product = variant.product.id ∧ option ∈ growth.options ∧
    ∃ value ∈ option.values, bridge.value = value.id

/-- A variant is created with a bridge to one value of each option, in the order of the
options. -/
theorem Creation.Expands.chooses {creation : Creation} {growth : Growth}
    (h : creation.Expands growth) {variant : Variant} (hvariant : variant ∈ growth.variants) :
    List.Forall₂ (growth.Chooses variant) variant.bridges growth.options := by
  by_cases hoptions : creation.options = []
  · obtain ⟨plain, hvariants, hplain⟩ := h.plain hoptions
    rw [hvariants] at hvariant
    cases List.mem_singleton.mp hvariant
    have hnone := h.options
    rw [hoptions, List.forall₂_nil_left_iff] at hnone
    rw [hplain.bridges, hnone]
    exact List.Forall₂.nil
  · obtain ⟨place, hplace⟩ := List.mem_iff_getElem?.mp hvariant
    obtain ⟨hselected, hselects⟩ := h.variants hoptions place variant hplace
    have hjoins := List.forall₂_map_left_iff.mp hselects.bridges
    have hvalues := (List.forall₂_and_left _ _).mpr ⟨fun _ => mem_of_mem_select, hjoins⟩
    rw [← hselected, List.forall₂_map_right_iff]
    apply hvalues.flip.imp
    rintro bridge selection ⟨⟨hoption, hvalue⟩, hproduct, hid, _⟩
    exact ⟨hproduct, hoption, selection.value, hvalue, hid⟩

/-! ## Runs of operations -/

namespace Memory.System

variable {moves : List Move} (hservice : ∀ move ∈ moves, move.isService)

namespace Birth

variable {done : List Move} {move : Move} {growth : Growth} (h : Birth done move growth)
  (hbirth : done ++ [move] <+: moves)

include h hbirth hservice

/-- The joints of a variant are those that it was created with. -/
theorem joints_eq {variant : Variant} (hvariant : variant ∈ growth.variants) :
    (run moves).memory.committed.tables.joints variant.product.id =
      variant.bridges.map VariantBridge.joint := by
  obtain ⟨creation, hexpands⟩ := h.expands
  have hbridges := precedes_of_ascending h.gains.ascending (Growth.bridge_rows_sublist hvariant)
  apply eq_of_ascending (fun joint : Joint => joint.bridge.number) (Tables.ascending_joints _ _)
    (List.pairwise_map.mpr hbridges)
  intro joint
  rw [Tables.mem_joints, List.mem_map]
  constructor
  · rintro ⟨bridge, hbridge, hproduct, hvalue⟩
    obtain ⟨born, hborn, hid, _, hsame⟩ := h.exists_bridge hservice hbirth hvariant hbridge hproduct
    refine ⟨born, hborn, ?_⟩
    rw [VariantBridge.joint, hid, ← hsame, hvalue]
  · rintro ⟨born, hborn, rfl⟩
    have hrow := Growth.bridge_mem_rows.mpr ⟨variant, hvariant, hborn⟩
    obtain ⟨bridge, hbridge, _, hproduct, hvalue⟩ := h.exists_find? hservice hbirth hrow
    obtain ⟨option, _, hparent, _⟩ := exists_of_forall₂ (hexpands.chooses hvariant) hborn
    exact ⟨bridge, hbridge, Eq.trans hproduct hparent, hvalue⟩

/-- They lead to one value of each option that the root was created with. -/
theorem forall₂_leads {variant : Variant} (hvariant : variant ∈ growth.variants) :
    List.Forall₂ ((run moves).memory.committed.tables.Leads growth.root.id)
      ((run moves).memory.committed.tables.joints variant.product.id)
      (growth.options.map ProductOption.id) := by
  obtain ⟨creation, hexpands⟩ := h.expands
  rw [h.joints_eq hservice hbirth hvariant, List.forall₂_map_left_iff, List.forall₂_map_right_iff]
  apply (hexpands.chooses hvariant).imp
  rintro bridge option ⟨_, hoption, value, hvalue, hid⟩
  obtain ⟨spec, hdescribes⟩ := hexpands.option hoption
  obtain ⟨text, htext, hsucceeds, _⟩ := h.exists_find? hservice hbirth
    (Growth.value_mem_rows.mpr ⟨option, hoption, hvalue⟩)
  obtain ⟨row, hrow, hfollows, _⟩ := h.exists_find? hservice hbirth
    (Growth.option_mem_rows.mpr ⟨option, hoption, rfl⟩)
  refine ⟨text, row, ?_, Eq.trans hsucceeds.anchor (hdescribes.value hvalue).1, hrow,
    Eq.trans hfollows.anchor hdescribes.parent⟩
  exact (congrArg _ hid).trans htext

end Birth

section Runs

include hservice

/-- The joints of a variant never change. -/
theorem joints_of_initial {earlier : List Move} (hearlier : earlier <+: moves) {id : Id .product}
    {product : Product} (hproduct : (run earlier).memory.committed.tables.find? id = some product) :
    (run moves).memory.committed.tables.joints id =
      (run earlier).memory.committed.tables.joints id := by
  have hearlierService : ∀ move ∈ earlier, move.isService :=
    fun move hmem => hservice move (hearlier.subset hmem)
  obtain ⟨done, move, growth, hbirth, h, variant, hvariant, rfl⟩ :=
    exists_birth hearlierService hproduct
  rw [h.joints_eq hservice (hbirth.trans hearlier) hvariant,
    h.joints_eq hearlierService hbirth hvariant]

/-- They lead to values of different options of the root of the variant, in the order of the
options. -/
theorem exists_leads {id : Id .product} {product : Product}
    (hproduct : (run moves).memory.committed.tables.find? id = some product) :
    ∃ options : List (Id .option), options.Pairwise (·.number < ·.number) ∧
      List.Forall₂ ((run moves).memory.committed.tables.Leads product.root)
        ((run moves).memory.committed.tables.joints id) options := by
  obtain ⟨done, move, growth, hbirth, h, variant, hvariant, rfl⟩ := exists_birth hservice hproduct
  obtain ⟨creation, hexpands⟩ := h.expands
  obtain ⟨row, hrow, hsucceeds, _⟩ := h.exists_find? hservice hbirth
    (Growth.product_mem_rows.mpr ⟨variant, hvariant, rfl⟩)
  have hroot : product.root = growth.root.id := by
    cases hproduct.symm.trans hrow
    exact hsucceeds.anchor.1.trans (hexpands.variant hvariant).1
  refine ⟨growth.options.map ProductOption.id, ?_, hroot ▸ h.forall₂_leads hservice hbirth hvariant⟩
  have hascending := List.pairwise_map.mp
    (precedes_of_ascending h.gains.ascending growth.option_rows_sublist)
  exact List.pairwise_map.mpr hascending

/-- A live bridge leads to a value of a live option. -/
theorem live?_option_of_bridge {id : Id .bridge} {bridge : VariantBridge} {value : OptionValue}
    (hbridge : (run moves).memory.committed.tables.live? id = some bridge)
    (hvalue : (run moves).memory.committed.tables.find? bridge.value = some value) :
    ((run moves).memory.committed.tables.live? value.option).isSome := by
  obtain ⟨hfound, _⟩ := Tables.live?_eq_some.mp hbridge
  obtain ⟨product, hproduct⟩ := Option.isSome_iff_exists.mp
    ((sound_run moves).intact.referenced hfound ⟨.product, bridge.product⟩ List.mem_cons_self)
  obtain ⟨done, move, growth, hbirth, h, variant, hvariant, hparent⟩ :=
    exists_birth hservice hproduct
  obtain ⟨creation, hexpands⟩ := h.expands
  obtain ⟨born, hborn, rfl, _, hsame⟩ :=
    h.exists_bridge hservice hbirth hvariant hfound (Eq.symm hparent)
  obtain ⟨option, _, _, hoption, text, htext, hid⟩ :=
    exists_of_forall₂ (hexpands.chooses hvariant) hborn
  obtain ⟨spec, hdescribes⟩ := hexpands.option hoption
  obtain ⟨row, hrow, hsucceeds, _⟩ := h.exists_find? hservice hbirth
    (Growth.value_mem_rows.mpr ⟨option, hoption, htext⟩)
  have hsame : bridge.value = text.id := Eq.trans hsame hid
  rw [hsame] at hvalue
  cases hvalue.symm.trans hrow
  have hstem : value.option = option.id :=
    Eq.trans hsucceeds.anchor (hdescribes.value htext).1
  rw [hstem]
  exact h.live?_option hservice (Growth.bridge_mem_rows.mpr ⟨variant, hvariant, hborn⟩) hoption
    htext hid hbirth (Option.isSome_of_eq_some hbridge)

end Runs

/-- **A variant is made of values of the options of its root.** Whatever operations are
carried out at once, the joints of a variant are for good those that it had when it was
created, live or archived, and they lead to values of different options of its root. In the
graph of a live root, the values of a variant are among those of the options, row for row, at
most one of each option and in the order of the options. -/
theorem linkage_run (moves : List Move) (hservice : ∀ move ∈ moves, move.isService) :
    (∀ earlier, earlier <+: moves → ∀ id : Id .product,
      ((run earlier).memory.committed.tables.find? id).isSome →
        (run moves).memory.committed.tables.joints id =
          (run earlier).memory.committed.tables.joints id) ∧
    (∀ (id : Id .product) (product : Product),
      (run moves).memory.committed.tables.find? id = some product →
        ∃ options : List (Id .option), options.Pairwise (·.number < ·.number) ∧
          List.Forall₂ ((run moves).memory.committed.tables.Leads product.root)
            ((run moves).memory.committed.tables.joints id) options) ∧
    ∀ (limit : Option Nat) (id : Id .root),
      ((run moves).memory.committed.tables.live? id).isSome →
        ∃ graph, store.perform limit (.rootGraph id) (run moves).memory =
            (.ok graph, (run moves).memory) ∧
          graph.options.Pairwise (·.id.number < ·.id.number) ∧
          ∀ product ∈ graph.products, List.SublistForall₂
            (fun value option => value ∈ (option : ProductOption).values)
            product.optionValues graph.options := by
  refine ⟨fun earlier hearlier id hsome => ?_, fun id product => exists_leads hservice,
    fun limit id hlive => ?_⟩
  · obtain ⟨product, hproduct⟩ := Option.isSome_iff_exists.mp hsome
    exact joints_of_initial hservice hearlier hproduct
  · obtain ⟨root, hroot⟩ := Option.isSome_iff_exists.mp hlive
    have hgraph := perform_rootGraph limit id (run moves).memory
    rw [Tables.graph?, hroot] at hgraph
    refine ⟨_, hgraph, ?_, ?_⟩
    · exact List.pairwise_map.mpr (@Table.ascending_liveRows .option _ _)
    · intro product hproduct
      obtain ⟨row, hmem, rfl⟩ := List.mem_map.mp hproduct
      obtain ⟨hrow, hof⟩ := (@Tables.mem_liveRows _ .product row _).mp hmem
      obtain ⟨options, hascending, hleads⟩ :=
        exists_leads hservice (Tables.live?_eq_some.mp hrow).1
      rw [of_decide_eq_true hof] at hleads
      have hcoherent := (coherent_of_initial hservice (List.prefix_refl moves)).committed
      exact Tables.sublistForall₂_withValues hascending
        (Tables.sublistForall₂_offers hcoherent (live?_option_of_bridge hservice) hleads)

/-- The shirt that has lost its smaller size goes on having the joints that it was created
with. A reader finds the other size for the larger variant and nothing for the smaller one. -/
theorem linkage_run_shirt :
    (run shirtRace).memory.committed.tables.joints ⟨1⟩ =
        (run (shirtRace.take 15)).memory.committed.tables.joints ⟨1⟩ ∧
      ∃ graph, store.perform none (.rootGraph ⟨1⟩) (run shirtRace).memory =
          (.ok graph, (run shirtRace).memory) ∧
        graph.products.map (fun product => product.optionValues.map (·.value)) = [[], ["M"]] ∧
        ∀ product ∈ graph.products, List.SublistForall₂
          (fun value option => value ∈ (option : ProductOption).values)
          product.optionValues graph.options := by
  obtain ⟨hjoints, _, hgraphs⟩ := linkage_run shirtRace (by decide)
  obtain ⟨graph, hgraph, _, hlists⟩ := hgraphs none ⟨1⟩ (by decide +kernel)
  refine ⟨hjoints _ (List.take_prefix 15 shirtRace) ⟨1⟩ (by decide +kernel), graph, hgraph, ?_,
    hlists⟩
  have hvalues : (store.perform none (.rootGraph ⟨1⟩) (run shirtRace).memory).1.toOption.map
      (fun graph => graph.products.map fun product => product.optionValues.map (·.value)) =
        some [[], ["M"]] := by decide +kernel
  rw [hgraph] at hvalues
  exact Option.some.inj hvalues

end Memory.System

end VariantCatalog
