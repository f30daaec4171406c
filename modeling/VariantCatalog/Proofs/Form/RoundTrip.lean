/-
# What is written of a row or an event is read back

The fields of a lifecycle stand among those of its row.  They are found there because no row
has a field of their names, and where one is left out, its absence is what was written.  All
else is field by field: each reader undoes the writer of its field.
-/

import VariantCatalog.Form.Event
import VariantCatalog.Proofs.Calendar.Reading

namespace VariantCatalog

open VariantCatalog.Calendar VariantCatalog.Text

/-! ## Ordinary values -/

/-- An identifier of 64 bits. -/
def Id.InRange {kind : EntityKind} (id : Id kind) : Prop :=
  IntegerRange.signed64.holds id.number

instance {kind : EntityKind} (id : Id kind) : Decidable id.InRange :=
  inferInstanceAs (Decidable (IntegerRange.signed64.holds id.number))

/-- A lifecycle all of whose moments are ordinary. -/
structure Lifecycle.IsOrdinary (lifecycle : Lifecycle) : Prop where
  createdOn : lifecycle.createdOn.IsOrdinary
  updatedOn : ∀ moment ∈ lifecycle.updatedOn, moment.IsOrdinary
  archivedOn : ∀ moment ∈ lifecycle.archivedOn, moment.IsOrdinary

structure OptionValue.IsOrdinary (value : OptionValue) : Prop where
  id : value.id.InRange
  option : value.option.InRange
  lifecycle : value.lifecycle.IsOrdinary

/-- An option is ordinary with its values. -/
structure ProductOption.IsOrdinary (option : ProductOption) : Prop where
  id : option.id.InRange
  root : option.root.InRange
  values : ∀ value ∈ option.values, value.IsOrdinary
  lifecycle : option.lifecycle.IsOrdinary

structure VariantBridge.IsOrdinary (bridge : VariantBridge) : Prop where
  id : bridge.id.InRange
  product : bridge.product.InRange
  value : bridge.value.InRange
  lifecycle : bridge.lifecycle.IsOrdinary

/-- An event is ordinary with the identifier that it names and its moment. -/
def CatalogEvent.IsOrdinary : CatalogEvent → Prop
  | rootCreated root _ _ moment => root.InRange ∧ moment.IsOrdinary
  | rootArchived root moment => root.InRange ∧ moment.IsOrdinary
  | productArchived product moment => product.InRange ∧ moment.IsOrdinary
  | productUpdated product _ moment => product.InRange ∧ moment.IsOrdinary
  | optionArchived option moment => option.InRange ∧ moment.IsOrdinary

/-! ## Readers and writers -/

namespace Json

theorem asId?_ofId {kind : EntityKind} {id : Id kind} (h : id.InRange) :
    (ofId id).asId? = some id := by
  have hread : (Json.integer id.number).asInt64? = some id.number := if_pos h
  rw [asId?, ofId, hread]
  rfl

theorem asMoment?_ofMoment {moment : Moment} (h : moment.IsOrdinary) :
    (ofMoment moment).asMoment? = some moment :=
  Moment.ofText?_text h

/-- A list is read back if its items are. -/
theorem asList?_ofList {α : Type} {write : α → Json} {read : Json → Option α} {items : List α}
    (h : ∀ item ∈ items, read (write item) = some item) :
    (ofList write items).asList? read = some items := by
  rw [ofList, asList?]
  induction items with
  | nil => rfl
  | cons item rest ih =>
      obtain ⟨hitem, hrest⟩ := List.forall_mem_cons.mp h
      rw [List.map_cons, List.mapM_cons, hitem, ih hrest]
      rfl

theorem asTexts?_ofList (texts : List String) :
    (ofList .text texts).asList? asText? = some texts :=
  asList?_ofList fun _ _ => rfl

end Json

namespace Fields

variable {α : Type} {own rest : Fields} {name : String} {value : Json} {read : Json → Option α}
  {a : α}

theorem find?_append : Fields.find? (own ++ rest) name = (own.find? name).or (rest.find? name) :=
  List.lookup_append

theorem find?_append_of_not_mem (h : name ∉ own.map (·.1)) :
    Fields.find? (own ++ rest) name = rest.find? name := by
  have hnone : own.find? name = none := by
    rw [find?, List.lookup_eq_none_iff]
    intro field hfield
    exact bne_iff_ne.mpr fun hname => h (hname ▸ List.mem_map_of_mem hfield)
  rw [find?_append, hnone, Option.none_or]

theorem required_of_find? {fields : Fields} (hfind : fields.find? name = some value)
    (hread : read value = some a) : fields.required name read = some a := by
  rw [required, hfind, Option.bind_some, hread]

/-- A field is read, whatever follows. -/
theorem required_append (hfind : own.find? name = some value) (hread : read value = some a) :
    Fields.required (own ++ rest) name read = some a :=
  required_of_find? (by rw [find?_append, hfind, Option.some_or]) hread

theorem defaulted_append (hfind : own.find? name = some value) (hread : read value = some a)
    (default : α) : Fields.defaulted (own ++ rest) name default read = some a := by
  rw [defaulted, find?_append, hfind, Option.some_or]
  exact hread

/-- A moment that is left out is read as absent. -/
theorem optional_moment {fields : Fields} {moment : Option Moment}
    (hordinary : ∀ m ∈ moment, m.IsOrdinary)
    (hfind : fields.find? name = moment.map Json.ofMoment) :
    fields.optional name Json.asMoment? = some moment := by
  rw [optional, get, hfind]
  cases moment with
  | none => rfl
  | some moment =>
      have htext : (Json.ofMoment moment).orNull Json.asMoment? =
          (Json.ofMoment moment).asMoment?.map some := rfl
      rw [Option.map_some, Option.getD_some, htext,
        Json.asMoment?_ofMoment (hordinary moment rfl), Option.map_some]

end Fields

/-! ## The fields of a lifecycle -/

namespace Lifecycle

/-- The names of the fields that a lifecycle may have. -/
def names : List String := ["created_on", "updated_on", "archived_on"]

/-- The names of the fields that a lifecycle has: the moments of an edit and of archiving are
left out while there are none. -/
def fieldNames (lifecycle : Lifecycle) : List String :=
  "created_on" :: ((if lifecycle.updatedOn.isSome then ["updated_on"] else []) ++
    if lifecycle.archivedOn.isSome then ["archived_on"] else [])

theorem map_toFields (lifecycle : Lifecycle) :
    lifecycle.toFields.map (·.1) = lifecycle.fieldNames := by
  obtain ⟨createdOn, updatedOn, archivedOn⟩ := lifecycle
  cases updatedOn <;> cases archivedOn <;> rfl

theorem fieldNames_sublist (lifecycle : Lifecycle) : lifecycle.fieldNames.Sublist names := by
  have hupdated : (if lifecycle.updatedOn.isSome then ["updated_on"] else []).Sublist
      ["updated_on"] := by
    split <;> simp
  have harchived : (if lifecycle.archivedOn.isSome then ["archived_on"] else []).Sublist
      ["archived_on"] := by
    split <;> simp
  exact (hupdated.append harchived).cons_cons _

theorem find?_toFields (lifecycle : Lifecycle) :
    lifecycle.toFields.find? "created_on" = some (.ofMoment lifecycle.createdOn) ∧
    lifecycle.toFields.find? "updated_on" = lifecycle.updatedOn.map .ofMoment ∧
    lifecycle.toFields.find? "archived_on" = lifecycle.archivedOn.map .ofMoment := by
  obtain ⟨createdOn, updatedOn, archivedOn⟩ := lifecycle
  cases updatedOn <;> cases archivedOn <;> exact ⟨rfl, rfl, rfl⟩

/-- A lifecycle is read back from among fields of other names. -/
theorem ofFields?_append {lifecycle : Lifecycle} (h : lifecycle.IsOrdinary) {own : Fields}
    (hnodup : (own.map (·.1) ++ names).Nodup) :
    Lifecycle.ofFields? (own ++ lifecycle.toFields) = some lifecycle := by
  have hfind : ∀ name ∈ names,
      Fields.find? (own ++ lifecycle.toFields) name = lifecycle.toFields.find? name := by
    intro name hname
    refine Fields.find?_append_of_not_mem fun hmem => ?_
    exact (List.nodup_append.mp hnodup).2.2 name hmem name hname rfl
  obtain ⟨hcreated, hupdated, harchived⟩ := lifecycle.find?_toFields
  have hcreatedOn : Fields.required (own ++ lifecycle.toFields) "created_on" Json.asMoment? =
      some lifecycle.createdOn := by
    rw [Fields.required, hfind _ (by decide), hcreated, Option.bind_some,
      Json.asMoment?_ofMoment h.createdOn]
  rw [ofFields?, hcreatedOn,
    Fields.optional_moment h.updatedOn ((hfind _ (by decide)).trans hupdated),
    Fields.optional_moment h.archivedOn ((hfind _ (by decide)).trans harchived)]
  rfl

end Lifecycle

/-- An object with some fields of its own and then those that a lifecycle has, no two of one
name. -/
def Json.HasFields (value : Json) (own : List String) (lifecycle : Lifecycle) : Prop :=
  ∃ fields, value = .object fields ∧ fields.map (·.1) = own ++ lifecycle.fieldNames ∧
    (own ++ lifecycle.fieldNames).Nodup

theorem Json.hasFields_append {own : Fields} {ownNames : List String} (lifecycle : Lifecycle)
    (hown : own.map (·.1) = ownNames) (hnodup : (ownNames ++ Lifecycle.names).Nodup) :
    (Json.object (own ++ lifecycle.toFields)).HasFields ownNames lifecycle := by
  refine ⟨_, rfl, ?_, ?_⟩
  · rw [List.map_append, hown, lifecycle.map_toFields]
  · exact hnodup.sublist (lifecycle.fieldNames_sublist.append_left ownNames)

/-! ## Rows -/

namespace OptionValue

theorem ofJson?_toJson {value : OptionValue} (h : value.IsOrdinary) :
    OptionValue.ofJson? value.toJson = some value := by
  rw [toJson, ofJson?, Json.readFields, Json.asObject?, Option.bind_some,
    Fields.required_append (by rfl) (Json.asId?_ofId h.id),
    Fields.required_append (by rfl) (Json.asId?_ofId h.option),
    Fields.required_append (by rfl) (by rfl),
    Lifecycle.ofFields?_append h.lifecycle (by simp [Lifecycle.names])]
  rfl

end OptionValue

namespace ProductOption

theorem ofJson?_toJson {option : ProductOption} (h : option.IsOrdinary) :
    ProductOption.ofJson? option.toJson = some option := by
  have hvalues := Json.asList?_ofList fun value hvalue =>
    OptionValue.ofJson?_toJson (h.values value hvalue)
  rw [toJson, ofJson?, Json.readFields, Json.asObject?, Option.bind_some,
    Fields.required_append (by rfl) (Json.asId?_ofId h.id),
    Fields.required_append (by rfl) (Json.asId?_ofId h.root),
    Fields.required_append (by rfl) (by rfl),
    Fields.defaulted_append (by rfl) hvalues,
    Lifecycle.ofFields?_append h.lifecycle (by simp [Lifecycle.names])]
  rfl

end ProductOption

namespace VariantBridge

theorem ofJson?_toJson {bridge : VariantBridge} (h : bridge.IsOrdinary) :
    VariantBridge.ofJson? bridge.toJson = some bridge := by
  rw [toJson, ofJson?, Json.readFields, Json.asObject?, Option.bind_some,
    Fields.required_append (by rfl) (Json.asId?_ofId h.id),
    Fields.required_append (by rfl) (Json.asId?_ofId h.product),
    Fields.required_append (by rfl) (Json.asId?_ofId h.value),
    Lifecycle.ofFields?_append h.lifecycle (by simp [Lifecycle.names])]
  rfl

end VariantBridge

/-! ## Events -/

namespace CatalogEvent

/-- An event is read by the name of its only field. -/
theorem ofJson?_object (kind : String) (fields : Fields) :
    CatalogEvent.ofJson? (.object [(kind, .object fields)]) = ofFields? kind fields := rfl

theorem ofJson?_toJson {event : CatalogEvent} (h : event.IsOrdinary) :
    CatalogEvent.ofJson? event.toJson = some event := by
  cases event with
  | rootCreated root skuPrefix skus moment =>
      rw [toJson, ofJson?_object, ofFields?,
        Fields.required_of_find? (by rfl) (Json.asId?_ofId h.1),
        Fields.required_of_find? (by rfl) (by rfl),
        Fields.required_of_find? (by rfl) (Json.asTexts?_ofList skus),
        Fields.required_of_find? (by rfl) (Json.asMoment?_ofMoment h.2)]
      rfl
  | rootArchived root moment =>
      rw [toJson, ofJson?_object, ofFields?,
        Fields.required_of_find? (by rfl) (Json.asId?_ofId h.1),
        Fields.required_of_find? (by rfl) (Json.asMoment?_ofMoment h.2)]
      rfl
  | productArchived product moment =>
      rw [toJson, ofJson?_object, ofFields?,
        Fields.required_of_find? (by rfl) (Json.asId?_ofId h.1),
        Fields.required_of_find? (by rfl) (Json.asMoment?_ofMoment h.2)]
      rfl
  | productUpdated product sku moment =>
      rw [toJson, ofJson?_object, ofFields?,
        Fields.required_of_find? (by rfl) (Json.asId?_ofId h.1),
        Fields.required_of_find? (by rfl) (by rfl),
        Fields.required_of_find? (by rfl) (Json.asMoment?_ofMoment h.2)]
      rfl
  | optionArchived option moment =>
      rw [toJson, ofJson?_object, ofFields?,
        Fields.required_of_find? (by rfl) (Json.asId?_ofId h.1),
        Fields.required_of_find? (by rfl) (Json.asMoment?_ofMoment h.2)]
      rfl

end CatalogEvent

/-! ## All forms -/

/-- **What is written is read back.**  The text of an ordinary instant has no fraction or one of
three, six or nine digits, and stands for that instant again.  An option value, an option with
all its values, a bridge and an event come back from their forms as they were.  The fields of a
lifecycle follow those of its row without meeting a name twice; the moments of an edit and of
archiving are among them only where there are such moments. -/
theorem ofJson?_toJson_of_isOrdinary :
    (∀ instant : Instant, instant.IsOrdinary →
      instant.text.length ∈ [20, 24, 27, 30] ∧ Instant.ofText? instant.text = some instant) ∧
    (∀ value : OptionValue, value.IsOrdinary →
      OptionValue.ofJson? value.toJson = some value ∧
      value.toJson.HasFields ["id", "product_option_id", "value"] value.lifecycle) ∧
    (∀ option : ProductOption, option.IsOrdinary →
      ProductOption.ofJson? option.toJson = some option ∧
      option.toJson.HasFields ["id", "product_root_id", "name", "values"] option.lifecycle) ∧
    (∀ bridge : VariantBridge, bridge.IsOrdinary →
      VariantBridge.ofJson? bridge.toJson = some bridge ∧
      bridge.toJson.HasFields ["id", "product_id", "product_option_value_id"] bridge.lifecycle) ∧
    ∀ event : CatalogEvent, event.IsOrdinary →
      CatalogEvent.ofJson? event.toJson = some event := by
  refine ⟨fun instant h => ⟨?_, Instant.ofText?_text h⟩,
    fun value h => ⟨OptionValue.ofJson?_toJson h, ?_⟩,
    fun option h => ⟨ProductOption.ofJson?_toJson h, ?_⟩,
    fun bridge h => ⟨VariantBridge.ofJson?_toJson h, ?_⟩,
    fun event h => CatalogEvent.ofJson?_toJson h⟩
  · rw [Instant.length_text h]
    have hfraction := Instant.length_fractionDigits instant.nano
    simp only [List.mem_cons, List.not_mem_nil, or_false] at hfraction ⊢
    omega
  · exact Json.hasFields_append value.lifecycle rfl (by decide)
  · exact Json.hasFields_append option.lifecycle rfl (by decide)
  · exact Json.hasFields_append bridge.lifecycle rfl (by decide)

/-- Rows of the first second of the year 0, archived in the last second of a leap day. -/
theorem ofJson?_toJson_of_isOrdinary_leapDay :
    let leapDay : Instant := ⟨1709251199, 123456789⟩
    let lifecycle : Lifecycle := ⟨.given ⟨-62167219200, 0⟩, none, some (.given leapDay)⟩
    let value : OptionValue := ⟨⟨2⟩, ⟨1⟩, "Small", lifecycle⟩
    let option : ProductOption := ⟨⟨1⟩, ⟨7⟩, "Size", [value, value], lifecycle⟩
    let bridge : VariantBridge := ⟨⟨3⟩, ⟨5⟩, ⟨2⟩, lifecycle⟩
    let event : CatalogEvent := .rootCreated ⟨7⟩ "mug" ["mug-small"] (.given leapDay)
    leapDay.IsOrdinary ∧ value.IsOrdinary ∧ option.IsOrdinary ∧ bridge.IsOrdinary ∧
      event.IsOrdinary ∧ leapDay.text = "2024-02-29T23:59:59.123456789Z" ∧
      Instant.ofText? leapDay.text = some leapDay ∧
      OptionValue.ofJson? value.toJson = some value ∧
      ProductOption.ofJson? option.toJson = some option ∧
      VariantBridge.ofJson? bridge.toJson = some bridge ∧
      CatalogEvent.ofJson? event.toJson = some event := by
  intro leapDay lifecycle value option bridge event
  have hleapDay : leapDay.IsOrdinary := ⟨by decide, by decide, by decide⟩
  have hlifecycle : lifecycle.IsOrdinary :=
    { createdOn := ⟨by decide, by decide, by decide⟩
      updatedOn := by rintro _ ⟨⟩
      archivedOn := by
        rintro _ ⟨⟩
        exact hleapDay }
  have hvalue : value.IsOrdinary := ⟨by decide, by decide, hlifecycle⟩
  have hoption : option.IsOrdinary := ⟨by decide, by decide, by simp [option, hvalue], hlifecycle⟩
  have hbridge : bridge.IsOrdinary := ⟨by decide, by decide, by decide, hlifecycle⟩
  have hevent : event.IsOrdinary := ⟨by decide, hleapDay⟩
  obtain ⟨hinstants, hvalues, hoptions, hbridges, hevents⟩ := ofJson?_toJson_of_isOrdinary
  exact ⟨hleapDay, hvalue, hoption, hbridge, hevent, by decide, (hinstants leapDay hleapDay).2,
    (hvalues value hvalue).1, (hoptions option hoption).1, (hbridges bridge hbridge).1,
    hevents event hevent⟩

end VariantCatalog
