/-
# What the bodies refuse for

A body that refuses to go on finds something taken or missing.  It never finds the
request itself malformed, since that was looked at before: the only thing of the
kind that a body could still stumble over is an option without values, and it has
made one value for each that is listed.  So an operation that is rejected as
malformed was rejected before it began.
-/

import VariantCatalog.Proofs.Interleaving.Course
import VariantCatalog.Proofs.Operation.Creation
import VariantCatalog.Proofs.Memory.Retirement
import VariantCatalog.Proofs.Request.Validation

namespace VariantCatalog

/-- Whether an error says that the request is malformed. -/
def CatalogError.isRejection : CatalogError → Bool
  | .validation _ => true
  | _ => false

/-- Whether an error says that something is taken or missing. -/
def CatalogError.isFinding : CatalogError → Bool
  | .conflict _ => true
  | .notFound _ => true
  | _ => false

theorem CatalogError.isRejection_of_isFinding {error : CatalogError}
    (h : error.isFinding = true) : error.isRejection = false := by
  cases error with
  | validation detail => cases h
  | _ => rfl

/-- A program that, whatever it is answered, ends with a result of some kind, or
refuses to go on because it finds something taken or missing. -/
def Program.Accepts {α : Type} (ok : α → Prop) (program : Program α) : Prop :=
  program.Ensures (fun _ (_ : Unit) _ _ => True) (fun result _ => ok result)
    (fun error => error.isFinding = true) ()

namespace Program

variable {α β : Type} {ok : α → Prop}

theorem Accepts.mono {weaker : α → Prop} {program : Program α} (h : program.Accepts ok)
    (hweaker : ∀ result, ok result → weaker result) : program.Accepts weaker :=
  Ensures.mono h fun result _ => hweaker result

theorem Accepts.bind {first : Program α} {next : α → Program β} {fits : β → Prop}
    (h : first.Accepts ok) (hnext : ∀ result, ok result → (next result).Accepts fits) :
    (first >>= next).Accepts fits :=
  Ensures.bind h fun result _ => hnext result

theorem accepts_pure {result : α} (h : ok result) : (pure result : Program α).Accepts ok :=
  ensures_pure.mpr h

theorem accepts_ask (read : Query) : (ask read).Accepts fun _ => True :=
  fun _ _ _ => trivial

theorem accepts_order (change : Write) : (order change).Accepts fun _ => True :=
  fun _ _ _ => trivial

theorem accepts_require (condition : Bool) {error : CatalogError}
    (herror : error.isFinding = true) :
    (require condition error).Accepts fun _ => True := by
  cases condition with
  | true => trivial
  | false => exact herror

theorem accepts_requireSome (row : Option α) {error : CatalogError}
    (herror : error.isFinding = true) :
    (requireSome row error).Accepts fun _ => True := by
  cases row with
  | some row => trivial
  | none => exact herror

theorem accepts_mapM {f : α → Program β} {fits : α → β → Prop} {items : List α}
    (h : ∀ item ∈ items, (f item).Accepts (fits item)) :
    (items.mapM f).Accepts (List.Forall₂ fits items) := by
  apply Ensures.mapM fun done results (_ : Unit) => List.Forall₂ fits done results
  · intro done item results _ hinitial hdone
    have hmem := hinitial.subset (List.mem_append_right done (List.mem_singleton_self item))
    apply Ensures.mono (h item hmem)
    intro result _ hfits
    exact List.rel_append hdone (List.Forall₂.cons hfits List.Forall₂.nil)
  · exact List.Forall₂.nil

/-- A loop of orders. -/
theorem accepts_forM_order (items : List α) (change : α → Write) :
    (items.forM fun item => discard (order (change item))).Accepts fun _ => True := by
  apply Ensures.forM fun _ (_ : Unit) => True
  · intro done item _ _ _
    exact ensures_discard.mpr (accepts_order (change item))
  · trivial

end Program

namespace Operation

open Memory Program Expansion

theorem accepts_createValue (option : Id .option) (text : String) :
    (createValue option text).Accepts fun _ => True := by
  apply (accepts_ask _).bind
  intro taken _
  apply (accepts_require _ rfl).bind
  intro _ _
  exact accepts_order _

theorem accepts_createOption (root : Id .root) (spec : OptionSpec) :
    (createOption root spec).Accepts fun option => spec.values.length ≤ option.values.length := by
  apply (accepts_ask _).bind
  intro taken _
  apply (accepts_require _ rfl).bind
  intro _ _
  apply (accepts_order _).bind
  intro option _
  apply (accepts_mapM fun text _ => accepts_createValue option.id text).bind
  intro values hvalues
  apply accepts_pure
  rw [List.length_append, hvalues.length_eq]
  exact Nat.le_add_left _ _

theorem accepts_createVariant (root : ProductRoot) (draft : ProductDraft)
    (combination : Combination) : (createVariant root draft combination).Accepts fun _ => True := by
  apply (accepts_order _).bind
  intro product _
  apply (accepts_order _).bind
  intro bridges _
  exact accepts_pure trivial

theorem accepts_createVariants (root : ProductRoot) (draft : ProductDraft)
    {options : List ProductOption} (hvalues : ∀ option ∈ options, option.values ≠ []) :
    (createVariants root draft options).Accepts fun _ => True := by
  by_cases hcons : options = []
  · obtain rfl := hcons
    apply (accepts_order _).bind
    intro product _
    exact accepts_pure trivial
  · rw [createVariants_eq root draft hvalues hcons]
    have hloop := accepts_mapM fun (combination : Combination)
      (_ : combination ∈ Combination.all options) => accepts_createVariant root draft combination
    exact hloop.mono fun _ _ => trivial

theorem accepts_createGraph (creation : Creation)
    (hvalues : ∀ spec ∈ creation.options, spec.values ≠ []) :
    (createGraph creation).Accepts fun _ => True := by
  apply (accepts_ask _).bind
  intro taken _
  apply (accepts_require _ rfl).bind
  intro _ _
  apply (accepts_order _).bind
  intro root _
  apply (accepts_mapM fun spec _ => accepts_createOption root.id spec).bind
  intro options hoptions
  have hnonempty : ∀ option ∈ options, option.values ≠ [] := by
    intro option hoption hempty
    obtain ⟨spec, hspec, hlength⟩ := exists_of_forall₂ hoptions.flip hoption
    have hlength : spec.values.length ≤ option.values.length := hlength
    rw [hempty] at hlength
    exact hvalues spec hspec (List.eq_nil_of_length_eq_zero (Nat.le_zero.mp hlength))
  apply (accepts_createVariants root creation.product hnonempty).bind
  intro products _
  exact accepts_pure trivial

/-! ## The other bodies -/

theorem accepts_whenLive {α : Type} {kind : EntityKind} {id : Id kind} {program : Program α}
    (h : program.Accepts fun _ => True) :
    (ask (.isLive id) >>= fun live => require live (.absent id) >>= fun _ => program).Accepts
      fun _ => True := by
  apply (accepts_ask _).bind
  intro live _
  apply (accepts_require _ rfl).bind
  intro _ _
  exact h

theorem accepts_retireRoot (id : Id .root) : (retireRoot id).Accepts fun _ => True := by
  apply accepts_whenLive
  apply (accepts_ask _).bind
  intro products _
  apply (accepts_forM_order products fun product => .archiveBridgesOfProduct product.id).bind
  intro _ _
  apply (accepts_forM_order products fun product => .archiveProduct product.id).bind
  intro _ _
  apply (accepts_ask _).bind
  intro options _
  apply (accepts_forM_order options fun option => .archiveValuesOf option.id).bind
  intro _ _
  apply (accepts_forM_order options fun option => .archiveOption option.id).bind
  intro _ _
  exact accepts_order _

theorem accepts_retireVariant (id : Id .product) : (retireVariant id).Accepts fun _ => True := by
  apply accepts_whenLive
  apply (accepts_order _).bind
  intro _ _
  exact accepts_order _

theorem accepts_retireOption (id : Id .option) : (retireOption id).Accepts fun _ => True := by
  apply accepts_whenLive
  apply (accepts_ask _).bind
  intro values _
  apply (accepts_forM_order values fun value => .archiveBridgesOfValue value.id).bind
  intro _ _
  apply (accepts_order _).bind
  intro _ _
  exact accepts_order _

theorem accepts_retireValue (id : Id .value) : (retireValue id).Accepts fun _ => True := by
  apply accepts_whenLive
  apply (accepts_order _).bind
  intro _ _
  exact accepts_order _

theorem accepts_getLive {kind : EntityKind} (id : Id kind) :
    (getLive id).Accepts fun _ => True := by
  apply (accepts_ask _).bind
  intro row _
  exact accepts_requireSome _ rfl

theorem accepts_reviseProduct (id : Id .product) (patch : ProductPatch) :
    (reviseProduct id patch).Accepts fun _ => True := by
  apply (accepts_getLive id).bind
  intro row _
  apply (accepts_order _).bind
  intro moment _
  exact accepts_pure trivial

theorem accepts_reviseOption (id : Id .option) (name : String) :
    (reviseOption id name).Accepts fun _ => True := by
  apply (accepts_getLive id).bind
  intro (row : ProductOption) _
  have hwrite : (do
      let moment ← order (.updateOption id name)
      let values ← ask (.valuesOf id)
      return { row with name, values, lifecycle := row.lifecycle.update moment } :
        Program ProductOption).Accepts fun _ => True := by
    apply (accepts_order _).bind
    intro moment _
    apply (accepts_ask _).bind
    intro values _
    exact accepts_pure trivial
  dsimp only
  split
  · apply (accepts_ask _).bind
    intro holder _
    apply (accepts_require _ rfl).bind
    intro _ _
    exact hwrite
  · exact hwrite

theorem accepts_reviseValue (id : Id .value) (value : String) :
    (reviseValue id value).Accepts fun _ => True := by
  apply (accepts_getLive id).bind
  intro (row : OptionValue) _
  have hwrite : (do
      let moment ← order (.updateValue id value)
      return { row with value, lifecycle := row.lifecycle.update moment } :
        Program OptionValue).Accepts fun _ => True := by
    apply (accepts_order _).bind
    intro moment _
    exact accepts_pure trivial
  dsimp only
  split
  · apply (accepts_ask _).bind
    intro taken _
    apply (accepts_require _ rfl).bind
    intro _ _
    exact hwrite
  · exact hwrite

theorem accepts_loadGraph (id : Id .root) : (loadGraph id).Accepts fun _ => True := by
  apply (accepts_getLive id).bind
  intro root _
  apply (accepts_ask _).bind
  intro options _
  have hload : ∀ option ∈ options, (loadOption option).Accepts fun _ => True := by
    intro option _
    apply (accepts_ask _).bind
    intro values _
    exact accepts_pure trivial
  apply (accepts_mapM hload).bind
  intro loaded _
  apply (accepts_ask _).bind
  intro products _
  exact accepts_pure trivial

/-! ## Every body -/

/-- A creation that is well-formed lists a value of each option. -/
theorem values_ne_nil_of_validate {creation : Creation} {limit : Option Nat}
    (h : creation.validate limit = .ok ()) : ∀ spec ∈ creation.options, spec.values ≠ [] :=
  fun spec hspec => ((Creation.wellFormed_of_validate h).options spec hspec).values

/-- No body finds a request malformed that has passed its screening. -/
theorem accepts_body {operation : Operation} {limit : Option Nat}
    (h : operation.screen limit = .ok ()) : operation.body.Accepts fun _ => True := by
  cases operation with
  | commit creation =>
      exact accepts_createGraph creation (values_ne_nil_of_validate (check_eq_ok_of_screen h))
  | addOption root spec =>
      apply accepts_whenLive
      exact (accepts_createOption root spec).mono fun _ _ => trivial
  | addValue option text => exact accepts_whenLive (accepts_createValue option text)
  | archiveRoot id => exact accepts_retireRoot id
  | archiveVariant id => exact accepts_retireVariant id
  | archiveOption id => exact accepts_retireOption id
  | archiveValue id => exact accepts_retireValue id
  | updateProduct id patch => exact accepts_reviseProduct id patch
  | renameOption id name => exact accepts_reviseOption id name
  | updateValue id value => exact accepts_reviseValue id value
  | rootGraph id => exact accepts_loadGraph id
  | productBySku sku =>
      apply (accepts_ask _).bind
      intro product _
      exact accepts_requireSome _ rfl
  | skuExists sku => exact accepts_ask _

end Operation

end VariantCatalog
