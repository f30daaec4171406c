/-
# Operations write what can be shown

Whatever an operation writes, it was given with the request, or it has read it from the
tables.  What it was given was screened before it began: a name or a text that is blank, a
prefix that does not fit into a web address and a package that a patch empties are rejected
then.  Of a draft nobody asks what a package holds, but no variant is made with an empty one.
What it has read can be shown if the tables can, and a patch leaves in place what it does not
name.

So an operation that has passed its screening leaves presentable tables presentable, whichever
way it goes (`presents_body`).
-/

import VariantCatalog.Proofs.Memory.Presentation
import VariantCatalog.Proofs.Operation.Creation

namespace VariantCatalog

open Memory Text

/-! ## Programs that leave tables presentable -/

/-- A program that leaves presentable tables presentable, whatever others do meanwhile. -/
def Program.Presents {α : Type} (program : Program α) : Prop :=
  ∀ session : Session, session.transaction.working.Presentable →
    Secures (fun _ after => after.transaction.working.Presentable) program session

namespace Program

variable {α β : Type}

theorem presents_pure (result : α) : (pure result : Program α).Presents :=
  fun _ hsession => hsession

theorem Presents.bind {first : Program α} {next : α → Program β} (h : first.Presents)
    (hnext : ∀ result, (next result).Presents) : (first >>= next).Presents :=
  fun session hsession => Ensures.bind (h session hsession) fun result after hafter =>
    hnext result after hafter

theorem presents_ask (read : Query) : (ask read).Presents := by
  intro session hsession
  refine ensures_ask.mpr fun reply after hanswers => ?_
  rw [(answers_query hanswers).2]
  exact hsession

theorem presents_order {change : Write} (h : change.IsPresentable) : (order change).Presents :=
  fun _ hsession => ensures_order.mpr fun _ _ hanswers =>
    answers_write_presentable h hanswers hsession

theorem presents_require (condition : Bool) (error : CatalogError) :
    (require condition error).Presents := by
  intro session hsession
  cases condition with
  | true => exact hsession
  | false => trivial

theorem presents_requireSome (row : Option α) (error : CatalogError) :
    (requireSome row error).Presents := by
  intro session hsession
  cases row with
  | some row => exact hsession
  | none => trivial

theorem presents_mapM {f : α → Program β} {items : List α}
    (h : ∀ item ∈ items, (f item).Presents) : (items.mapM f).Presents := by
  intro session hsession
  apply Ensures.mapM fun _ _ (after : Session) => after.transaction.working.Presentable
  · intro done item results middle hinitial hmiddle
    have hmem := hinitial.subset (List.mem_append_right done (List.mem_singleton_self item))
    exact h item hmem middle hmiddle
  · exact hsession

/-- A loop of orders. -/
theorem presents_forM_order (items : List α) {change : α → Write}
    (h : ∀ item, (change item).IsPresentable) :
    (items.forM fun item => discard (order (change item))).Presents := by
  intro session hsession
  apply Ensures.forM fun _ (after : Session) => after.transaction.working.Presentable
  · intro done item middle _ hmiddle
    exact ensures_discard.mpr (presents_order (h item) middle hmiddle)
  · exact hsession

end Program

namespace Operation

open Program Expansion

variable {α : Type}

/-! ## Creating -/

theorem presents_createValue (option : Id .option) {text : String} (htext : trim text ≠ "") :
    (createValue option text).Presents := by
  apply (presents_ask _).bind
  intro taken
  apply (presents_require _ _).bind
  intro _
  exact presents_order htext

theorem presents_createOption (root : Id .root) {spec : OptionSpec} (hspec : spec.WellFormed) :
    (createOption root spec).Presents := by
  apply (presents_ask _).bind
  intro taken
  apply (presents_require _ _).bind
  intro _
  refine Presents.bind (presents_order hspec.name) ?_
  intro option
  have hvalues := presents_mapM fun text htext =>
    presents_createValue option.id (hspec.texts text htext)
  apply hvalues.bind
  intro values
  exact presents_pure _

/-- A variant is called like the draft, and its package is never empty. -/
theorem isPresentable_variant (root : ProductRoot) {draft : ProductDraft}
    (hname : trim draft.details.name ≠ "") (sku summary : String) :
    (variant root draft sku summary).details.IsPresentable :=
  ⟨hname, Int.le_max_right _ _⟩

theorem presents_createVariants (root : ProductRoot) {draft : ProductDraft}
    (hname : trim draft.details.name ≠ "") (options : List ProductOption) :
    (createVariants root draft options).Presents := by
  rw [createVariants]
  split
  · refine Presents.bind (presents_order (isPresentable_variant root hname _ _)) ?_
    intro product
    exact presents_pure _
  · next hempty =>
    split
    · exact fun _ _ => trivial
    · next hwalk =>
      rw [Combinations.mapM_of_ofOptions hwalk (mt List.isEmpty_iff.mpr hempty)]
      apply presents_mapM
      intro combination _
      refine Presents.bind (presents_order (isPresentable_variant root hname _ _)) ?_
      intro product
      refine Presents.bind (presents_order trivial) ?_
      intro bridges
      exact presents_pure _

theorem presents_createGraph {creation : Creation} (h : creation.WellFormed) :
    (createGraph creation).Presents := by
  apply (presents_ask _).bind
  intro taken
  apply (presents_require _ _).bind
  intro _
  refine Presents.bind (presents_order ⟨h.name, h.sku⟩) ?_
  intro root
  have hoptions := presents_mapM fun spec hspec =>
    presents_createOption root.id (h.options spec hspec)
  apply hoptions.bind
  intro options
  apply (presents_createVariants root h.name options).bind
  intro products
  exact presents_pure _

/-! ## Archiving -/

theorem presents_whenLive {kind : EntityKind} {id : Id kind} {error : CatalogError}
    {program : Program α} (h : program.Presents) :
    (ask (.isLive id) >>= fun live => require live error >>= fun _ => program).Presents := by
  apply (presents_ask _).bind
  intro live
  apply (presents_require _ _).bind
  intro _
  exact h

theorem presents_retireRoot (id : Id .root) : (retireRoot id).Presents := by
  apply presents_whenLive
  apply (presents_ask _).bind
  intro products
  refine Presents.bind (presents_forM_order products fun _ => trivial) ?_
  intro _
  refine Presents.bind (presents_forM_order products fun _ => trivial) ?_
  intro _
  apply (presents_ask _).bind
  intro options
  refine Presents.bind (presents_forM_order options fun _ => trivial) ?_
  intro _
  refine Presents.bind (presents_forM_order options fun _ => trivial) ?_
  intro _
  exact presents_order trivial

theorem presents_retireVariant (id : Id .product) : (retireVariant id).Presents := by
  apply presents_whenLive
  refine Presents.bind (presents_order trivial) ?_
  intro _
  exact presents_order trivial

theorem presents_retireOption (id : Id .option) : (retireOption id).Presents := by
  apply presents_whenLive
  apply (presents_ask _).bind
  intro values
  refine Presents.bind (presents_forM_order values fun _ => trivial) ?_
  intro _
  refine Presents.bind (presents_order trivial) ?_
  intro _
  exact presents_order trivial

theorem presents_retireValue (id : Id .value) : (retireValue id).Presents := by
  apply presents_whenLive
  refine Presents.bind (presents_order trivial) ?_
  intro _
  exact presents_order trivial

/-! ## Editing -/

/-- A row that was read from presentable tables can be shown. -/
theorem presents_getLive {kind : EntityKind} {id : Id kind} {next : kind.Row → Program α}
    (hnext : ∀ row, Row.IsPresentable row → (next row).Presents) :
    (getLive id >>= next).Presents := by
  rw [getLive, bind_assoc]
  intro session hsession
  refine ensures_bind.mpr (ensures_ask.mpr fun found middle hanswers => ?_)
  obtain ⟨hfound, htx⟩ := answers_query hanswers
  have hmiddle : middle.transaction.working.Presentable := htx ▸ hsession
  cases hrow : found.filter Row.isLive with
  | none => trivial
  | some row =>
      obtain ⟨hsome, _⟩ := Option.filter_eq_some_iff.mp hrow
      rw [hsome] at hfound
      obtain ⟨stored, hstored, hloaded⟩ := Option.map_eq_some_iff.mp hfound.symm
      -- What is loaded into a row is not what the row says.
      have hsame : Row.IsPresentable (loaded session.transaction.working stored) ↔
          Row.IsPresentable stored := by
        cases kind <;> exact Iff.rfl
      exact hnext row (hloaded ▸ hsame.mpr (hsession hstored)) middle hmiddle

/-- A patch that is accepted leaves nothing that could not be shown. -/
theorem isPresentable_details {patch : ProductPatch} {old : ProductDetails}
    (h : patch.validate = .ok ()) (hold : old.IsPresentable) :
    (patch.details old).IsPresentable := by
  rw [ProductPatch.validate] at h
  split at h
  · cases h
  split at h
  · cases h
  next hname =>
    split at h
    · cases h
    next hpackage =>
      constructor
      · cases hnew : patch.name with
        | none =>
            rw [ProductPatch.details, hnew]
            exact hold.name
        | some name =>
            rw [hnew, Option.any_some, isBlankText_iff] at hname
            rw [ProductPatch.details, hnew]
            exact hname
      · cases hnew : patch.quantityPerPackage with
        | none =>
            rw [ProductPatch.details, hnew]
            exact hold.package
        | some quantity =>
            rw [hnew, Option.any_some, decide_eq_true_eq, Int.not_lt] at hpackage
            rw [ProductPatch.details, hnew]
            exact hpackage

theorem presents_reviseProduct (id : Id .product) {patch : ProductPatch}
    (h : patch.validate = .ok ()) : (reviseProduct id patch).Presents := by
  apply presents_getLive
  intro (row : Product) hrow
  have hpatched : (Write.updateProduct (patch.apply row)).IsPresentable :=
    isPresentable_details h hrow
  refine Presents.bind (presents_order hpatched) ?_
  intro moment
  exact presents_pure _

theorem presents_reviseOption (id : Id .option) {name : String} (hname : trim name ≠ "") :
    (reviseOption id name).Presents := by
  apply presents_getLive
  intro (row : ProductOption) _
  have hwrite : (do
      let moment ← order (.updateOption id name)
      let values ← ask (.valuesOf id)
      return { row with name, values, lifecycle := row.lifecycle.update moment } :
      Program ProductOption).Presents := by
    refine Presents.bind (presents_order hname) ?_
    intro moment
    apply (presents_ask _).bind
    intro values
    exact presents_pure _
  dsimp only
  split
  · apply (presents_ask _).bind
    intro holder
    apply (presents_require _ _).bind
    intro _
    exact hwrite
  · exact hwrite

theorem presents_reviseValue (id : Id .value) {text : String} (htext : trim text ≠ "") :
    (reviseValue id text).Presents := by
  apply presents_getLive
  intro (row : OptionValue) _
  have hwrite : (do
      let moment ← order (.updateValue id text)
      return { row with value := text, lifecycle := row.lifecycle.update moment } :
      Program OptionValue).Presents := by
    refine Presents.bind (presents_order htext) ?_
    intro moment
    exact presents_pure _
  dsimp only
  split
  · apply (presents_ask _).bind
    intro taken
    apply (presents_require _ _).bind
    intro _
    exact hwrite
  · exact hwrite

/-! ## Reading -/

theorem presents_loadGraph (id : Id .root) : (loadGraph id).Presents := by
  apply presents_getLive
  intro root _
  apply (presents_ask _).bind
  intro options
  have hload : ∀ option : ProductOption, (loadOption option).Presents := by
    intro option
    apply (presents_ask _).bind
    intro values
    exact presents_pure _
  apply (presents_mapM fun option _ => hload option).bind
  intro loaded
  apply (presents_ask _).bind
  intro products
  exact presents_pure _

/-! ## Every body -/

/-- Whatever has passed its screening leaves presentable tables presentable. -/
theorem presents_body {operation : Operation} {limit : Option Nat}
    (h : operation.screen limit = .ok ()) : operation.body.Presents := by
  have hcheck := check_eq_ok_of_screen h
  cases operation with
  | commit creation => exact presents_createGraph (Creation.wellFormed_of_validate hcheck)
  | addOption root spec =>
      have hspec := OptionSpec.wellFormed_of_validate hcheck
      exact presents_whenLive (presents_createOption root hspec)
  | addValue option text =>
      exact presents_whenLive (presents_createValue option (trim_ne_of_check hcheck))
  | archiveRoot id => exact presents_retireRoot id
  | archiveVariant id => exact presents_retireVariant id
  | archiveOption id => exact presents_retireOption id
  | archiveValue id => exact presents_retireValue id
  | updateProduct id patch => exact presents_reviseProduct id hcheck
  | renameOption id name => exact presents_reviseOption id (trim_ne_of_check hcheck)
  | updateValue id text => exact presents_reviseValue id (trim_ne_of_check hcheck)
  | rootGraph id => exact presents_loadGraph id
  | productBySku sku =>
      apply (presents_ask _).bind
      intro product
      exact presents_requireSome _ _
  | skuExists sku => exact presents_ask _

end Operation

end VariantCatalog
