/-
# A cascade is all that lives below a row

The four archiving operations go down from their targets along different references, and
each passes some of them over: a root never looks at the bridges to its values.  What they
archive is still the same thing seen from four places, the live rows below a target, as
long as whatever is live has live parents and a bridge joins rows of one root
(`mem_cascade_of_below`).
-/

import VariantCatalog.Proofs.Interleaving.Attachment

namespace VariantCatalog

open Memory Calendar

/-! ## Below a row -/

namespace Tables

/-- A row is below another one if it is that row, or refers to a row that is below it. -/
inductive Below (tables : Tables) (top : RowKey) : RowKey → Prop
  | self : Below tables top top
  | under {kind : EntityKind} {id : Id kind} {row : kind.Row} {parent : RowKey}
      (found : tables.find? id = some row) (refers : parent ∈ Row.parents row)
      (below : Below tables top parent) : Below tables top ⟨kind, id⟩

/-- The rows that are archived with a row, in their order. -/
def cascade (tables : Tables) : {kind : EntityKind} → kind.Row → List AnyRow
  | .root, row => tables.cascadeOfRoot row
  | .option, row => tables.cascadeOfOption row
  | .value, row => tables.cascadeOfValue row
  | .product, row => tables.cascadeOfVariant row
  | .bridge, row => [⟨.bridge, row⟩]

variable {tables : Tables} {kind : EntityKind} {top : kind.Row}

/-- Whatever is live has live parents. -/
theorem isSome_live?_parent (hcoherent : tables.Coherent) (hattached : tables.Attached)
    {id : Id kind} {row : kind.Row} (hlive : tables.live? id = some row) {parent : RowKey}
    (hparent : parent ∈ Row.parents row) : (tables.live? parent.id).isSome := by
  rcases Row.mem_parents hparent with hstem | hkeeper
  · exact hattached hlive parent hstem
  · exact hcoherent.live hlive parent hkeeper

theorem encloses_cascade (hcoherent : tables.Coherent) (top : kind.Row) :
    tables.Encloses (tables.cascade top) := by
  cases kind with
  | root => exact encloses_cascadeOfRoot hcoherent top
  | option => exact encloses_cascadeOfOption top
  | value => exact encloses_cascadeOfValue top
  | product => exact encloses_cascadeOfVariant top
  | bridge =>
      constructor
      · exact fun hroot => nomatch List.mem_singleton.mp hroot
      · exact fun hproduct => nomatch List.mem_singleton.mp hproduct
      · exact fun hvalue => nomatch List.mem_singleton.mp hvalue

theorem uproots_cascade (top : kind.Row) : tables.Uproots (tables.cascade top) := by
  cases kind with
  | root => exact uproots_cascadeOfRoot top
  | option => exact uproots_cascadeOfOption top
  | value => exact uproots_cascadeOfValue top
  | product => exact uproots_cascadeOfVariant top
  | bridge =>
      constructor
      · exact fun hroot => nomatch List.mem_singleton.mp hroot
      · exact fun hoption => nomatch List.mem_singleton.mp hoption

theorem self_mem_cascade (tables : Tables) (top : kind.Row) :
    (⟨kind, top⟩ : AnyRow) ∈ tables.cascade top := by
  cases kind with
  | bridge => exact List.mem_cons_self
  | _ => exact List.mem_concat_self

/-- Whatever lives below a row is archived with it. -/
theorem mem_cascade_of_below (hcoherent : tables.Coherent) (hattached : tables.Attached)
    (htop : tables.live? (Row.id top) = some top) {key : RowKey}
    (hbelow : tables.Below ⟨kind, Row.id top⟩ key) {row : key.kind.Row}
    (hlive : tables.live? key.id = some row) :
    (⟨key.kind, row⟩ : AnyRow) ∈ tables.cascade top := by
  induction hbelow with
  | self =>
      rw [htop] at hlive
      cases hlive
      exact self_mem_cascade tables top
  | @under other id found parent hfound hrefers _ ih =>
      have hfoundLive := (live?_eq_some.mp hlive).1
      rw [hfound] at hfoundLive
      cases hfoundLive
      obtain rfl := id_of_find? hfound
      -- A live row has a live parent, which is archived too.
      have hsome := isSome_live?_parent hcoherent hattached hlive hrefers
      obtain ⟨above, habove⟩ := Option.isSome_iff_exists.mp hsome
      have hkey : parent ∈ (tables.cascade top).map AnyRow.key := by
        refine List.mem_map.mpr ⟨_, ih habove, ?_⟩
        exact congrArg (RowKey.mk parent.kind) (id_of_find? (live?_eq_some.mp habove).1)
      rcases Row.mem_parents hrefers with hstem | hkeeper
      · exact (uproots_cascade top).mem_of_stem hlive hstem hkey
      · exact (encloses_cascade hcoherent top).mem_of_keeper hlive hkeeper hkey

/-- The live rows that refer to a parent are below whatever the parent is below. -/
theorem below_of_mem_ofRows {key parent : RowKey} (h : tables.Below key parent)
    {kind : EntityKind} {condition : kind.Row → Bool}
    (hrefers : ∀ row, condition row = true → parent ∈ Row.parents row) {any : AnyRow}
    (hany : any ∈ AnyRow.ofRows kind ((tables.table kind).liveRows condition)) :
    tables.Below key any.key := by
  obtain ⟨row, hlive, hcondition, rfl⟩ := mem_ofRows_liveRows.mp hany
  exact .under (live?_eq_some.mp hlive).1 (hrefers row hcondition) h

theorem below_of_mem_bridgesOf {key : RowKey} {product : Id .product} {any : AnyRow}
    (h : tables.Below key ⟨.product, product⟩) (hany : any ∈ tables.bridgesOf product) :
    tables.Below key any.key := by
  refine @below_of_mem_ofRows _ _ _ h .bridge _ (fun bridge hproduct => ?_) _ hany
  rw [← of_decide_eq_true hproduct]
  exact List.mem_cons_self

theorem below_of_mem_bridgesTo {key : RowKey} {value : Id .value} {any : AnyRow}
    (h : tables.Below key ⟨.value, value⟩) (hany : any ∈ tables.bridgesTo value) :
    tables.Below key any.key := by
  refine @below_of_mem_ofRows _ _ _ h .bridge _ (fun bridge hvalue => ?_) _ hany
  rw [← of_decide_eq_true hvalue]
  exact List.mem_cons_of_mem _ List.mem_cons_self

theorem below_of_mem_valuesOf {key : RowKey} {option : Id .option} {any : AnyRow}
    (h : tables.Below key ⟨.option, option⟩) (hany : any ∈ tables.valuesOf option) :
    tables.Below key any.key := by
  refine @below_of_mem_ofRows _ _ _ h .value _ (fun value hoption => ?_) _ hany
  rw [← of_decide_eq_true hoption]
  exact List.mem_cons_self

theorem below_of_mem_cascadeOfVariant {row : Product} {any : AnyRow}
    (h : any ∈ tables.cascadeOfVariant row) : tables.Below ⟨.product, row.id⟩ any.key := by
  rcases List.mem_append.mp h with hbridge | hself
  · exact below_of_mem_bridgesOf .self hbridge
  · rw [List.mem_singleton.mp hself]
    exact .self

theorem below_of_mem_cascadeOfValue {row : OptionValue} {any : AnyRow}
    (h : any ∈ tables.cascadeOfValue row) : tables.Below ⟨.value, row.id⟩ any.key := by
  rcases List.mem_append.mp h with hbridge | hself
  · exact below_of_mem_bridgesTo .self hbridge
  · rw [List.mem_singleton.mp hself]
    exact .self

theorem below_of_mem_cascadeOfOption {row : ProductOption} {any : AnyRow}
    (h : any ∈ tables.cascadeOfOption row) : tables.Below ⟨.option, row.id⟩ any.key := by
  rcases List.mem_append.mp h with hbelow | hself
  · rcases List.mem_append.mp hbelow with hbridge | hvalue
    · obtain ⟨value, hmem, hbridge⟩ := List.mem_flatMap.mp hbridge
      have hvalue : (⟨.value, value⟩ : AnyRow) ∈ tables.valuesOf row.id :=
        AnyRow.mem_ofRows.mpr hmem
      exact below_of_mem_bridgesTo (below_of_mem_valuesOf .self hvalue) hbridge
    · exact below_of_mem_valuesOf .self hvalue
  · rw [List.mem_singleton.mp hself]
    exact .self

theorem below_of_mem_cascadeOfRoot {row : ProductRoot} {any : AnyRow}
    (h : any ∈ tables.cascadeOfRoot row) : tables.Below ⟨.root, row.id⟩ any.key := by
  have hproduct : ∀ {any : AnyRow},
      any ∈ AnyRow.ofRows .product (tables.products.liveRows (·.root = row.id)) →
        tables.Below ⟨.root, row.id⟩ any.key := by
    intro any hany
    refine @below_of_mem_ofRows _ _ _ .self .product _ (fun product hroot => ?_) _ hany
    rw [← of_decide_eq_true hroot]
    exact List.mem_cons_self
  have hoption : ∀ {any : AnyRow},
      any ∈ AnyRow.ofRows .option (tables.options.liveRows (·.root = row.id)) →
        tables.Below ⟨.root, row.id⟩ any.key := by
    intro any hany
    refine @below_of_mem_ofRows _ _ _ .self .option _ (fun option hroot => ?_) _ hany
    rw [← of_decide_eq_true hroot]
    exact List.mem_cons_self
  simp only [cascadeOfRoot, List.mem_append, List.mem_flatMap, List.mem_singleton] at h
  rcases h with (((⟨product, hmem, hbridge⟩ | hmem) | ⟨option, hmem, hvalue⟩) | hmem) | rfl
  · exact below_of_mem_bridgesOf (hproduct (AnyRow.mem_ofRows.mpr hmem)) hbridge
  · exact hproduct hmem
  · exact below_of_mem_valuesOf (hoption (AnyRow.mem_ofRows.mpr hmem)) hvalue
  · exact hoption hmem
  · exact .self

/-- Whatever is archived with a row is below it. -/
theorem below_of_mem_cascade {any : AnyRow} (h : any ∈ tables.cascade top) :
    tables.Below ⟨kind, Row.id top⟩ any.key := by
  cases kind with
  | root => exact below_of_mem_cascadeOfRoot h
  | option => exact below_of_mem_cascadeOfOption h
  | value => exact below_of_mem_cascadeOfValue h
  | product => exact below_of_mem_cascadeOfVariant h
  | bridge =>
      rw [List.mem_singleton.mp h]
      exact .self

end Tables

end VariantCatalog
