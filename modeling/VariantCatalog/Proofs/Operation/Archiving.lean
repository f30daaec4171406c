/-
# What the archiving operations archive

Each archiving body archives one row and what hangs below it, from the bridges up.
What it archives can be read off the tables that its transaction began on: it is a
cascade, a list of live rows in the order in which the body comes to them.  The
bodies never meet a row twice, so the cascade is exactly what they leave archived.

For the same reason no call of theirs misses its row.  Apart from a fault, an archiving
body has a single way to fail: it does not find its target live.
-/

import VariantCatalog.Operation.Body
import VariantCatalog.Proofs.Memory.Outcomes
import VariantCatalog.Proofs.Memory.Retirement

namespace VariantCatalog

open Memory Calendar

/-! ## Cascades -/

namespace Tables

variable (tables : Tables)

/-- The live bridges of a variant. -/
def bridgesOf (product : Id .product) : List AnyRow :=
  AnyRow.ofRows .bridge (tables.bridges.liveRows (·.product = product))

/-- The live bridges to a value. -/
def bridgesTo (value : Id .value) : List AnyRow :=
  AnyRow.ofRows .bridge (tables.bridges.liveRows (·.value = value))

/-- The live values of an option. -/
def valuesOf (option : Id .option) : List AnyRow :=
  AnyRow.ofRows .value (tables.values.liveRows (·.option = option))

/-- A variant and its bridges. -/
def cascadeOfVariant (row : Product) : List AnyRow :=
  tables.bridgesOf row.id ++ [⟨.product, row⟩]

/-- A value and the bridges to it. -/
def cascadeOfValue (row : OptionValue) : List AnyRow :=
  tables.bridgesTo row.id ++ [⟨.value, row⟩]

/-- An option, its values and the bridges to them. -/
def cascadeOfOption (row : ProductOption) : List AnyRow :=
  (tables.values.liveRows (·.option = row.id)).flatMap (tables.bridgesTo ·.id) ++
    tables.valuesOf row.id ++ [⟨.option, row⟩]

/-- A root, its variants with their bridges, and its options with their values. -/
def cascadeOfRoot (row : ProductRoot) : List AnyRow :=
  (tables.products.liveRows (·.root = row.id)).flatMap (tables.bridgesOf ·.id) ++
    AnyRow.ofRows .product (tables.products.liveRows (·.root = row.id)) ++
    (tables.options.liveRows (·.root = row.id)).flatMap (tables.valuesOf ·.id) ++
    AnyRow.ofRows .option (tables.options.liveRows (·.root = row.id)) ++ [⟨.root, row⟩]

end Tables

namespace Operation

open Program

variable {origin : Tables} {rows : List AnyRow} {session : Session} {calm : Prop}
  {reason : CatalogError → Prop}

/-- The target of an operation is not live, and that is what the operation says. -/
def Misses (origin : Tables) {kind : EntityKind} (id : Id kind) (error : CatalogError) : Prop :=
  error = .absent id ∧ origin.live? id = none

/-! ## The calls -/

/-- An operation that asks first whether its target is live goes on with the row that
was found. -/
theorem withstands_whenLive {α : Type} {kind : EntityKind} {id : Id kind}
    {program : Program α} {ok : α → Session → Prop}
    (h : session.transaction = ⟨origin, []⟩)
    (hprogram : ∀ row after, origin.live? id = some row → after.transaction = ⟨origin, []⟩ →
      Withstands calm ok (Misses origin id) program after) :
    Withstands calm ok (Misses origin id)
      (ask (.isLive id) >>= fun live => require live (.absent id) >>= fun _ => program)
      session := by
  apply withstands_askThen
  intro middle hmiddle
  rw [h] at hmiddle ⊢
  apply endures_bind.mpr
  apply endures_require.mpr
  cases hlive : origin.live? id with
  | none =>
      simp only [answerQuery, hlive, Option.isSome_none, Bool.false_eq_true, if_false]
      exact .inl ⟨rfl, hlive⟩
  | some row =>
      simp only [answerQuery, hlive, Option.isSome_some, if_true]
      exact hprogram row middle hlive hmiddle

theorem withstands_archive (kind : EntityKind) {row : kind.Row} {change : Write}
    (hwork : IsWork change (archive (Row.id row)))
    (h : Retires origin rows session.transaction)
    (hlive : origin.live? (Row.id row) = some row)
    (hfresh : (⟨kind, Row.id row⟩ : RowKey) ∉ rows.map AnyRow.key) :
    Withstands calm (fun _ after => Retires origin (rows ++ [⟨kind, row⟩]) after.transaction)
      reason (order change) session := by
  apply withstands_order
  · intro registers reply after hrun
    obtain ⟨moment, hrun⟩ := hwork.ok hrun
    exact @retires_of_run_archive origin rows ⟨registers, session.transaction⟩ after _ _ _ h
      hlive hrun
  · intro registers error after hrun
    have hfound := h.live?_eq_some.mpr ⟨hlive, hfresh⟩
    have hfailed := hwork.error hrun
    simp only [run_archive, hfound] at hfailed
    cases hfailed

theorem withstands_archiveWhere (kind : EntityKind) {condition : kind.Row → Bool}
    {change : Write} (hwork : IsWork change (archiveWhere kind condition))
    (h : Retires origin rows session.transaction)
    (hrows : ∀ row, (⟨kind, row⟩ : AnyRow) ∈ rows → condition row = false) :
    Withstands calm
      (fun _ after => Retires origin
        (rows ++ AnyRow.ofRows kind ((origin.table kind).liveRows condition)) after.transaction)
      reason (order change) session := by
  apply withstands_order
  · intro registers reply after hrun
    obtain ⟨count, hrun⟩ := hwork.ok hrun
    exact @retires_of_run_archiveWhere origin rows ⟨registers, session.transaction⟩ after _ _ _ h
      hrows hrun
  · intro registers error after hrun
    have hfailed := hwork.error hrun
    rw [run_archiveWhere] at hfailed
    cases hfailed

/-- A loop archives the cascades of its items, one after the other. -/
theorem withstands_forM {ι : Type} {items : List ι} {cascade : ι → List AnyRow}
    {f : ι → Program PUnit} (h : Retires origin rows session.transaction)
    (hstep : ∀ done item session, done ++ [item] <+: items →
      Retires origin (rows ++ done.flatMap cascade) session.transaction →
        Withstands calm
          (fun _ after => Retires origin (rows ++ done.flatMap cascade ++ cascade item)
            after.transaction)
          reason (f item) session) :
    Withstands calm
      (fun _ after => Retires origin (rows ++ items.flatMap cascade) after.transaction) reason
      (items.forM f) session := by
  apply Endures.forM (fun done (after : Session) =>
    Retires origin (rows ++ done.flatMap cascade) after.transaction)
  · intro done item middle hinitial hdone
    have hitem := hstep done item middle hinitial hdone
    rw [List.append_assoc] at hitem
    rw [List.flatMap_append, List.flatMap_singleton]
    exact hitem
  · rw [List.flatMap_nil, List.append_nil]
    exact h

/-- An item of a table is none of those before it. -/
theorem id_ne_of_initial {kind : EntityKind} {done items : List kind.Row} {row : kind.Row}
    (hinitial : done ++ [row] <+: items) (hitems : items.Pairwise Row.Precedes) :
    ∀ other ∈ done, Row.id other ≠ Row.id row := by
  intro other hother hid
  have hpairwise := hitems.sublist hinitial.sublist
  have hlt := (List.pairwise_append.mp hpairwise).2.2 other hother row (List.mem_singleton_self row)
  exact absurd (Id.number_inj.mpr hid) (Int.ne_of_lt hlt)

/-- Rows of other kinds are under other keys. -/
theorem not_mem_keys_of_kind {kind : EntityKind} (id : Id kind)
    (hrows : ∀ any ∈ rows, any.kind ≠ kind) : (⟨kind, id⟩ : RowKey) ∉ rows.map AnyRow.key := by
  intro hkey
  obtain ⟨row, hrow, -⟩ := AnyRow.exists_of_mem_keys hkey
  exact hrows _ hrow rfl

/-- A loop that archives the live rows of a table one by one. -/
theorem withstands_forM_archive (kind : EntityKind) (condition : kind.Row → Bool)
    {change : kind.Row → Write}
    (hwork : ∀ row, IsWork (change row) (archive (Row.id row)))
    (h : Retires origin rows session.transaction) (hrows : ∀ any ∈ rows, any.kind ≠ kind) :
    Withstands calm
      (fun _ after => Retires origin
        (rows ++ AnyRow.ofRows kind ((origin.table kind).liveRows condition)) after.transaction)
      reason
      (((origin.table kind).liveRows condition).forM fun row => discard (order (change row)))
      session := by
  rw [AnyRow.ofRows, List.map_eq_flatMap]
  apply withstands_forM h
  intro done row middle hinitial hdone
  have hmem := hinitial.subset (List.mem_append_right done (List.mem_singleton_self row))
  have hlive := (Tables.mem_liveRows.mp hmem).1
  refine endures_discard.mpr (withstands_archive kind (hwork row) hdone hlive ?_)
  rw [List.map_append, List.mem_append]
  rintro (hearlier | hdone)
  · exact not_mem_keys_of_kind _ hrows hearlier
  · obtain ⟨old, hold, hid⟩ := AnyRow.exists_of_mem_keys hdone
    obtain ⟨other, hother, heq⟩ := List.mem_flatMap.mp hold
    cases List.mem_singleton.mp heq
    exact id_ne_of_initial hinitial (Table.ascending_liveRows _ _) _ hother hid

/-- A loop that archives what belongs to each of the live rows of a table, if nothing
belongs to two of them. -/
theorem withstands_forM_archiveWhere (kind parent : EntityKind) (condition : parent.Row → Bool)
    (belongs : parent.Row → kind.Row → Bool) {change : parent.Row → Write}
    (hwork : ∀ item, IsWork (change item) (archiveWhere kind (belongs item)))
    (h : Retires origin rows session.transaction)
    (hrows : ∀ item row, (⟨kind, row⟩ : AnyRow) ∈ rows → belongs item row = false)
    (hbelongs : ∀ first second row, belongs first row → belongs second row →
      Row.id first = Row.id second) :
    Withstands calm
      (fun _ after => Retires origin
        (rows ++ ((origin.table parent).liveRows condition).flatMap fun item =>
          AnyRow.ofRows kind ((origin.table kind).liveRows (belongs item))) after.transaction)
      reason
      (((origin.table parent).liveRows condition).forM fun item =>
        discard (order (change item))) session := by
  apply withstands_forM h
  intro done item middle hinitial hdone
  apply endures_discard.mpr
  apply withstands_archiveWhere kind (hwork item) hdone
  intro row hmem
  rcases List.mem_append.mp hmem with hmem | hmem
  · exact hrows item row hmem
  · -- What was archived so far belongs to the items before this one.
    obtain ⟨other, hother, hrow⟩ := List.mem_flatMap.mp hmem
    have hbelongsOther := (Table.mem_liveRows.mp (AnyRow.mem_ofRows.mp hrow)).2.2
    have hne := id_ne_of_initial hinitial (Table.ascending_liveRows _ _) other hother
    apply Bool.eq_false_iff.mpr
    exact fun hbelongsItem => hne (hbelongs other item row hbelongsOther hbelongsItem)

theorem kind_of_mem_flatMap {ι : Type} {items : List ι} {cascade : ι → List AnyRow}
    {any : AnyRow} (h : any ∈ items.flatMap cascade) (kind : EntityKind)
    (hcascade : ∀ item, ∀ any ∈ cascade item, any.kind = kind) : any.kind = kind := by
  obtain ⟨item, _, hmem⟩ := List.mem_flatMap.mp h
  exact hcascade item any hmem

/-! ## The bodies -/

theorem withstands_retireVariant (id : Id .product) (h : session.transaction = ⟨origin, []⟩) :
    Withstands calm
      (fun _ after => ∃ row, origin.live? id = some row ∧
        Retires origin (origin.cascadeOfVariant row) after.transaction)
      (Misses origin id) (retireVariant id) session := by
  apply withstands_whenLive h
  intro row first hrow hfirst
  have hstart : Retires origin [] first.transaction := hfirst ▸ Retires.start origin
  obtain rfl := Tables.id_of_find? (Tables.live?_eq_some.mp hrow).1
  apply (withstands_archiveWhere .bridge (.self (.archiveBridgesOfProduct _)) hstart
    fun _ hmem => absurd hmem List.not_mem_nil).bind
  intro _ second hsecond
  apply (withstands_archive .product (.self (.archiveProduct _)) hsecond hrow
    (not_mem_keys_of_kind _ fun any hmem hkind =>
      nomatch (AnyRow.kind_of_mem_ofRows hmem).symm.trans hkind)).mono
  exact fun _ after hafter => ⟨row, hrow, hafter⟩

theorem withstands_retireValue (id : Id .value) (h : session.transaction = ⟨origin, []⟩) :
    Withstands calm
      (fun _ after => ∃ row, origin.live? id = some row ∧
        Retires origin (origin.cascadeOfValue row) after.transaction)
      (Misses origin id) (retireValue id) session := by
  apply withstands_whenLive h
  intro row first hrow hfirst
  have hstart : Retires origin [] first.transaction := hfirst ▸ Retires.start origin
  obtain rfl := Tables.id_of_find? (Tables.live?_eq_some.mp hrow).1
  apply (withstands_archiveWhere .bridge (.self (.archiveBridgesOfValue _)) hstart
    fun _ hmem => absurd hmem List.not_mem_nil).bind
  intro _ second hsecond
  apply (withstands_archive .value (.self (.archiveValue _)) hsecond hrow
    (not_mem_keys_of_kind _ fun any hmem hkind =>
      nomatch (AnyRow.kind_of_mem_ofRows hmem).symm.trans hkind)).mono
  exact fun _ after hafter => ⟨row, hrow, hafter⟩

theorem withstands_retireOption (id : Id .option) (h : session.transaction = ⟨origin, []⟩) :
    Withstands calm
      (fun _ after => ∃ row, origin.live? id = some row ∧
        Retires origin (origin.cascadeOfOption row) after.transaction)
      (Misses origin id) (retireOption id) session := by
  apply withstands_whenLive h
  intro row first hrow hfirst
  obtain rfl := Tables.id_of_find? (Tables.live?_eq_some.mp hrow).1
  apply withstands_askThen
  intro second hsecond
  rw [hfirst] at hsecond ⊢
  have hstart : Retires origin [] second.transaction := hsecond ▸ Retires.start origin
  apply (withstands_forM_archiveWhere .bridge .value (·.option = Row.id row)
    (fun value bridge => bridge.value = value.id)
    (fun value => .self (.archiveBridgesOfValue value.id)) hstart
    (fun _ _ hmem => absurd hmem List.not_mem_nil)
    fun _ _ _ hfirst hsecond =>
      (of_decide_eq_true hfirst).symm.trans (of_decide_eq_true hsecond)).bind
  intro _ third hthird
  have hbridges : ∀ any ∈ [] ++ (origin.values.liveRows (·.option = Row.id row)).flatMap
      (origin.bridgesTo ·.id), any.kind = .bridge :=
    fun _ hmem => kind_of_mem_flatMap hmem .bridge fun _ _ => AnyRow.kind_of_mem_ofRows
  apply (withstands_archiveWhere .value (.self (.archiveValuesOf _)) hthird
    fun _ hmem => nomatch hbridges _ hmem).bind
  intro _ fourth hfourth
  apply (withstands_archive .option (.self (.archiveOption _)) hfourth hrow
    (not_mem_keys_of_kind _ fun any hmem hkind => by
      rcases List.mem_append.mp hmem with hbridge | hvalue
      · exact nomatch (hbridges any hbridge).symm.trans hkind
      · exact nomatch (AnyRow.kind_of_mem_ofRows hvalue).symm.trans hkind)).mono
  exact fun _ after hafter => ⟨row, hrow, hafter⟩

/-- A list of variants as a query returns it is gone through like that of the rows. -/
theorem forM_withOptionValues (tables : Tables) (f : Id .product → Program PUnit)
    (products : List Product) :
    (products.map tables.withOptionValues).forM (fun product => f product.id) =
      products.forM fun product => f product.id :=
  List.forM_map

theorem withstands_retireRoot (id : Id .root) (h : session.transaction = ⟨origin, []⟩) :
    Withstands calm
      (fun _ after => ∃ row, origin.live? id = some row ∧
        Retires origin (origin.cascadeOfRoot row) after.transaction)
      (Misses origin id) (retireRoot id) session := by
  apply withstands_whenLive h
  intro row first hrow hfirst
  obtain rfl := Tables.id_of_find? (Tables.live?_eq_some.mp hrow).1
  apply withstands_askThen
  intro second hsecond
  rw [hfirst] at hsecond ⊢
  have hstart : Retires origin [] second.transaction := hsecond ▸ Retires.start origin
  simp only [answerQuery, forM_withOptionValues origin fun product =>
    discard (order (.archiveBridgesOfProduct product)), forM_withOptionValues origin fun product =>
    discard (order (.archiveProduct product))]
  apply (withstands_forM_archiveWhere .bridge .product (·.root = Row.id row)
    (fun product bridge => bridge.product = product.id)
    (fun product => .self (.archiveBridgesOfProduct product.id)) hstart
    (fun _ _ hmem => absurd hmem List.not_mem_nil)
    fun _ _ _ hfirst hsecond =>
      (of_decide_eq_true hfirst).symm.trans (of_decide_eq_true hsecond)).bind
  intro _ third hthird
  have hbridges : ∀ any ∈ [] ++ (origin.products.liveRows (·.root = Row.id row)).flatMap
      (origin.bridgesOf ·.id), any.kind = .bridge :=
    fun _ hmem => kind_of_mem_flatMap hmem .bridge fun _ _ => AnyRow.kind_of_mem_ofRows
  apply (withstands_forM_archive .product (·.root = Row.id row)
    (fun product => .self (.archiveProduct product.id)) hthird
    fun any hmem hkind => nomatch (hbridges any hmem).symm.trans hkind).bind
  intro _ fourth hfourth
  -- So far no option and no value was touched.
  have hproducts : ∀ any ∈ [] ++ (origin.products.liveRows (·.root = Row.id row)).flatMap
      (origin.bridgesOf ·.id) ++
        AnyRow.ofRows .product (origin.products.liveRows (·.root = Row.id row)),
      any.kind = .bridge ∨ any.kind = .product :=
    fun any hmem => (List.mem_append.mp hmem).imp (hbridges any) AnyRow.kind_of_mem_ofRows
  have hoptions : answerQuery fourth.transaction.working (.optionsOf (Row.id row)) =
      (origin.table .option).liveRows (·.root = Row.id row) := by
    apply hfourth.liveRows_eq
    exact fun option hmem => nomatch hproducts _ hmem
  apply withstands_askThen
  intro fifth hfifth
  rw [← hfifth] at hfourth
  rw [hoptions]
  apply (withstands_forM_archiveWhere .value .option (·.root = Row.id row)
    (fun option value => value.option = option.id)
    (fun option => .self (.archiveValuesOf option.id)) hfourth
    (fun _ _ hmem => nomatch hproducts _ hmem)
    fun _ _ _ hfirst hsecond =>
      (of_decide_eq_true hfirst).symm.trans (of_decide_eq_true hsecond)).bind
  intro _ sixth hsixth
  have hvalues : ∀ any ∈ [] ++ (origin.products.liveRows (·.root = Row.id row)).flatMap
      (origin.bridgesOf ·.id) ++
        AnyRow.ofRows .product (origin.products.liveRows (·.root = Row.id row)) ++
        (origin.options.liveRows (·.root = Row.id row)).flatMap (origin.valuesOf ·.id),
      (any.kind = .bridge ∨ any.kind = .product) ∨ any.kind = .value :=
    fun any hmem => (List.mem_append.mp hmem).imp (hproducts any) fun hvalue =>
      kind_of_mem_flatMap hvalue .value fun _ _ => AnyRow.kind_of_mem_ofRows
  apply (withstands_forM_archive .option (·.root = Row.id row)
    (fun option => .self (.archiveOption option.id)) hsixth fun any hmem hkind => by
      rcases hvalues any hmem with (hother | hother) | hother <;>
        exact nomatch hother.symm.trans hkind).bind
  intro _ seventh hseventh
  apply (withstands_archive .root (.self (.archiveRoot _)) hseventh hrow
    (not_mem_keys_of_kind _ fun any hmem hkind => by
      rcases List.mem_append.mp hmem with hmem | hoption
      · rcases hvalues any hmem with (hother | hother) | hother <;>
          exact nomatch hother.symm.trans hkind
      · exact nomatch (AnyRow.kind_of_mem_ofRows hoption).symm.trans hkind)).mono
  exact fun _ after hafter => ⟨row, hrow, hafter⟩

end Operation

end VariantCatalog
