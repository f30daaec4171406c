/-
# Patches one after the other

Two patches in turn are one patch: of each field the later one decides, and where it is
silent, the earlier one.  Patches act on the details of a variant only, and the patch that
names nothing is the only one that changes nothing anywhere.

A store keeps more than a patch knows of: it keeps some fields of the row, strips off the
values and stamps the row.  Still the row after any number of updates is the first row with
all of their patches merged, but for the stamp (`updates_accumulate`).
-/

import VariantCatalog.Proofs.Interleaving.Overwriting
import VariantCatalog.Proofs.Interleaving.Sequence

namespace VariantCatalog

open Memory

/-! ## Merging -/

namespace ProductPatch

/-- Two patches in one: the second one decides where it names a field. -/
def merge (first second : ProductPatch) : ProductPatch where
  name := second.name.or first.name
  subtitle := second.subtitle.or first.subtitle
  description := second.description.or first.description
  upc := second.upc.or first.upc
  manufacturer := second.manufacturer.or first.manufacturer
  brand := second.brand.or first.brand
  quantity := second.quantity.or first.quantity
  quantityPerPackage := second.quantityPerPackage.or first.quantityPerPackage
  taxable := second.taxable.or first.taxable
  price := second.price.or first.price
  onSale := second.onSale.or first.onSale
  salePrice := second.salePrice.or first.salePrice
  cost := second.cost.or first.cost
  productDimensions := second.productDimensions.or first.productDimensions
  packageDimensions := second.packageDimensions.or first.packageDimensions
  availableOn := second.availableOn.or first.availableOn

/-- Patches in one, the last one deciding. -/
def mergeAll (patches : List ProductPatch) : ProductPatch := patches.foldl merge empty

variable (first second patch : ProductPatch) (product : Product)

theorem details_merge (old : ProductDetails) :
    (first.merge second).details old = second.details (first.details old) := by
  simp only [details, merge, Option.getD_or, Option.or_assoc]

theorem apply_merge : (first.merge second).apply product = second.apply (first.apply product) := by
  simp only [apply, details_merge]
  rw [merge, Option.getD_or]

theorem merge_self : patch.merge patch = patch := by
  simp only [merge, Option.or_self]

theorem or_comm_of_apart {α : Type} {mine theirs : Option α} (h : mine = none ∨ theirs = none) :
    theirs.or mine = mine.or theirs := by
  rcases h with rfl | rfl
  · rw [Option.or_none, Option.none_or]
  · rw [Option.or_none, Option.none_or]

variable {first second} in
theorem Apart.merge_comm (h : first.Apart second) : first.merge second = second.merge first := by
  simp only [merge, or_comm_of_apart h.name, or_comm_of_apart h.subtitle,
    or_comm_of_apart h.description, or_comm_of_apart h.upc, or_comm_of_apart h.manufacturer,
    or_comm_of_apart h.brand, or_comm_of_apart h.quantity, or_comm_of_apart h.quantityPerPackage,
    or_comm_of_apart h.taxable, or_comm_of_apart h.price, or_comm_of_apart h.onSale,
    or_comm_of_apart h.salePrice, or_comm_of_apart h.cost, or_comm_of_apart h.productDimensions,
    or_comm_of_apart h.packageDimensions, or_comm_of_apart h.availableOn]

theorem apply_empty : empty.apply product = product := by
  simp only [apply, details, empty, Option.getD_none, Option.none_or]

/-- To merge patches is to apply them in turn. -/
theorem apply_mergeAll (patches : List ProductPatch) :
    (mergeAll patches).apply product =
      patches.foldl (fun current patch => patch.apply current) product := by
  have hfrom : ∀ start : ProductPatch, (patches.foldl merge start).apply product =
      patches.foldl (fun current patch => patch.apply current) (start.apply product) := by
    induction patches with
    | nil => exact fun _ => rfl
    | cons patch rest ih =>
        intro start
        rw [List.foldl_cons, ih, apply_merge, List.foldl_cons]
  rw [mergeAll, hfrom, apply_empty]

/-! ## Patches that change nothing -/

theorem eq_none_of_getD {α : Type} {field : Option α} {one other : α} (hne : one ≠ other)
    (h : ∀ old, field.getD old = old) : field = none := by
  cases field with
  | none => rfl
  | some new => exact absurd ((h one).symm.trans (h other)) hne

theorem eq_none_of_or {α : Type} {field : Option α} (h : ∀ old, field.or old = old) :
    field = none := by
  have hnone := h none
  rwa [Option.or_none] at hnone

/-- A patch that leaves all variants alone names nothing: whatever it names, there is a
variant that has something else there. -/
theorem eq_empty_of_apply {patch : ProductPatch} (h : ∀ product, patch.apply product = product) :
    patch = empty := by
  let variant (details : ProductDetails) (availableOn : Calendar.Moment) : Product :=
    ⟨⟨0⟩, ⟨0⟩, "", "", details, [], availableOn, .created availableOn⟩
  let plain : ProductDetails :=
    ⟨"", none, "", none, none, none, 0, 0, false, 0, false, none, 0, .zero, .zero⟩
  have hdetails : ∀ old, patch.details old = old := fun old =>
    congrArg Product.details (h (variant old (.given ⟨0, 0⟩)))
  have havailable : ∀ old, patch.availableOn.getD old = old := fun old =>
    congrArg Product.availableOn (h (variant plain old))
  cases patch
  simp only [empty, mk.injEq]
  have hempty : "" ≠ " " := by decide
  have hzero : (0 : Int) ≠ 1 := by decide
  have hdimensions : Dimensions.zero ≠ { Dimensions.zero with weight := ⟨1⟩ } := by decide
  have hmoment : Calendar.Moment.given ⟨0, 0⟩ ≠ .given ⟨1, 0⟩ := by decide
  exact ⟨eq_none_of_getD hempty fun name => congrArg (·.name) (hdetails { plain with name }),
    eq_none_of_or fun subtitle => congrArg (·.subtitle) (hdetails { plain with subtitle }),
    eq_none_of_getD hempty fun description =>
      congrArg (·.description) (hdetails { plain with description }),
    eq_none_of_or fun upc => congrArg (·.upc) (hdetails { plain with upc }),
    eq_none_of_or fun manufacturer =>
      congrArg (·.manufacturer) (hdetails { plain with manufacturer }),
    eq_none_of_or fun brand => congrArg (·.brand) (hdetails { plain with brand }),
    eq_none_of_getD hzero fun quantity =>
      congrArg (·.quantity) (hdetails { plain with quantity }),
    eq_none_of_getD hzero fun quantityPerPackage =>
      congrArg (·.quantityPerPackage) (hdetails { plain with quantityPerPackage }),
    eq_none_of_getD Bool.false_ne_true fun taxable =>
      congrArg (·.taxable) (hdetails { plain with taxable }),
    eq_none_of_getD hzero fun price => congrArg (·.price) (hdetails { plain with price }),
    eq_none_of_getD Bool.false_ne_true fun onSale =>
      congrArg (·.onSale) (hdetails { plain with onSale }),
    eq_none_of_or fun salePrice => congrArg (·.salePrice) (hdetails { plain with salePrice }),
    eq_none_of_getD hzero fun cost => congrArg (·.cost) (hdetails { plain with cost }),
    eq_none_of_getD hdimensions fun productDimensions =>
      congrArg (·.productDimensions) (hdetails { plain with productDimensions }),
    eq_none_of_getD hdimensions fun packageDimensions =>
      congrArg (·.packageDimensions) (hdetails { plain with packageDimensions }),
    eq_none_of_getD hmoment havailable⟩

theorem isEmpty_iff (patch : ProductPatch) :
    patch.isEmpty ↔ ∀ product, patch.apply product = product := by
  rw [isEmpty, decide_eq_true_eq]
  constructor
  · rintro rfl
    exact apply_empty
  · exact eq_empty_of_apply

end ProductPatch

/-- Two variants agree in all that no patch can change. -/
structure Product.SameCore (first second : Product) : Prop where
  id : first.id = second.id
  root : first.root = second.root
  sku : first.sku = second.sku
  optionSummary : first.optionSummary = second.optionSummary
  optionValues : first.optionValues = second.optionValues
  lifecycle : first.lifecycle = second.lifecycle

/-! ## Updates -/

namespace Memory.System

open Operation

/-- Updates of one variant that are carried out one after the other, all with success. -/
inductive Updates (id : Id .product) : Memory → List ProductPatch → Memory → Prop where
  | none (memory : Memory) : Updates id memory [] memory
  | more {before middle after : Memory} {limit : Option Nat} {patch : ProductPatch}
      {result : Product} {rest : List ProductPatch}
      (h : store.perform limit (.updateProduct id patch) before = (.ok result, middle))
      (hrest : Updates id middle rest after) : Updates id before (patch :: rest) after

/-- A variant with another stamp of its last edit. -/
def restamped (row : Product) (updatedOn : Option Calendar.Moment) : Product :=
  { row with lifecycle := { row.lifecycle with updatedOn } }

theorem apply_restamped (patch : ProductPatch) (row : Product)
    (updatedOn : Option Calendar.Moment) :
    patch.apply (restamped row updatedOn) = restamped (patch.apply row) updatedOn := rfl

/-- On a row that carries no values, what the store makes of a patch is what the patch makes
of the row, with a stamp. -/
theorem patched_eq {row : Product} (hbare : row.optionValues = []) (patch : ProductPatch)
    (moment : Calendar.Moment) :
    patched patch row moment = restamped (patch.apply row) (some moment) := by
  rw [patched, restamped, ProductPatch.apply, hbare]
  rfl

/-- An update in one go leaves the row that was there with its patch on it. -/
theorem find?_of_perform {moves : List Move} {limit : Option Nat} {id : Id .product}
    {patch : ProductPatch} {row result : Product} {after : Memory}
    (hrow : (run moves).memory.committed.tables.find? id = some row)
    (h : store.perform limit (.updateProduct id patch) (run moves).memory = (.ok result, after)) :
    ∃ moment, after.committed.tables.find? id =
      some (restamped (patch.apply row) (some moment)) := by
  obtain ⟨tx, hsettles⟩ := exists_settles rfl h
  obtain ⟨found, moment, rfl, hrevises, -⟩ := hsettles.effect
  have hfound := (Tables.live?_eq_some.mp hrevises.live).1
  obtain rfl : found = row := Option.some.inj (hfound.symm.trans hrow)
  have hbare := (sound_run moves).intact.consistent.no_option_values found
    ((@Tables.mem_iff _ .product _).mpr hrow)
  refine ⟨moment, ?_⟩
  rw [← patched_eq hbare]
  exact find?_of_revises hrevises hsettles.merged

/-- After any number of updates the row is the first one with all patches merged. -/
theorem find?_of_updates {id : Id .product} {before after : Memory}
    {patches : List ProductPatch} (h : Updates id before patches after) :
    ∀ (moves : List Move) (row : Product), (run moves).memory = before →
      before.committed.tables.find? id = some row → ∃ stamp,
        after.committed.tables.find? id =
          some (restamped ((ProductPatch.mergeAll patches).apply row) stamp) := by
  induction h with
  | none memory =>
      intro moves row _ hrow
      exact ⟨row.lifecycle.updatedOn, by rw [hrow, ProductPatch.apply_mergeAll]; rfl⟩
  | @more before middle after limit patch result rest h _ ih =>
      rintro moves row rfl hrow
      obtain ⟨moment, hpatched⟩ := find?_of_perform hrow h
      obtain ⟨steps, hsteps⟩ := exists_turn moves 0 limit (.updateProduct id patch)
      rw [h] at hsteps
      obtain ⟨stamp, hlast⟩ := ih _ _ hsteps hpatched
      refine ⟨stamp, ?_⟩
      rw [hlast, apply_restamped, ProductPatch.apply_mergeAll, ProductPatch.apply_mergeAll]
      rfl

/-- **Patches accumulate.**  Two patches in turn are their merge, so a patch that is repeated
makes no further difference and patches for different fields can change places.  A patch
leaves the core of a variant alone, and the empty one is the only one that leaves everything
alone.  In a store, the row of a variant after some updates in turn is the row that it had
with their patches merged, but for the moment of its last edit. -/
theorem updates_accumulate :
    (∀ (first second : ProductPatch) (product : Product),
      second.apply (first.apply product) = (first.merge second).apply product ∧
      first.apply (first.apply product) = first.apply product ∧
      (first.Apart second →
        second.apply (first.apply product) = first.apply (second.apply product)) ∧
      (first.apply product).SameCore product) ∧
    (∀ patch : ProductPatch, patch.isEmpty ↔ ∀ product, patch.apply product = product) ∧
    ∀ (moves : List Move) (id : Id .product) (patches : List ProductPatch) (original : Product)
      (after : Memory), (run moves).memory.committed.tables.find? id = some original →
        Updates id (run moves).memory patches after →
          ∃ stamp, after.committed.tables.find? id =
            some (restamped ((ProductPatch.mergeAll patches).apply original) stamp) := by
  refine ⟨fun first second product => ⟨?merge, ?idempotent, fun hapart => ?commute, ?core⟩,
    ProductPatch.isEmpty_iff, fun moves id patches original after horiginal hupdates =>
      find?_of_updates hupdates moves original rfl horiginal⟩
  case merge => exact (first.apply_merge second product).symm
  case idempotent => rw [← ProductPatch.apply_merge, ProductPatch.merge_self]
  case commute =>
    rw [← ProductPatch.apply_merge, ← ProductPatch.apply_merge, hapart.merge_comm]
  case core => exact ⟨rfl, rfl, rfl, rfl, rfl, rfl⟩

/-- A mug is raised in price and then renamed: both edits are on it, and they could as well
have been made in the other order. -/
theorem updates_accumulate_mug :
    (∀ product : Product,
      retitle.apply (raise.apply product) = raise.apply (retitle.apply product)) ∧
    ∃ original after row,
      (run mugMoves).memory.committed.tables.find? (⟨1⟩ : Id .product) = some original ∧
      Updates ⟨1⟩ (run mugMoves).memory [raise, retitle] after ∧
      after.committed.tables.find? (⟨1⟩ : Id .product) = some row ∧
      row.details.name = "Big Mug" ∧ row.details.price = 1200 := by
  obtain ⟨hpatches, -, hupdates⟩ := updates_accumulate
  have hapart : raise.Apart retitle := by
    constructor <;> decide
  have hsome : ((run mugMoves).memory.committed.tables.find? (⟨1⟩ : Id .product)).isSome := by
    decide +kernel
  obtain ⟨original, horiginal⟩ := Option.isSome_iff_exists.mp hsome
  have hraised : (store.perform none (.updateProduct ⟨1⟩ raise)
      (run mugMoves).memory).1.toOption.isSome := by decide +kernel
  have hretitled : (store.perform none (.updateProduct ⟨1⟩ retitle)
      (store.perform none (.updateProduct ⟨1⟩ raise)
        (run mugMoves).memory).2).1.toOption.isSome := by decide +kernel
  obtain ⟨first, hfirst⟩ := exists_ok_of_isSome hraised
  obtain ⟨second, hsecond⟩ := exists_ok_of_isSome hretitled
  have hboth := Updates.more hfirst (.more hsecond (.none _))
  obtain ⟨stamp, hrow⟩ := hupdates mugMoves ⟨1⟩ [raise, retitle] original _ horiginal hboth
  exact ⟨fun product => (hpatches raise retitle product).2.2.1 hapart, original, _, _, horiginal,
    hboth, hrow, rfl, rfl⟩

end Memory.System

end VariantCatalog
