/-
# The later update wins the row

An update reads the row of its variant from its snapshot, applies its patch to it, and
writes the whole row back.  A commit does not look at what others have made of the row
since, unless they have archived it.  So the row that is committed with an update is the
row that the update began on with its patch on it, and nothing else.

Of two updates that begin on one state, the one that commits last therefore undoes what
the other has done to all fields that it does not name itself: both of them succeed, but
the variant comes out as if only the last one had been made.
-/

import VariantCatalog.Proofs.Interleaving.Growth

namespace VariantCatalog

open Memory

/-! ## Patches one after the other -/

/-- Two variants agree in all that a patch can change. -/
def Product.Agrees (first second : Product) : Prop :=
  first.details = second.details ∧ first.availableOn = second.availableOn

/-- Two patches have no field in common. -/
structure ProductPatch.Apart (first second : ProductPatch) : Prop where
  name : first.name = none ∨ second.name = none
  subtitle : first.subtitle = none ∨ second.subtitle = none
  description : first.description = none ∨ second.description = none
  upc : first.upc = none ∨ second.upc = none
  manufacturer : first.manufacturer = none ∨ second.manufacturer = none
  brand : first.brand = none ∨ second.brand = none
  quantity : first.quantity = none ∨ second.quantity = none
  quantityPerPackage : first.quantityPerPackage = none ∨ second.quantityPerPackage = none
  taxable : first.taxable = none ∨ second.taxable = none
  price : first.price = none ∨ second.price = none
  onSale : first.onSale = none ∨ second.onSale = none
  salePrice : first.salePrice = none ∨ second.salePrice = none
  cost : first.cost = none ∨ second.cost = none
  productDimensions : first.productDimensions = none ∨ second.productDimensions = none
  packageDimensions : first.packageDimensions = none ∨ second.packageDimensions = none
  availableOn : first.availableOn = none ∨ second.availableOn = none

namespace ProductPatch

variable {first second : ProductPatch} {α : Type}

theorem getD_eq_of_apart {mine theirs : Option α} {old : α} (h : mine = none ∨ theirs = none)
    (heq : theirs.getD (mine.getD old) = theirs.getD old) : mine.getD old = old := by
  rcases h with rfl | rfl
  · rfl
  · exact heq

theorem or_eq_of_apart {mine theirs old : Option α} (h : mine = none ∨ theirs = none)
    (heq : theirs.or (mine.or old) = theirs.or old) : mine.or old = old := by
  rcases h with rfl | rfl
  · exact Option.none_or
  · simpa only [Option.none_or] using heq

/-- A patch that makes no difference below another one with which it has no field in common
makes no difference at all. -/
theorem Apart.details_eq (h : first.Apart second) {old : ProductDetails}
    (heq : second.details (first.details old) = second.details old) :
    first.details old = old := by
  simp only [details, ProductDetails.mk.injEq] at heq
  obtain ⟨hname, hsubtitle, hdescription, hupc, hmanufacturer, hbrand, hquantity, hpackage,
    htaxable, hprice, honSale, hsalePrice, hcost, hdimensions, hpackageDimensions⟩ := heq
  cases old
  simp only [details, ProductDetails.mk.injEq]
  exact ⟨getD_eq_of_apart h.name hname, or_eq_of_apart h.subtitle hsubtitle,
    getD_eq_of_apart h.description hdescription, or_eq_of_apart h.upc hupc,
    or_eq_of_apart h.manufacturer hmanufacturer, or_eq_of_apart h.brand hbrand,
    getD_eq_of_apart h.quantity hquantity, getD_eq_of_apart h.quantityPerPackage hpackage,
    getD_eq_of_apart h.taxable htaxable, getD_eq_of_apart h.price hprice,
    getD_eq_of_apart h.onSale honSale, or_eq_of_apart h.salePrice hsalePrice,
    getD_eq_of_apart h.cost hcost, getD_eq_of_apart h.productDimensions hdimensions,
    getD_eq_of_apart h.packageDimensions hpackageDimensions⟩

theorem Apart.agrees_iff (h : first.Apart second) (product : Product) :
    (second.apply product).Agrees (second.apply (first.apply product)) ↔
      (first.apply product).Agrees product := by
  constructor
  · rintro ⟨hdetails, havailable⟩
    exact ⟨h.details_eq hdetails.symm, getD_eq_of_apart h.availableOn havailable.symm⟩
  · rintro ⟨hdetails, havailable⟩
    exact ⟨congrArg second.details hdetails.symm,
      congrArg second.availableOn.getD havailable.symm⟩

end ProductPatch

namespace Memory.System

open Operation

/-! ## Updates at the same time -/

/-- A merge of a transaction that has written over one row puts this row there. -/
theorem find?_of_revises {origin : Tables} {kind : EntityKind} {old new : kind.Row}
    {tx : Transaction} {before after : Committed} (h : Revises origin kind old new tx)
    (hmerge : before.merge tx = .ok after) : after.tables.find? (Row.id new) = some new := by
  obtain ⟨_, _, rfl⟩ := Committed.merge_eq_ok.mp hmerge
  rw [h.transaction]
  apply Committed.find?_overlay_of_mem
  · exact Transaction.mem_keys_write.mpr (.inr rfl)
  · exact Transaction.find?_write_self _ new .updated

/-- An update that succeeds commits the row that it began on with its patch on it, whatever
others have made of the row since. -/
theorem live?_of_update {moves : List Move} {name : Nat} {origin : Tables}
    {id : Id .product} {patch : ProductPatch} {result : Product}
    (h : (run moves).Completes name origin (.updateProduct id patch) result) :
    ∃ (original : Product) (moment : Calendar.Moment), origin.live? id = some original ∧
      (run (moves ++ [.advance name])).memory.committed.tables.live? id =
        some (patched patch original moment) := by
  obtain ⟨tx, committed, hclient, hmerge, hcommitted⟩ := h.merged rfl
  have heffect : Patches origin id patch result tx := (keeps_run moves hclient).2
  obtain ⟨original, moment, rfl, hrevises, _⟩ := heffect
  refine ⟨original, moment, hrevises.live, ?_⟩
  rw [run_append, hcommitted, Tables.live?_eq_some]
  exact ⟨find?_of_revises hrevises hmerge, (Tables.live?_eq_some.mp hrevises.live).2⟩

/-- **The later update wins the row.** Of two updates that begin on one committed state
the first to commit has its patch on the variant.  When the second one has committed, the
variant is as if there had been no other: it agrees with both patches in turn just if the
first one makes no difference below the second. If they have no field in common, this is
to say that the first patch was to change nothing. -/
theorem update_wins (moves more between : List Move) (first second : Nat) (id : Id .product)
    (mine theirs : ProductPatch) (original firstResult secondResult : Product)
    (horiginal : (run moves).memory.committed.tables.live? id = some original)
    (hfirst : (run (moves ++ more)).Completes first (run moves).memory.committed.tables
      (.updateProduct id mine) firstResult)
    (hsecond : (run (moves ++ more ++ [.advance first] ++ between)).Completes second
      (run moves).memory.committed.tables (.updateProduct id theirs) secondResult) :
    (∃ row : Product,
      (run (moves ++ more ++ [.advance first])).memory.committed.tables.live? id = some row ∧
        row.Agrees (mine.apply original)) ∧
    ∃ row : Product,
      (run (moves ++ more ++ [.advance first] ++ between ++
          [.advance second])).memory.committed.tables.live? id = some row ∧
        row.Agrees (theirs.apply original) ∧
        (row.Agrees (theirs.apply (mine.apply original)) ↔
          (theirs.apply original).Agrees (theirs.apply (mine.apply original))) ∧
        (mine.Apart theirs →
          (row.Agrees (theirs.apply (mine.apply original)) ↔
            (mine.apply original).Agrees original)) := by
  have hwrites : ∀ {name : Nat} {patch : ProductPatch} {result : Product} {done : List Move},
      (run done).Completes name (run moves).memory.committed.tables (.updateProduct id patch)
        result →
      ∃ moment, (run (done ++ [.advance name])).memory.committed.tables.live? id =
        some (patched patch original moment) := by
    intro name patch result done hcompletes
    obtain ⟨found, moment, hfound, hrow⟩ := live?_of_update hcompletes
    rw [horiginal] at hfound
    cases hfound
    exact ⟨moment, hrow⟩
  obtain ⟨firstMoment, hfirstRow⟩ := hwrites hfirst
  obtain ⟨secondMoment, hsecondRow⟩ := hwrites hsecond
  exact ⟨⟨_, hfirstRow, rfl, rfl⟩, _, hsecondRow, ⟨rfl, rfl⟩, Iff.rfl,
    fun hapart => hapart.agrees_iff original⟩

/-! ## An update that is lost -/

/-- A mug, in one variant. -/
def mug : Creation where
  product := { shirt.product with sku := "mug" }
  options := []

/-- The price of the mug goes up. -/
def raise : ProductPatch := { ProductPatch.empty with price := some 1200 }

/-- The mug gets another name. -/
def retitle : ProductPatch := { ProductPatch.empty with name := some "Big Mug" }

/-- The mug is created. -/
def mugMoves : List Move := .enter 0 none (.commit mug) :: List.replicate 6 (.advance 0)

/-- Then both edits set out on it, and both come up to the last move of their commit. -/
def mugEdits : List Move :=
  [.enter 1 none (.updateProduct ⟨1⟩ raise), .enter 2 none (.updateProduct ⟨1⟩ retitle)] ++
    List.replicate 3 (.advance 1) ++ List.replicate 3 (.advance 2)

theorem completes_mugEdits :
    (∃ result, (run (mugMoves ++ mugEdits)).Completes 1 (run mugMoves).memory.committed.tables
      (.updateProduct ⟨1⟩ raise) result) ∧
    ∃ result, (run (mugMoves ++ mugEdits ++ [.advance 1] ++ [])).Completes 2
      (run mugMoves).memory.committed.tables (.updateProduct ⟨1⟩ retitle) result := by
  constructor
  · apply exists_completes
    · exact serving_run mugMoves mugEdits.tail 1 none _ (by decide)
    · decide +kernel
    · decide +kernel
  · apply exists_completes
    · exact serving_run (mugMoves ++ mugEdits.take 1) (mugEdits.drop 2 ++ [.advance 1]) 2 none _
        (by decide)
    · decide +kernel
    · decide +kernel

theorem update_wins_mug :
    ∃ original row : Product,
      (run mugMoves).memory.committed.tables.live? (⟨1⟩ : Id .product) = some original ∧
        (run (mugMoves ++ mugEdits ++ [.advance 1] ++ [] ++
          [.advance 2])).memory.committed.tables.live? (⟨1⟩ : Id .product) = some row ∧
        row.Agrees (retitle.apply original) := by
  have hsome : ((run mugMoves).memory.committed.tables.live? (⟨1⟩ : Id .product)).isSome := by
    decide +kernel
  obtain ⟨original, horiginal⟩ := Option.isSome_iff_exists.mp hsome
  obtain ⟨⟨firstResult, hfirst⟩, secondResult, hsecond⟩ := completes_mugEdits
  obtain ⟨_, row, hrow, hagrees, _⟩ := update_wins mugMoves mugEdits [] 1 2 ⟨1⟩ raise retitle
    original firstResult secondResult horiginal hfirst hsecond
  exact ⟨original, row, horiginal, hrow, hagrees⟩

/-- Both edits of the mug succeed, and the new price is gone. -/
theorem raise_lost_mug :
    ∃ original row firstResult secondResult : Product,
      (run mugMoves).memory.committed.tables.live? (⟨1⟩ : Id .product) = some original ∧
      (run (mugMoves ++ mugEdits)).Completes 1 (run mugMoves).memory.committed.tables
        (.updateProduct ⟨1⟩ raise) firstResult ∧
      (run (mugMoves ++ mugEdits ++ [.advance 1] ++ [])).Completes 2
        (run mugMoves).memory.committed.tables (.updateProduct ⟨1⟩ retitle) secondResult ∧
      (run (mugMoves ++ mugEdits ++ [.advance 1] ++ [] ++
        [.advance 2])).memory.committed.tables.live? (⟨1⟩ : Id .product) = some row ∧
      row.details.name = "Big Mug" ∧ row.details.price = 990 ∧
      ¬ row.Agrees (retitle.apply (raise.apply original)) := by
  have hfirstSome : ((run mugMoves).memory.committed.tables.live?
      (⟨1⟩ : Id .product)).isSome := by decide +kernel
  have hlast : ((run (mugMoves ++ mugEdits ++ [.advance 1] ++ [] ++
      [.advance 2])).memory.committed.tables.live? (⟨1⟩ : Id .product)).map
        (fun row => ((row : Product).details.name, (row : Product).details.price)) =
          some ("Big Mug", 990) := by decide +kernel
  obtain ⟨original, horiginal⟩ := Option.isSome_iff_exists.mp hfirstSome
  obtain ⟨row, hrow, heq⟩ := Option.map_eq_some_iff.mp hlast
  obtain ⟨hname, hprice⟩ := Prod.mk.inj heq
  obtain ⟨⟨firstResult, hfirst⟩, secondResult, hsecond⟩ := completes_mugEdits
  refine ⟨original, row, firstResult, secondResult, horiginal, hfirst, hsecond, hrow, hname,
    hprice, fun hagrees => ?_⟩
  have hraised : row.details.price = 1200 := congrArg ProductDetails.price hagrees.1
  rw [hprice] at hraised
  cases hraised

end Memory.System

end VariantCatalog
