/-
# Combinations of option values

A combination chooses one value of each option.  `Combination.all` is the whole
product of the options in the order of an odometer, the last option turning
fastest; `Combinations` walks the same product one combination at a time, without
ever holding more than the positions of its wheels.  Whatever is done for each
combination is done along the walk (`Combinations.mapM`), which ends because every
turn of the wheels leaves less ahead of them.
-/

import VariantCatalog.Expansion.Count
import VariantCatalog.Expansion.Naming
import VariantCatalog.Request.Creation

namespace VariantCatalog.Expansion

/-- A value chosen for an option. -/
structure Selection where
  option : ProductOption
  value : OptionValue
  deriving DecidableEq

/-- One selection for each option, in the order of the options. -/
abbrev Combination := List Selection

namespace Combination

/-- The identifiers of the chosen values. -/
def valueIds (combination : Combination) : List (Id .value) :=
  combination.map (·.value.id)

/-- The chosen values. -/
def values (combination : Combination) : List OptionValue :=
  combination.map (·.value)

/-- What the combination contributes to the names of its variant. -/
def naming (combination : Combination) : VariantNaming :=
  .ofPairs (combination.map fun selection => (selection.option.name, selection.value.value))

/-- Every combination of the values of some options, the last option turning
fastest. No options leave nothing to choose: the one combination is empty. -/
def all : List ProductOption → List Combination
  | [] => [[]]
  | option :: rest =>
    option.values.flatMap fun value => (all rest).map (⟨option, value⟩ :: ·)

end Combination

/-! ## The odometer -/

/-- Turn the last wheel by one, each wheel that has turned full circle starting
over and turning the wheel before it. Nothing is left when the first wheel has
turned full circle. -/
def advance : (sizes positions : List Nat) → Option (List Nat)
  | size :: sizes, position :: positions =>
    match advance sizes positions with
    | some positions => some (position :: positions)
    | none =>
      if position + 1 < size then some ((position + 1) :: positions.map fun _ => 0) else none
  | _, _ => none

/-- More than what is ahead of wheels of the given sizes wherever they stand. -/
def circle : (sizes : List Nat) → Nat
  | [] => 1
  | size :: sizes => size * circle sizes + circle sizes

/-- What is ahead of wheels at some positions: each position that a wheel has left
counts for a whole circle of the wheels behind it. -/
def ahead : (sizes positions : List Nat) → Nat
  | size :: sizes, position :: positions =>
    (size - position) * circle sizes + ahead sizes positions
  | _, _ => 0

theorem ahead_restart (sizes positions : List Nat) :
    ahead sizes (positions.map fun _ => 0) < circle sizes := by
  induction sizes generalizing positions with
  | nil =>
      rw [ahead, circle]
      · exact Nat.one_pos
      · exact nofun
  | cons size sizes ih =>
      cases positions with
      | nil =>
          have hpos := ih []
          rw [List.map_nil, circle, ahead]
          · omega
          · exact nofun
      | cons position positions =>
          rw [List.map_cons, ahead, circle, Nat.sub_zero]
          exact Nat.add_lt_add_left (ih positions) _

/-- A turn of the wheels leaves less ahead of them. -/
theorem ahead_advance {sizes positions next : List Nat} (h : advance sizes positions = some next) :
    ahead sizes next < ahead sizes positions := by
  induction sizes generalizing positions next with
  | nil => cases h
  | cons size sizes ih =>
      cases positions with
      | nil => cases h
      | cons position positions =>
          rw [advance] at h
          cases hbehind : advance sizes positions with
          | some turned =>
              rw [hbehind] at h
              obtain rfl := Option.some.inj h
              rw [ahead, ahead]
              exact Nat.add_lt_add_left (ih hbehind) _
          | none =>
              rw [hbehind] at h
              by_cases hlt : position + 1 < size
              · obtain rfl := Option.some.inj ((if_pos hlt).symm.trans h)
                have hleft : size - position = size - (position + 1) + 1 := by omega
                have hrestart := ahead_restart sizes positions
                rw [ahead, ahead, hleft, Nat.succ_mul]
                omega
              · cases (if_neg hlt).symm.trans h

/-- The selections at some positions of the wheels. -/
def select (options : List ProductOption) (positions : List Nat) : Combination :=
  (options.zip positions).filterMap fun (option, position) =>
    option.values[position]?.map (⟨option, ·⟩)

/-- A walk through the combinations of some options: the positions of the next
combination, unless all were passed, and the number of combinations to come, if
it is a count. -/
structure Combinations where
  options : List ProductOption
  positions : Option (List Nat)
  remaining : Option Nat
  deriving DecidableEq

namespace Combinations

/-- The walk before its first combination. No options have no combination at all,
and an option without values is rejected. -/
def ofOptions (options : List ProductOption) : Except Flaw Combinations :=
  match options.find? (·.values.isEmpty) with
  | some option => .error (.optionWithoutValues option.name)
  | none =>
    .ok {
      options
      positions := if options.isEmpty then none else some (options.map fun _ => 0)
      remaining := combinationCount? (options.map (·.values.length)) }

/-- The next combination and the walk behind it. -/
def next? (walk : Combinations) : Option (Combination × Combinations) :=
  match walk.positions with
  | none => none
  | some positions =>
    some (select walk.options positions,
      { walk with
        positions := advance (walk.options.map (·.values.length)) positions
        remaining := walk.remaining.map (· - 1) })

/-- Bounds on the number of combinations to come. A number that is no count is
bounded below by the greatest count, whatever has been passed. -/
def sizeHint (walk : Combinations) : Nat × Option Nat :=
  match walk.remaining with
  | some remaining => (remaining, some remaining)
  | none => (countBound - 1, none)

/-- The first combinations of a walk, at most `most` of them, each with the walk
behind it. -/
def take : Nat → Combinations → List (Combination × Combinations)
  | 0, _ => []
  | most + 1, walk =>
    match walk.next? with
    | none => []
    | some (combination, rest) => (combination, rest) :: take most rest

/-- What is ahead of a walk. -/
def ahead (walk : Combinations) : Nat :=
  match walk.positions with
  | none => 0
  | some positions => Expansion.ahead (walk.options.map (·.values.length)) positions + 1

/-- A walk that gives a combination has less ahead of it. -/
theorem ahead_next? {walk rest : Combinations} {combination : Combination}
    (h : walk.next? = some (combination, rest)) : rest.ahead < walk.ahead := by
  rw [next?] at h
  rw [ahead.eq_def walk]
  cases hpositions : walk.positions with
  | none =>
      rw [hpositions] at h
      cases h
  | some positions =>
      rw [hpositions] at h
      cases h
      simp only [ahead]
      cases hadvance : advance (walk.options.map (·.values.length)) positions with
      | none => exact Nat.succ_pos _
      | some next => exact Nat.succ_lt_succ (ahead_advance hadvance)

section Loop

variable {m : Type → Type} [Monad m] {α : Type} {f : Combination → m α} {made : List α}
  {walk rest : Combinations} {combination : Combination}

/-- Do something for each combination to come, behind what was made before, the
latest first. -/
def mapFrom (f : Combination → m α) (made : List α) (walk : Combinations) : m (List α) :=
  match h : walk.next? with
  | none => return made.reverse
  | some (combination, rest) => do
    have := ahead_next? h
    let result ← f combination
    mapFrom f (result :: made) rest
termination_by walk.ahead

theorem mapFrom_of_none (h : walk.next? = none) : walk.mapFrom f made = pure made.reverse := by
  rw [mapFrom]
  split
  · rfl
  · next hsome =>
    rw [h] at hsome
    cases hsome

theorem mapFrom_of_some (h : walk.next? = some (combination, rest)) :
    walk.mapFrom f made = f combination >>= fun result => rest.mapFrom f (result :: made) := by
  rw [mapFrom]
  split
  · next hnone =>
    rw [h] at hnone
    cases hnone
  · next hsome =>
    rw [h] at hsome
    cases hsome
    rfl

/-- Do something for each combination of a walk. -/
def mapM (f : Combination → m α) (walk : Combinations) : m (List α) := walk.mapFrom f []

end Loop

end Combinations

/-! ## The variants of a product -/

/-- The variant of a product with the given names. Its details are those of the
draft, except that a package holds at least one unit, and it is available when
its root is. -/
def variant (root : ProductRoot) (draft : ProductDraft) (sku optionSummary : String) :
    NewProduct where
  root := root.id
  optionSummary
  sku
  details := { draft.details with quantityPerPackage := draft.packageQuantity }
  availableOn := some root.availableOn

/-- The only variant of a product without options: its SKU is the prefix itself. -/
def baseVariant (root : ProductRoot) (draft : ProductDraft) : NewProduct :=
  variant root draft root.skuPrefix ""

/-- The variant for a combination of values. -/
def combinationVariant (root : ProductRoot) (draft : ProductDraft) (combination : Combination) :
    NewProduct :=
  variant root draft (combination.naming.sku root.skuPrefix) combination.naming.summary

/-- The variants of a product with the given options. -/
def variants (root : ProductRoot) (draft : ProductDraft) (options : List ProductOption) :
    Except Flaw (List NewProduct) :=
  if options.isEmpty then .ok [baseVariant root draft]
  else do
    let walk ← Combinations.ofOptions options
    walk.mapM fun combination => return combinationVariant root draft combination

end VariantCatalog.Expansion
