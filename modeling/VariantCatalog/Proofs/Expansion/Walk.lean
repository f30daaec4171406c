/-
# The walk through all combinations

`Combinations` keeps the positions of its wheels and turns them by one with each call.  It
never computes where they are in the whole, but it could: after some number of calls they
stand where `wheels` says, and what is left to come is what is left of the product.  With
that, each combination comes once and in its place, and the walk ends when all have come
and stays at its end (`ofOptions_walksThrough`).  So what is done along the walk is what is
done for each combination in turn (`mapM_of_ofOptions`).
-/

import VariantCatalog.Proofs.Expansion.Odometer
import Mathlib.Algebra.Order.BigOperators.GroupWithZero.List
import Mathlib.Algebra.Order.Ring.Nat
import Mathlib.Data.List.Forall2

namespace VariantCatalog.Expansion

/-! ## Where the wheels stand -/

section Wheels

variable {sizes : List Nat}

/-- The position of a wheel is a digit of the number of turns. -/
theorem getElem?_wheels (sizes : List Nat) (turns place : Nat) :
    (wheels sizes turns)[place]? =
      sizes[place]?.map fun size => turns / (sizes.drop (place + 1)).prod % size := by
  induction sizes generalizing place with
  | nil => rfl
  | cons size rest ih =>
      cases place with
      | zero => rfl
      | succ place => exact ih place

theorem wheels_zero (sizes : List Nat) : wheels sizes 0 = sizes.map fun _ => 0 := by
  induction sizes with
  | nil => rfl
  | cons size rest ih => rw [wheels, ih, Nat.zero_div, Nat.zero_mod, List.map_cons]

theorem map_zero_wheels (sizes : List Nat) (turns : Nat) :
    (wheels sizes turns).map (fun _ => 0) = wheels sizes 0 := by
  induction sizes with
  | nil => rfl
  | cons size rest ih => rw [wheels, wheels, List.map_cons, ih, Nat.zero_div, Nat.zero_mod]

/-- No wheel stands at a position that it does not have. -/
theorem forall₂_wheels (hsizes : ∀ size ∈ sizes, 0 < size) (turns : Nat) :
    List.Forall₂ (· < ·) (wheels sizes turns) sizes := by
  induction sizes with
  | nil => exact .nil
  | cons size rest ih =>
      obtain ⟨hsize, hrest⟩ := List.forall_mem_cons.mp hsizes
      exact .cons (Nat.mod_lt _ hsize) (ih hrest)

/-- Whatever the positions of the wheels, some number of turns leads there. -/
theorem exists_turns {positions : List Nat} (h : List.Forall₂ (· < ·) positions sizes) :
    ∃ turns < sizes.prod, wheels sizes turns = positions := by
  induction h with
  | nil => exact ⟨0, Nat.zero_lt_one, rfl⟩
  | @cons position size positions rest hposition _ ih =>
      obtain ⟨turns, hturns, rfl⟩ := ih
      refine ⟨rest.prod * position + turns, ?_, ?_⟩
      · have hcount : rest.prod * position + rest.prod ≤ rest.prod * size :=
          Nat.mul_le_mul_left rest.prod hposition
        rw [List.prod_cons, Nat.mul_comm size]
        omega
      · rw [wheels, wheels_prod_mul_add, Nat.mul_add_div (Nat.zero_lt_of_lt hturns),
          Nat.div_eq_of_lt hturns, Nat.add_zero, Nat.mod_eq_of_lt hposition]

theorem wheels_mod (sizes : List Nat) (turns : Nat) :
    wheels sizes (turns % sizes.prod) = wheels sizes turns := by
  have h := wheels_prod_mul_add sizes (turns / sizes.prod) (turns % sizes.prod)
  rw [Nat.div_add_mod] at h
  exact h.symm

/-- As long as the first wheel does not turn full circle, the positions ascend. -/
theorem wheels_lt_wheels {earlier later : Nat} (hlt : earlier < later)
    (hlater : later < sizes.prod) : wheels sizes earlier < wheels sizes later := by
  induction sizes generalizing earlier later with
  | nil =>
      rw [List.prod_nil] at hlater
      omega
  | cons size rest ih =>
      have hprod : 0 < rest.prod := by
        apply Nat.pos_of_ne_zero
        intro hzero
        rw [List.prod_cons, hzero] at hlater
        omega
      rw [List.prod_cons] at hlater
      have hfirst : later / rest.prod < size := Nat.div_lt_of_lt_mul (Nat.mul_comm size _ ▸ hlater)
      have hle : earlier / rest.prod ≤ later / rest.prod := Nat.div_le_div_right hlt.le
      rw [wheels, wheels, List.cons_lt_cons_iff, Nat.mod_eq_of_lt hfirst,
        Nat.mod_eq_of_lt (Nat.lt_of_le_of_lt hle hfirst)]
      rcases Nat.lt_or_eq_of_le hle with hless | heq
      · exact .inl hless
      · refine .inr ⟨heq, ?_⟩
        rw [← wheels_mod rest earlier, ← wheels_mod rest later]
        apply ih _ (Nat.mod_lt _ hprod)
        have hearlier := Nat.div_add_mod earlier rest.prod
        have hsame := Nat.div_add_mod later rest.prod
        rw [heq] at hearlier
        omega

/-- To turn the last wheel by one, with what it carries, is to go on to the next number of
turns, and nothing is left when the first wheel has turned full circle. -/
theorem advance_wheels (hsizes : ∀ size ∈ sizes, 0 < size) (turns : Nat) :
    advance sizes (wheels sizes turns) =
      if turns % sizes.prod + 1 < sizes.prod then some (wheels sizes (turns + 1)) else none := by
  induction sizes with
  | nil =>
      rw [List.prod_nil, Nat.mod_one]
      rfl
  | cons size rest ih =>
      obtain ⟨hsize, hrest⟩ := List.forall_mem_cons.mp hsizes
      have hprod : 0 < rest.prod := List.prod_pos hrest
      have hposition : turns / rest.prod % size < size := Nat.mod_lt _ hsize
      have hlast : turns % rest.prod < rest.prod := Nat.mod_lt _ hprod
      have hturns : rest.prod * (turns / rest.prod) + turns % rest.prod = turns :=
        Nat.div_add_mod turns rest.prod
      rw [wheels, advance, ih hrest, List.prod_cons, Nat.mul_comm size, Nat.mod_mul]
      by_cases hinner : turns % rest.prod + 1 < rest.prod
      · -- The wheels behind have a next position, and this one stays where it is.
        have hstays : (turns + 1) / rest.prod = turns / rest.prod := by
          conv_lhs => rw [← hturns]
          rw [Nat.add_assoc, Nat.mul_add_div hprod, Nat.div_eq_of_lt hinner, Nat.add_zero]
        have hcount : rest.prod * (turns / rest.prod % size) + rest.prod ≤ rest.prod * size :=
          Nat.mul_le_mul_left rest.prod hposition
        have hnext : turns % rest.prod + rest.prod * (turns / rest.prod % size) + 1 <
            rest.prod * size := by omega
        rw [if_pos hinner, if_pos hnext, wheels, hstays]
      · -- They have turned full circle, and it depends on this one whether there is a next.
        have hcarry : turns + 1 = rest.prod * (turns / rest.prod + 1) := by
          rw [Nat.mul_succ]
          omega
        have hcount : turns % rest.prod + rest.prod * (turns / rest.prod % size) + 1 =
            rest.prod * (turns / rest.prod % size + 1) := by
          rw [Nat.mul_succ]
          omega
        have hstart := wheels_prod_mul_add rest (turns / rest.prod + 1) 0
        rw [Nat.add_zero] at hstart
        rw [if_neg hinner, hcount, hcarry, wheels, hstart, Nat.mul_div_cancel_left _ hprod,
          map_zero_wheels]
        simp only [Nat.mul_lt_mul_left hprod]
        split
        · next hnext => rw [← Nat.mod_add_mod, Nat.mod_eq_of_lt hnext]
        · rfl

end Wheels

/-- Positions that the options have choose a value of each. -/
theorem getElem?_select {options : List ProductOption} {positions : List Nat}
    (h : List.Forall₂ (· < ·) positions (sizes options)) {place : Nat} {option : ProductOption}
    {position : Nat} (hoption : options[place]? = some option)
    (hposition : positions[place]? = some position) :
    ∃ value, option.values[position]? = some value ∧
      (select options positions)[place]? = some ⟨option, value⟩ := by
  induction options generalizing positions place with
  | nil => cases hoption
  | cons first rest ih =>
      rw [sizes, List.map_cons] at h
      obtain ⟨start, others, hstart, hothers, rfl⟩ := List.forall₂_cons_right_iff.mp h
      have hfirst := List.getElem?_eq_getElem hstart
      rw [select_cons_of_getElem? hfirst]
      cases place with
      | zero =>
          cases hoption
          cases hposition
          exact ⟨_, hfirst, rfl⟩
      | succ place => exact ih hothers hoption hposition

/-! ## How many are to come -/

/-- A product of positive factors is a count if the whole of it is one. -/
theorem foldlM_multiply? {counts : List Nat} (hcounts : ∀ count ∈ counts, 0 < count)
    (first : Nat) (hfirst : 0 < first ∧ first < countBound) :
    counts.foldlM multiply? first =
      if first * counts.prod < countBound then some (first * counts.prod) else none := by
  induction counts generalizing first with
  | nil =>
      rw [List.prod_nil, Nat.mul_one, if_pos hfirst.2]
      rfl
  | cons count rest ih =>
      obtain ⟨hcount, hrest⟩ := List.forall_mem_cons.mp hcounts
      have hassoc : first * (count :: rest).prod = first * count * rest.prod := by
        rw [List.prod_cons, Nat.mul_assoc]
      rw [List.foldlM_cons, multiply?, hassoc]
      by_cases hlt : first * count < countBound
      · rw [if_pos hlt]
        exact ih hrest (first * count) ⟨Nat.mul_pos hfirst.1 hcount, hlt⟩
      · have hle : first * count ≤ first * count * rest.prod :=
          Nat.le_mul_of_pos_right _ (List.prod_pos hrest)
        rw [if_neg hlt, if_neg (by omega)]
        rfl

namespace Combinations

/-- The number of combinations of some options. No options have none. -/
def total (options : List ProductOption) : Nat :=
  if options.isEmpty then 0 else (sizes options).prod

theorem total_of_lt {options : List ProductOption} {passed : Nat} (h : passed < total options) :
    total options = (sizes options).prod := by
  rw [total] at h ⊢
  split at h
  · exact absurd h (Nat.not_lt_zero _)
  · next hcons => rw [if_neg hcons]

theorem combinationCount?_sizes {options : List ProductOption}
    (hvalues : ∀ option ∈ options, option.values ≠ []) :
    combinationCount? (sizes options) =
      if total options < countBound then some (total options) else none := by
  cases options with
  | nil => rfl
  | cons option rest =>
      have hsizes : ∀ size ∈ sizes (option :: rest), 0 < size := by
        intro size hsize
        obtain ⟨option, hoption, rfl⟩ := List.mem_map.mp hsize
        exact List.length_pos_iff.mpr (hvalues option hoption)
      have hcount := foldlM_multiply? hsizes 1 ⟨Nat.one_pos, by decide⟩
      rw [Nat.one_mul] at hcount
      exact hcount

/-! ## The walk -/

/-- The walk after some calls for the next combination. A walk that has come to its end
stays there. -/
def after (walk : Combinations) : Nat → Combinations
  | 0 => walk
  | calls + 1 =>
    match (walk.after calls).next? with
    | none => walk.after calls
    | some (_, rest) => rest

/-- Where the walk through the combinations of some options is when some have been passed. -/
def behind (options : List ProductOption) (passed : Nat) : Combinations where
  options
  positions := if passed < total options then some (wheels (sizes options) passed) else none
  remaining := (combinationCount? (sizes options)).map (· - passed)

section Passing

variable {options : List ProductOption} (hvalues : ∀ option ∈ options, option.values ≠ [])

include hvalues

theorem pos_of_mem_sizes : ∀ size ∈ sizes options, 0 < size := by
  intro size hsize
  obtain ⟨option, hoption, rfl⟩ := List.mem_map.mp hsize
  exact List.length_pos_iff.mpr (hvalues option hoption)

theorem ofOptions_eq_behind : ofOptions options = .ok (behind options 0) := by
  have hnone : options.find? (·.values.isEmpty) = none := by
    apply List.find?_eq_none.mpr
    exact fun option hoption hempty => hvalues option hoption (List.isEmpty_iff.mp hempty)
  rw [ofOptions, hnone]
  cases options with
  | nil => rfl
  | cons option rest =>
      have hpos : 0 < total (option :: rest) := List.prod_pos (pos_of_mem_sizes hvalues)
      have hstart : wheels (sizes (option :: rest)) 0 = (option :: rest).map fun _ => 0 := by
        rw [wheels_zero, sizes, List.map_map]
        rfl
      simp only [behind, if_pos hpos, hstart, Nat.sub_zero, Option.map_id']
      rfl

/-- One call goes from one combination to the next. -/
theorem next?_behind (passed : Nat) :
    (behind options passed).next? =
      if passed < total options then
        some (select options (wheels (sizes options) passed), behind options (passed + 1))
      else none := by
  by_cases hpassed : passed < total options
  · have hadvance := advance_wheels (pos_of_mem_sizes hvalues) passed
    rw [← total_of_lt hpassed, Nat.mod_eq_of_lt hpassed] at hadvance
    simp only [next?, behind, if_pos hpassed, Option.map_map]
    rw [← sizes, hadvance]
    rfl
  · simp only [next?, behind, if_neg hpassed]

/-- Behind the last combination, no more are counted down. -/
theorem behind_succ {passed : Nat} (h : total options ≤ passed) :
    behind options (passed + 1) = behind options passed := by
  rw [behind, behind, if_neg (Nat.not_lt_of_le (Nat.le_succ_of_le h)), if_neg (Nat.not_lt_of_le h),
    combinationCount?_sizes hvalues]
  split
  · have hnone : total options - (passed + 1) = total options - passed := by omega
    simp only [Option.map_some, hnone]
  · rfl

/-- What the walk keeps tells at any time how many combinations it has given. -/
theorem after_behind (calls : Nat) :
    (behind options 0).after calls = behind options calls := by
  induction calls with
  | zero => rfl
  | succ calls ih =>
      rw [after, ih, next?_behind hvalues]
      by_cases hcalls : calls < total options
      · rw [if_pos hcalls]
      · rw [if_neg hcalls]
        exact (behind_succ hvalues (Nat.le_of_not_lt hcalls)).symm

/-- The first combinations of what is left are those at the next numbers of turns. -/
theorem take_behind (most passed : Nat) :
    ((behind options passed).take most).map (·.1) =
      ((List.range' passed (total options - passed)).map fun turns =>
        select options (wheels (sizes options) turns)).take most := by
  induction most generalizing passed with
  | zero => rw [take, List.map_nil, List.take_zero]
  | succ most ih =>
      rw [take, next?_behind hvalues]
      by_cases hpassed : passed < total options
      · obtain ⟨left, hleft⟩ : ∃ left, total options - passed = left + 1 :=
          ⟨total options - passed - 1, by omega⟩
        have hrest : total options - (passed + 1) = left := by omega
        rw [if_pos hpassed, hleft, List.range'_succ, List.map_cons, List.map_cons,
          List.take_succ_cons, ih, hrest]
      · rw [if_neg hpassed, Nat.sub_eq_zero_of_le (Nat.le_of_not_lt hpassed)]
        rfl

end Passing

/-! ## All combinations -/

/-- A walk that goes through all combinations of some options: as often as there are
combinations it gives the one at the next number of turns, and then nothing more. -/
structure WalksThrough (walk : Combinations) (options : List ProductOption) : Prop where
  /-- As long as combinations are left, the next one is made of the values that the digits of
  its number choose, the last option having the lowest digit. -/
  next : ∀ turns < total options, ∃ combination,
    (walk.after turns).next? = some (combination, walk.after (turns + 1)) ∧
      combination.length = options.length ∧
      ∀ (place : Nat) (option : ProductOption), options[place]? = some option → ∃ value,
        option.values[turns / (sizes (options.drop (place + 1))).prod % option.values.length]? =
          some value ∧
        combination[place]? = some ⟨option, value⟩
  ends : ∀ calls, total options ≤ calls → (walk.after calls).next? = none
  /-- No position is looked up that an option does not have. -/
  within : ∀ calls positions, (walk.after calls).positions = some positions →
    List.Forall₂ (· < ·) positions (sizes options)
  /-- What comes later is greater in the lexicographic order, so nothing comes twice. -/
  ascends : ∀ later < total options, ∀ earlier < later, ∃ first second,
    (walk.after earlier).positions = some first ∧ (walk.after later).positions = some second ∧
      first < second
  /-- No choice of positions is left out. -/
  covers : options ≠ [] → ∀ positions, List.Forall₂ (· < ·) positions (sizes options) →
    ∃ calls < total options, (walk.after calls).positions = some positions
  whole : ∀ most, (walk.take most).map (·.1) =
    (if options.isEmpty then [] else Combination.all options).take most
  /-- The number of combinations to come is known before every call, if it is a count. -/
  sizeHint : total options < countBound → ∀ calls,
    (walk.after calls).sizeHint = (total options - calls, some (total options - calls))

theorem walksThrough_behind {options : List ProductOption}
    (hvalues : ∀ option ∈ options, option.values ≠ []) :
    (behind options 0).WalksThrough options where
  next turns hturns := by
    refine ⟨select options (wheels (sizes options) turns), ?_, ?_, ?_⟩
    · rw [after_behind hvalues, after_behind hvalues, next?_behind hvalues, if_pos hturns]
    · have hoptions := congrArg List.length (map_option_select options turns hvalues)
      rw [List.length_map] at hoptions
      exact hoptions
    · intro place option hoption
      apply getElem?_select (forall₂_wheels (pos_of_mem_sizes hvalues) turns) hoption
      rw [getElem?_wheels, sizes, List.getElem?_map, hoption, sizes, List.map_drop]
      rfl
  ends calls hcalls := by
    rw [after_behind hvalues, next?_behind hvalues, if_neg (Nat.not_lt_of_le hcalls)]
  within calls positions hpositions := by
    rw [after_behind hvalues, behind] at hpositions
    split at hpositions
    · cases hpositions
      exact forall₂_wheels (pos_of_mem_sizes hvalues) calls
    · cases hpositions
  ascends later hlater earlier hearlier := by
    rw [after_behind hvalues, after_behind hvalues, behind, behind, if_pos hlater,
      if_pos (Nat.lt_trans hearlier hlater)]
    exact ⟨_, _, rfl, rfl, wheels_lt_wheels hearlier (total_of_lt hlater ▸ hlater)⟩
  covers hcons positions hpositions := by
    obtain ⟨turns, hturns, rfl⟩ := exists_turns hpositions
    have htotal : total options = (sizes options).prod :=
      if_neg (mt List.isEmpty_iff.mp hcons)
    rw [← htotal] at hturns
    refine ⟨turns, hturns, ?_⟩
    rw [after_behind hvalues, behind, if_pos hturns]
  whole most := by
    rw [take_behind hvalues, Nat.sub_zero, ← List.range_eq_range', total]
    split
    · rfl
    · rw [all_eq_map_range]
  sizeHint hcount calls := by
    rw [after_behind hvalues, sizeHint, behind, combinationCount?_sizes hvalues, if_pos hcount]
    rfl

/-! ## Doing something for each -/

section Loop

variable {m : Type → Type} [Monad m] {α : Type}

/-- What is done along a walk is done for the combinations that the walk gives. -/
theorem mapFrom_of_take {combinations : List Combination} (f : Combination → m α) :
    ∀ {walk : Combinations} (made : List α),
      (∀ most, (walk.take most).map (·.1) = combinations.take most) →
      walk.mapFrom f made = List.mapM.loop f combinations made := by
  induction combinations with
  | nil =>
      intro walk made htake
      have hnone : walk.next? = none := by
        have hfirst := htake 1
        rw [take] at hfirst
        cases hnext : walk.next? with
        | none => rfl
        | some next =>
            rw [hnext] at hfirst
            cases hfirst
      rw [mapFrom_of_none hnone, List.mapM.loop]
  | cons combination combinations ih =>
      intro walk made htake
      obtain ⟨rest, hsome⟩ : ∃ rest, walk.next? = some (combination, rest) := by
        have hfirst := htake 1
        rw [take] at hfirst
        cases hnext : walk.next? with
        | none =>
            rw [hnext] at hfirst
            cases hfirst
        | some next =>
            rw [hnext] at hfirst
            cases hfirst
            exact ⟨next.2, rfl⟩
      have hrest : ∀ most, (rest.take most).map (·.1) = combinations.take most := by
        intro most
        have hall := htake (most + 1)
        rw [take, hsome] at hall
        exact (List.cons.inj hall).2
      rw [mapFrom_of_some hsome, List.mapM.loop]
      exact bind_congr fun result => ih (result :: made) hrest

/-- What is done along the walk through the combinations of some options is done for all of
them in their order. -/
theorem mapM_of_ofOptions {options : List ProductOption} {walk : Combinations}
    (h : ofOptions options = .ok walk) (hcons : options ≠ []) (f : Combination → m α) :
    walk.mapM f = (Combination.all options).mapM f := by
  have hvalues := values_ne_nil_of_ofOptions h
  rw [ofOptions_eq_behind hvalues] at h
  cases h
  have hwhole := (walksThrough_behind hvalues).whole
  rw [if_neg (mt List.isEmpty_iff.mp hcons)] at hwhole
  exact mapFrom_of_take f [] hwhole

end Loop

/-- **To enumerate the combinations of some options fails if and only if one of them has no
values**, and otherwise the walk goes through all combinations: each comes once and in its place,
and when all have come, the walk stays at its end. -/
theorem ofOptions_walksThrough (options : List ProductOption) :
    match ofOptions options with
    | .ok walk => (∀ option ∈ options, option.values ≠ []) ∧ walk.WalksThrough options
    | .error flaw => ∃ option ∈ options, option.values = [] ∧
        flaw = .optionWithoutValues option.name := by
  cases hwalk : ofOptions options with
  | ok walk =>
      have hvalues := values_ne_nil_of_ofOptions hwalk
      rw [ofOptions_eq_behind hvalues] at hwalk
      cases hwalk
      exact ⟨hvalues, walksThrough_behind hvalues⟩
  | error flaw =>
      rw [ofOptions] at hwalk
      split at hwalk
      · next option hfind =>
        cases hwalk
        exact ⟨option, List.mem_of_find?_eq_some hfind,
          List.isEmpty_iff.mp (List.find?_eq_some_iff_append.mp hfind).1, rfl⟩
      · cases hwalk

end Combinations

/-- The variants of a product are those of all combinations, in their order. -/
theorem variants_eq_ok (root : ProductRoot) (draft : ProductDraft) {options : List ProductOption}
    (hvalues : ∀ option ∈ options, option.values ≠ []) (hcons : options ≠ []) :
    variants root draft options =
      .ok ((Combination.all options).map (combinationVariant root draft)) := by
  obtain ⟨walk, hwalk⟩ := ofOptions_eq_ok hvalues
  rw [variants, if_neg (mt List.isEmpty_iff.mp hcons), hwalk]
  have hloop := Combinations.mapM_of_ofOptions (m := Except Flaw) hwalk hcons fun combination =>
    pure (combinationVariant root draft combination)
  rw [List.mapM_pure] at hloop
  exact hloop

end VariantCatalog.Expansion
