/-
# The positions of an odometer

The combinations of some options come in the order of an odometer, the last option
turning fastest.  `wheels` says where each wheel stands after some number of turns
without making them: the wheels behind it turn full circle before it moves by one.
So the combinations are numbered, and what stands at each number can be said at
once (`all_eq_map_range`).
-/

import VariantCatalog.Expansion.Combination
import Mathlib.Algebra.BigOperators.Group.List.Basic

namespace VariantCatalog.Expansion

/-- Where wheels of the given sizes stand after some number of turns, the last wheel
turning fastest. -/
def wheels : (sizes : List Nat) → (turns : Nat) → List Nat
  | [], _ => []
  | size :: rest, turns => (turns / rest.prod) % size :: wheels rest turns

/-- The numbers of values of some options. -/
def sizes (options : List ProductOption) : List Nat := options.map (·.values.length)

/-- Wheels that turn full circle stand where they stood. -/
theorem wheels_prod_mul_add (sizes : List Nat) (circles turns : Nat) :
    wheels sizes (sizes.prod * circles + turns) = wheels sizes turns := by
  induction sizes generalizing circles with
  | nil => rfl
  | cons size rest ih =>
      have hprod : (size :: rest).prod * circles = rest.prod * (size * circles) := by
        rw [List.prod_cons, Nat.mul_comm size, Nat.mul_assoc]
      rw [hprod, wheels, wheels, ih]
      rcases Nat.eq_zero_or_pos rest.prod with hzero | hpos
      · rw [hzero, Nat.div_zero, Nat.div_zero]
      · rw [Nat.mul_add_div hpos, Nat.mul_add_mod]

/-- Counting to a product is counting to one factor again and again. -/
theorem map_range_mul {α : Type} (f : Nat → α) (often many : Nat) :
    (List.range (often * many)).map f =
      (List.range often).flatMap fun i => (List.range many).map fun j => f (many * i + j) := by
  induction often with
  | zero => rw [Nat.zero_mul, List.range_zero, List.map_nil, List.flatMap_nil]
  | succ often ih =>
      rw [Nat.succ_mul, List.range_add, List.map_append, ih, List.range_succ, List.flatMap_append,
        List.flatMap_singleton, List.map_map, Nat.mul_comm often many]
      rfl

/-- To go through a list is to go through its positions. -/
theorem flatMap_eq_flatMap_range {α β : Type} (items : List α) (f : α → List β) :
    items.flatMap f = (List.range items.length).flatMap fun i => items[i]?.elim [] f := by
  induction items with
  | nil => rfl
  | cons item rest ih =>
      rw [List.flatMap_cons, ih, List.length_cons, List.range_succ_eq_map, List.flatMap_cons,
        List.flatMap_map]
      rfl

theorem select_cons_of_getElem? {option : ProductOption} {value : OptionValue} {position : Nat}
    (h : option.values[position]? = some value) (rest : List ProductOption)
    (positions : List Nat) :
    select (option :: rest) (position :: positions) = ⟨option, value⟩ :: select rest positions := by
  simp only [select, List.zip_cons_cons, List.filterMap_cons, h, Option.map_some]

/-- The combinations of some options are the selections at one turn of the odometer
after the other. -/
theorem all_eq_map_range (options : List ProductOption) :
    Combination.all options =
      (List.range (sizes options).prod).map fun turns =>
        select options (wheels (sizes options) turns) := by
  induction options with
  | nil => rfl
  | cons option rest ih =>
      have hsizes : sizes (option :: rest) = option.values.length :: sizes rest := rfl
      rw [Combination.all, flatMap_eq_flatMap_range, hsizes, List.prod_cons, map_range_mul]
      refine List.flatMap_congr fun i hi => ?_
      have hlt := List.mem_range.mp hi
      obtain ⟨value, hvalue⟩ : ∃ value, option.values[i]? = some value :=
        ⟨_, List.getElem?_eq_getElem hlt⟩
      rw [hvalue, Option.elim_some, ih, List.map_map]
      refine List.map_congr_left fun j hj => ?_
      have hj := List.mem_range.mp hj
      have hwheel : ((sizes rest).prod * i + j) / (sizes rest).prod % option.values.length = i := by
        rw [Nat.mul_add_div (Nat.zero_lt_of_lt hj), Nat.div_eq_of_lt hj, Nat.add_zero,
          Nat.mod_eq_of_lt hlt]
      rw [wheels, hwheel, wheels_prod_mul_add, select_cons_of_getElem? hvalue]
      rfl

/-- If every option has a value, then every turn of the odometer selects one of
each. -/
theorem map_option_select (options : List ProductOption) (turns : Nat)
    (hvalues : ∀ option ∈ options, option.values ≠ []) :
    (select options (wheels (sizes options) turns)).map (·.option) = options := by
  induction options with
  | nil => rfl
  | cons option rest ih =>
      obtain ⟨hoption, hrest⟩ := List.forall_mem_cons.mp hvalues
      have hlt : turns / (sizes rest).prod % option.values.length < option.values.length :=
        Nat.mod_lt _ (List.length_pos_iff.mpr hoption)
      have hsizes : sizes (option :: rest) = option.values.length :: sizes rest := rfl
      rw [hsizes, wheels, select_cons_of_getElem? (List.getElem?_eq_getElem hlt), List.map_cons,
        ih hrest]

/-- Only options that all have values have combinations to walk through. -/
theorem values_ne_nil_of_ofOptions {options : List ProductOption} {walk : Combinations}
    (h : Combinations.ofOptions options = .ok walk) : ∀ option ∈ options, option.values ≠ [] := by
  intro option hmem hempty
  rw [Combinations.ofOptions] at h
  split at h
  · cases h
  · next hfind =>
    have hnot := List.find?_eq_none.mp hfind option hmem
    rw [hempty] at hnot
    exact hnot rfl

theorem ofOptions_eq_ok {options : List ProductOption}
    (h : ∀ option ∈ options, option.values ≠ []) :
    ∃ walk, Combinations.ofOptions options = .ok walk := by
  have hnone : options.find? (·.values.isEmpty) = none := by
    apply List.find?_eq_none.mpr
    exact fun option hoption hempty => h option hoption (List.isEmpty_iff.mp hempty)
  rw [Combinations.ofOptions, hnone]
  exact ⟨_, rfl⟩

end VariantCatalog.Expansion
