/-
# Products that are no count

The number of combinations can exceed what a count holds, and two things are then said of it
that were meant to hold of any number.

The product is multiplied up from the left and ends where it ceases to be a count.  A product
of positive numbers only grows, so nothing is lost by that; but a zero makes it small again,
and a zero that stands behind the end is never seen.  So what decides is the product in front
of the first zero, and with a zero among the numbers the answer can depend on their order
(`combinationCount?_exact_iff`).

A walk that has no count to keep foretells the greatest count at every step, though what is to
come gets less with each one.  That is true of the walk just as long as at least so many
combinations are left, and in the end they are not (`sizeHint_holds_iff`).
-/

import VariantCatalog.Proofs.Expansion.Walk
import Mathlib.Algebra.BigOperators.Group.List.Lemmas
import Mathlib.Algebra.BigOperators.Ring.List
import Mathlib.Data.List.TakeWhile

namespace VariantCatalog.Expansion

/-! ## The count -/

/-- The product of some numbers, if it is a count, whatever their order. No numbers have the
product zero. -/
def exactCount? (counts : List Nat) : Option Nat :=
  if counts.isEmpty then some 0
  else if counts.prod < countBound then some counts.prod else none

/-- The numbers in front of the first zero. -/
def beforeZero (counts : List Nat) : List Nat := counts.takeWhile (0 < ·)

section Counts

variable {counts : List Nat}

theorem pos_of_mem_beforeZero {count : Nat} (h : count ∈ beforeZero counts) : 0 < count := by
  have hpos := List.mem_takeWhile_imp (p := fun count : Nat => decide (0 < count)) h
  exact of_decide_eq_true hpos

theorem beforeZero_eq_self_iff : beforeZero counts = counts ↔ 0 ∉ counts := by
  rw [beforeZero, List.takeWhile_eq_self_iff]
  constructor
  · intro hpos hmem
    exact absurd (hpos 0 hmem) (by decide)
  · intro hmem count hcount
    exact decide_eq_true (Nat.pos_of_ne_zero fun hzero => hmem (hzero ▸ hcount))

/-- Behind the numbers in front of the first zero comes that zero. -/
theorem exists_eq_beforeZero_append (h : 0 ∈ counts) :
    ∃ rest, counts = beforeZero counts ++ 0 :: rest := by
  have hsplit : beforeZero counts ++ counts.dropWhile (0 < ·) = counts :=
    List.takeWhile_append_dropWhile
  cases hdrop : counts.dropWhile (0 < ·) with
  | nil =>
      have hpos := List.dropWhile_eq_nil_iff.mp hdrop 0 h
      exact absurd hpos (by decide)
  | cons first rest =>
      have hne : counts.dropWhile (0 < ·) ≠ [] := by simp [hdrop]
      have hfirst := List.head_dropWhile_not (fun count : Nat => decide (0 < count)) hne
      simp only [hdrop, List.head_cons, decide_eq_false_iff_not, Nat.not_lt,
        Nat.le_zero] at hfirst
      rw [hdrop, hfirst] at hsplit
      exact ⟨rest, hsplit.symm⟩

/-- A product that is zero stays zero. -/
theorem foldlM_multiply?_zero (counts : List Nat) : counts.foldlM multiply? 0 = some 0 := by
  induction counts with
  | nil => rfl
  | cons count rest ih =>
      have hstep : multiply? 0 count = some 0 := by simp [multiply?, countBound]
      rw [List.foldlM_cons, hstep]
      exact ih

/-- The product on the way is greatest in front of the first zero. -/
theorem combinationCount?_eq (counts : List Nat) :
    combinationCount? counts =
      if counts.isEmpty then some 0
      else if (beforeZero counts).prod < countBound then some counts.prod else none := by
  cases counts with
  | nil => rfl
  | cons count rest =>
      have hfold : combinationCount? (count :: rest) = (count :: rest).foldlM multiply? 1 := rfl
      have hpositive : ∀ number ∈ beforeZero (count :: rest), 0 < number :=
        fun _ => pos_of_mem_beforeZero
      have hbefore := foldlM_multiply? hpositive 1 ⟨Nat.one_pos, by decide⟩
      rw [Nat.one_mul] at hbefore
      rw [hfold, if_neg (by simp)]
      by_cases hzero : 0 ∈ count :: rest
      · obtain ⟨behind, hsplit⟩ := exists_eq_beforeZero_append hzero
        rw [List.prod_eq_zero hzero]
        conv_lhs => rw [hsplit]
        rw [List.foldlM_append, hbefore]
        split
        · have hstep : multiply? (beforeZero (count :: rest)).prod 0 = some 0 := by
            simp [multiply?, countBound]
          rw [Option.bind_eq_bind, Option.bind_some, List.foldlM_cons, hstep]
          exact foldlM_multiply?_zero behind
        · rfl
      · rw [beforeZero_eq_self_iff.mpr hzero] at hbefore ⊢
        exact hbefore

/-- What stands in front of the first zero is among what is positive. -/
theorem prod_beforeZero_le (counts : List Nat) :
    (beforeZero counts).prod ≤ (counts.filter (0 < ·)).prod := by
  have hsublist : (beforeZero counts).Sublist (counts.filter (0 < ·)) := by
    have hfilter : (beforeZero counts).filter (0 < ·) = beforeZero counts :=
      List.filter_eq_self.mpr fun count hcount => decide_eq_true (pos_of_mem_beforeZero hcount)
    rw [← hfilter]
    exact (List.takeWhile_sublist _).filter _
  apply Nat.le_of_dvd _ hsublist.prod_dvd_prod
  exact List.prod_pos fun count hcount => of_decide_eq_true (List.mem_filter.mp hcount).2

/-- Where a zero comes, what is in front of it must be a count, and nothing else matters. -/
theorem combinationCount?_append_zero (hcounts : ∀ count ∈ counts, 0 < count) (rest : List Nat) :
    combinationCount? (counts ++ 0 :: rest) =
      if counts.prod < countBound then some 0 else none := by
  have hbefore : beforeZero (counts ++ 0 :: rest) = counts := by
    have hall : ∀ count ∈ counts, decide (0 < count) = true :=
      fun count hcount => decide_eq_true (hcounts count hcount)
    rw [beforeZero, List.takeWhile_append_of_pos hall]
    simp
  have hprod : (counts ++ 0 :: rest).prod = 0 := List.prod_eq_zero (by simp)
  rw [combinationCount?_eq, hbefore, hprod, if_neg (by simp)]

/-- A zero can be put first. -/
theorem exists_zero_cons_perm (h : 0 ∈ counts) : ∃ rest, (0 :: rest).Perm counts :=
  ⟨_, (List.perm_cons_erase h).symm⟩

/-- All zeros can be put last. -/
theorem exists_append_zero_perm (h : 0 ∈ counts) :
    ∃ rest, (counts.filter (0 < ·) ++ 0 :: rest).Perm counts := by
  have hperm := List.filter_append_perm (fun count => decide (0 < count)) counts
  have hzero : 0 ∈ counts.filter fun count => !decide (0 < count) := by simpa using h
  have hcons := List.perm_cons_erase hzero
  exact ⟨_, (hcons.symm.append_left _).trans hperm⟩

/-- The exact count does not depend on the order. -/
theorem exactCount?_eq_of_perm {other : List Nat} (h : other.Perm counts) :
    exactCount? other = exactCount? counts := by
  have hempty : other.isEmpty = counts.isEmpty := by
    rw [Bool.eq_iff_iff, List.isEmpty_iff, List.isEmpty_iff]
    exact ⟨fun hnil => (hnil ▸ h).nil_eq.symm, fun hnil => (hnil ▸ h).eq_nil⟩
  rw [exactCount?, exactCount?, hempty, h.prod_eq]

/-- The count is exact unless there is a zero that comes too late. -/
theorem eq_exactCount?_iff :
    combinationCount? counts = exactCount? counts ↔
      (0 ∈ counts → (beforeZero counts).prod < countBound) := by
  rw [combinationCount?_eq, exactCount?]
  by_cases hzero : 0 ∈ counts
  · have hne : counts.isEmpty = false := by
      rw [List.isEmpty_eq_false_iff_exists_mem]
      exact ⟨0, hzero⟩
    have hprod : counts.prod = 0 := List.prod_eq_zero hzero
    simp [hne, hprod, hzero, countBound]
  · simp [beforeZero_eq_self_iff.mpr hzero, hzero]

/-- **The count is exact, unless a zero comes too late.** The count of some numbers is their
product if that is a count, and otherwise there is none; but there is none either if the product
in front of the first zero is no count. So the order of the numbers makes no difference, unless
one of them is zero and the product of the others is no count. -/
theorem combinationCount?_exact_iff (counts : List Nat) :
    (combinationCount? counts =
      if counts.isEmpty then some 0
      else if (beforeZero counts).prod < countBound then some counts.prod else none) ∧
    (combinationCount? counts = exactCount? counts ↔
      (0 ∈ counts → (beforeZero counts).prod < countBound)) ∧
    ((∀ other : List Nat, other.Perm counts → combinationCount? other = combinationCount? counts) ↔
      (0 ∈ counts → (counts.filter (0 < ·)).prod < countBound)) := by
  refine ⟨combinationCount?_eq counts, eq_exactCount?_iff, ?_, ?_⟩
  · -- The zeros are put first and then last, which must not make a difference.
    intro hsame hzero
    obtain ⟨first, hfirst⟩ := exists_zero_cons_perm hzero
    obtain ⟨last, hlast⟩ := exists_append_zero_perm hzero
    have hpositive : ∀ count ∈ counts.filter (0 < ·), 0 < count :=
      fun count hcount => of_decide_eq_true (List.mem_filter.mp hcount).2
    have hnothing : combinationCount? (0 :: first) = some 0 :=
      combinationCount?_append_zero (List.forall_mem_nil (0 < ·)) first
    have heq := (hsame _ hlast).trans (hsame _ hfirst).symm
    rw [hnothing, combinationCount?_append_zero hpositive] at heq
    by_contra hlarge
    rw [if_neg hlarge] at heq
    cases heq
  · intro hwithin other hperm
    have hexact : ∀ numbers : List Nat, numbers.Perm counts →
        combinationCount? numbers = exactCount? numbers := by
      intro numbers hnumbers
      rw [eq_exactCount?_iff]
      intro hzero
      calc (beforeZero numbers).prod
          ≤ (numbers.filter (0 < ·)).prod := prod_beforeZero_le numbers
        _ = (counts.filter (0 < ·)).prod := (hnumbers.filter _).prod_eq
        _ < countBound := hwithin (hnumbers.mem_iff.mp hzero)
    rw [hexact other hperm, hexact counts (List.Perm.refl counts), exactCount?_eq_of_perm hperm]

/-- Sixty-four bits are full before the zero comes, and it makes a difference where it stands. -/
theorem zero_comes_too_late :
    (∀ count ∈ [18446744073709551615, 2, 0], count < countBound) ∧
    exactCount? [18446744073709551615, 2, 0] = some 0 ∧
    combinationCount? [18446744073709551615, 2, 0] = none ∧
    combinationCount? [0, 18446744073709551615, 2] = some 0 := by
  decide

end Counts

/-! ## The hint -/

namespace Combinations

/-- A walk has some number of combinations left: so many calls give one, and the next call
gives none. -/
structure Leaves (walk : Combinations) (left : Nat) : Prop where
  gives : ∀ calls < left, ∃ found, (walk.after calls).next? = some found
  ends : (walk.after left).next? = none

/-- The bounds that a walk foretells hold of what it has left. -/
def HintHolds (walk : Combinations) : Prop :=
  ∃ left, walk.Leaves left ∧ walk.sizeHint.1 ≤ left ∧ ∀ upper ∈ walk.sizeHint.2, left ≤ upper

/-- What a walk has left is settled by its calls. -/
theorem Leaves.unique {walk : Combinations} {left other : Nat} (h : walk.Leaves left)
    (hother : walk.Leaves other) : left = other := by
  have hle : ∀ {fewer more : Nat}, walk.Leaves fewer → walk.Leaves more → more ≤ fewer := by
    intro fewer more hfewer hmore
    by_contra hlt
    obtain ⟨found, hfound⟩ := hmore.gives fewer (Nat.not_le.mp hlt)
    rw [hfewer.ends] at hfound
    cases hfound
  exact Nat.le_antisymm (hle hother h) (hle h hother)

theorem after_add (walk : Combinations) (calls more : Nat) :
    (walk.after calls).after more = walk.after (calls + more) := by
  induction more with
  | zero => rfl
  | succ more ih => rw [after, ih, ← Nat.add_assoc, after]

section Hint

variable {options : List ProductOption} (hvalues : ∀ option ∈ options, option.values ≠ [])

include hvalues

/-- After some calls, as many combinations less are left. -/
theorem leaves_behind (passed : Nat) :
    (behind options passed).Leaves (total options - passed) := by
  have hafter : ∀ calls, ((behind options passed).after calls).next? =
      if passed + calls < total options then
        some (select options (wheels (sizes options) (passed + calls)),
          behind options (passed + calls + 1))
      else none := by
    intro calls
    rw [← after_behind hvalues passed, after_add, after_behind hvalues, next?_behind hvalues]
  constructor
  · intro calls hcalls
    rw [hafter, if_pos (by omega)]
    exact ⟨_, rfl⟩
  · rw [hafter, if_neg (by omega)]

/-- A walk keeps count if there is a count to keep, and otherwise foretells the greatest count
for ever. -/
theorem sizeHint_behind (passed : Nat) :
    (behind options passed).sizeHint =
      if total options < countBound then (total options - passed, some (total options - passed))
      else (countBound - 1, none) := by
  rw [behind, combinationCount?_sizes hvalues]
  by_cases hcount : total options < countBound
  · rw [if_pos hcount, if_pos hcount]
    rfl
  · rw [if_neg hcount, if_neg hcount]
    rfl

/-- The bounds hold as long as there is a count or the greatest count is still to come. -/
theorem hintHolds_behind_iff (passed : Nat) :
    (behind options passed).HintHolds ↔
      total options < countBound ∨ countBound - 1 ≤ total options - passed := by
  have hleaves := leaves_behind hvalues passed
  have hholds : (behind options passed).HintHolds ↔
      (behind options passed).sizeHint.1 ≤ total options - passed ∧
        ∀ upper ∈ (behind options passed).sizeHint.2, total options - passed ≤ upper := by
    constructor
    · rintro ⟨left, hleft, hbounds⟩
      rwa [hleft.unique hleaves] at hbounds
    · exact fun hbounds => ⟨_, hleaves, hbounds⟩
  rw [hholds, sizeHint_behind hvalues]
  split
  · next hcount =>
    refine iff_of_true ⟨Nat.le_refl _, fun upper hupper => ?_⟩ (.inl hcount)
    exact (Option.some.inj hupper).le
  · next hcount => simp [hcount]

end Hint

/-- **The size hint is true of a walk just if there is a count, or at least the greatest count
of combinations is left.** What is left after some calls is the number of all combinations less
the calls. If that number is a count then the hint is exact; if not then the hint is the greatest
count as a lower bound, which is true of the first combinations and false of the last. -/
theorem sizeHint_holds_iff {options : List ProductOption} {walk : Combinations}
    (h : ofOptions options = .ok walk) (calls : Nat) :
    (walk.after calls).Leaves (total options - calls) ∧
    (walk.after calls).sizeHint =
      (if total options < countBound then (total options - calls, some (total options - calls))
      else (countBound - 1, none)) ∧
    ((walk.after calls).HintHolds ↔
      total options < countBound ∨ countBound - 1 ≤ total options - calls) := by
  have hvalues := values_ne_nil_of_ofOptions h
  rw [ofOptions_eq_behind hvalues] at h
  cases h
  rw [after_behind hvalues]
  exact ⟨leaves_behind hvalues calls, sizeHint_behind hvalues calls,
    hintHolds_behind_iff hvalues calls⟩

/-- Sixty-four switches, each of them off or on. -/
def switches : List ProductOption :=
  (List.range 64).map fun place =>
    let option : Id .option := ⟨place + 1⟩
    { id := option
      root := ⟨1⟩
      name := "Switch"
      values := [⟨⟨2 * place + 1⟩, option, "Off", .created (.reading 0)⟩,
        ⟨⟨2 * place + 2⟩, option, "On", .created (.reading 0)⟩]
      lifecycle := .created (.reading 0) }

theorem values_switches : ∀ option ∈ switches, option.values ≠ [] := by decide +kernel

theorem total_switches : total switches = countBound := by decide +kernel

/-- After the first of all combinations of the switches, the greatest count is left. -/
theorem sizeHint_holds_iff_switches :
    ∃ walk, ofOptions switches = .ok walk ∧ (walk.after 1).HintHolds ∧
      (walk.after 1).sizeHint = (18446744073709551615, none) := by
  obtain ⟨walk, hwalk⟩ := ofOptions_eq_ok values_switches
  obtain ⟨_, hhint, hholds⟩ := sizeHint_holds_iff hwalk 1
  rw [total_switches] at hhint hholds
  exact ⟨walk, hwalk, hholds.mpr (.inr (Nat.le_refl _)), hhint⟩

/-- After the second one there are fewer left, but the walk foretells as many as before. -/
theorem hint_outlasts_switches :
    ∃ walk, ofOptions switches = .ok walk ∧ (walk.after 2).Leaves 18446744073709551614 ∧
      (walk.after 2).sizeHint = (18446744073709551615, none) ∧ ¬ (walk.after 2).HintHolds := by
  refine ⟨_, ofOptions_eq_behind values_switches, ?_⟩
  rw [after_behind values_switches, sizeHint_behind values_switches,
    hintHolds_behind_iff values_switches]
  have hleaves := leaves_behind values_switches 2
  rw [total_switches] at hleaves ⊢
  exact ⟨hleaves, rfl, by decide⟩

end Combinations

end VariantCatalog.Expansion
