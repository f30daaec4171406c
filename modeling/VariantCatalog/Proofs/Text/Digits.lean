/-
# Digits and what they stand for

A row of ASCII digits stands for a number, the last digit being the ones.  A number is
written in the fewest digits that do, or in a fixed number of them; either way the digits
stand for it again.
-/

import Mathlib.Data.List.Induction
import Mathlib.Data.Nat.Digits.Defs
import VariantCatalog.Text.Numeral

namespace VariantCatalog.Text

/-! ## Rows of digits -/

/-- A row of ASCII digits. -/
def AreDigits (chars : List Char) : Prop :=
  ∀ c ∈ chars, c.isDigit

instance (chars : List Char) : Decidable (AreDigits chars) :=
  List.decidableBAll _ chars

/-- The number that a row of ASCII digits stands for. -/
def decimalValue (chars : List Char) : Nat :=
  Nat.ofDigits 10 (chars.reverse.map fun c => c.toNat - '0'.toNat)

@[simp] theorem areDigits_nil : AreDigits [] := fun _ h => absurd h List.not_mem_nil

@[simp] theorem areDigits_append {first second : List Char} :
    AreDigits (first ++ second) ↔ AreDigits first ∧ AreDigits second :=
  List.forall_mem_append

@[simp] theorem areDigits_cons {c : Char} {rest : List Char} :
    AreDigits (c :: rest) ↔ c.isDigit ∧ AreDigits rest :=
  List.forall_mem_cons

@[simp] theorem decimalValue_nil : decimalValue [] = 0 := rfl

@[simp] theorem decimalValue_append_singleton (chars : List Char) (c : Char) :
    decimalValue (chars ++ [c]) = decimalValue chars * 10 + (c.toNat - '0'.toNat) := by
  rw [decimalValue, List.reverse_append, List.reverse_singleton, List.singleton_append,
    List.map_cons, Nat.ofDigits_cons, ← decimalValue, Nat.add_comm, Nat.mul_comm]

/-- Digits behind a row of digits do not make it stand for less. -/
theorem decimalValue_le_append (first second : List Char) :
    decimalValue first ≤ decimalValue (first ++ second) := by
  induction second using List.reverseRecOn with
  | nil => rw [List.append_nil]
  | append_singleton second c ih =>
      rw [← List.append_assoc, decimalValue_append_singleton]
      omega

/-! ## One digit -/

theorem digitValue?_of_isDigit {c : Char} (h : c.isDigit) :
    digitValue? c = some (c.toNat - '0'.toNat) :=
  if_pos (by simpa [Char.isDigit, Char.le_def] using h)

theorem digitValue?_of_not_isDigit {c : Char} (h : ¬ c.isDigit) : digitValue? c = none :=
  if_neg (by simpa [Char.isDigit, Char.le_def] using h)

theorem toNat_digitChar : ∀ digit < 10, (digitChar digit).toNat - '0'.toNat = digit := by decide

theorem isDigit_digitChar : ∀ digit < 10, (digitChar digit).isDigit := by decide

/-! ## The fewest digits -/

@[simp] theorem length_paddedDigits (width n : Nat) : (paddedDigits width n).length = width := by
  induction width generalizing n with
  | zero => rfl
  | succ width ih => rw [paddedDigits, List.length_append, ih, List.length_singleton]

theorem areDigits_paddedDigits (width n : Nat) : AreDigits (paddedDigits width n) := by
  induction width generalizing n with
  | zero => exact areDigits_nil
  | succ width ih =>
      rw [paddedDigits]
      simpa [ih] using isDigit_digitChar _ (Nat.mod_lt n (by decide))

/-- Digits in front of the last `width` ones are lost. -/
theorem decimalValue_paddedDigits (width n : Nat) :
    decimalValue (paddedDigits width n) = n % 10 ^ width := by
  induction width generalizing n with
  | zero => rw [paddedDigits, decimalValue_nil, Nat.pow_zero, Nat.mod_one]
  | succ width ih =>
      rw [paddedDigits, decimalValue_append_singleton, ih,
        toNat_digitChar _ (Nat.mod_lt n (by decide)), Nat.pow_succ', Nat.mod_mul, Nat.add_comm,
        Nat.mul_comm]

/-! ## Digits at the front of a text -/

/-- Digits are split off as far as they are wanted and there are any. -/
theorem takeDigits_append {most : Nat} {digits rest : List Char} (hdigits : AreDigits digits)
    (hle : digits.length ≤ most)
    (hend : digits.length < most → ∀ c ∈ rest.head?, ¬ c.isDigit) :
    takeDigits most (digits ++ rest) = (digits.map fun c => c.toNat - '0'.toNat, rest) := by
  induction digits generalizing most with
  | nil =>
      match most, rest with
      | 0, _ => rfl
      | _ + 1, [] => rfl
      | most + 1, c :: rest =>
          have hstop := hend (Nat.succ_pos most) c rfl
          rw [List.nil_append, takeDigits, digitValue?_of_not_isDigit hstop]
          rfl
  | cons c digits ih =>
      obtain ⟨hdigit, hdigits⟩ := areDigits_cons.mp hdigits
      obtain ⟨most, rfl⟩ := Nat.exists_eq_succ_of_ne_zero (Nat.ne_of_gt (Nat.lt_of_lt_of_le
        (Nat.succ_pos digits.length) hle))
      rw [List.cons_append, takeDigits, digitValue?_of_isDigit hdigit,
        ih hdigits (Nat.le_of_succ_le_succ hle) fun hlt => hend (Nat.succ_lt_succ hlt)]
      rfl

theorem valueOfDigits_append_singleton (digits : List Nat) (digit : Nat) :
    valueOfDigits (digits ++ [digit]) = valueOfDigits digits * 10 + digit := by
  rw [valueOfDigits, List.foldl_append]
  rfl

theorem valueOfDigits_map (chars : List Char) :
    valueOfDigits (chars.map fun c => c.toNat - '0'.toNat) = decimalValue chars := by
  induction chars using List.reverseRecOn with
  | nil => rfl
  | append_singleton chars c ih =>
      rw [List.map_append, List.map_singleton, valueOfDigits_append_singleton, ih,
        decimalValue_append_singleton]

/-- A number in a fixed number of digits is split off as those digits. -/
theorem exists_takeDigits_paddedDigits {most width n : Nat} {rest : List Char}
    (hwidth : width ≤ most) (hn : n < 10 ^ width)
    (hend : width < most → ∀ c ∈ rest.head?, ¬ c.isDigit) :
    ∃ digits, takeDigits most (paddedDigits width n ++ rest) = (digits, rest) ∧
      digits.length = width ∧ valueOfDigits digits = n := by
  have hlength := length_paddedDigits width n
  refine ⟨_, takeDigits_append (areDigits_paddedDigits width n) (hlength.le.trans hwidth)
    (hlength.symm ▸ hend), ?_, ?_⟩
  · rw [List.length_map, hlength]
  · rw [valueOfDigits_map, decimalValue_paddedDigits, Nat.mod_eq_of_lt hn]

/-- Zeros behind digits are powers of ten. -/
theorem valueOfDigits_append_zeros (digits : List Nat) (zeros : Nat) :
    valueOfDigits (digits ++ List.replicate zeros 0) = valueOfDigits digits * 10 ^ zeros := by
  induction zeros with
  | zero => rw [List.replicate_zero, List.append_nil, Nat.pow_zero, Nat.mul_one]
  | succ zeros ih =>
      rw [List.replicate_succ', ← List.append_assoc, valueOfDigits_append_singleton, ih,
        Nat.pow_succ, Nat.mul_assoc, Nat.add_zero]

end VariantCatalog.Text
