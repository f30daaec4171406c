/-
# What is written of an instant is read back

Writing and reading meet part by part.  A part has a fixed number of digits, and what comes
behind it is no digit, so a reader takes exactly the part that was written and leaves the rest
for the next reader.  No blanks are written, and the generosity of the readers is not used.
-/

import VariantCatalog.Calendar.Instant
import VariantCatalog.Proofs.Calendar.Civil
import VariantCatalog.Proofs.Text.Digits

namespace VariantCatalog.Calendar

open VariantCatalog.Text

namespace Instant

namespace Reader

variable {α β : Type}

/-- One reader behind another continues with what the first one left. -/
theorem run_bind_of_eq {read : Reader α} {next : α → Reader β} {chars rest : List Char} {a : α}
    (h : read.run chars = some (a, rest)) : (read >>= next).run chars = (next a).run rest := by
  rw [StateT.run_bind, h]
  rfl

theorem blanks_run {c : Char} (h : isBlank c = false) {rest : List Char} :
    blanks.run (c :: rest) = some ((), c :: rest) := by
  have hsame : (c :: rest).dropWhile isBlank = c :: rest := by
    rw [List.dropWhile_cons, h, if_neg Bool.false_ne_true]
  exact congrArg (fun chars => some ((), chars)) hsame

theorem isBlank_of_isDigit {c : Char} (h : c.isDigit) : isBlank c = false := by
  simp only [Char.isDigit, Bool.and_eq_true, decide_eq_true_eq, ge_iff_le, UInt32.le_iff_toNat_le]
    at h
  have hcode : 48 ≤ c.toNat ∧ c.toNat ≤ 57 := h
  simp [isBlank]
  omega

/-- What begins with a number in digits begins with a digit. -/
theorem paddedDigits_append_eq_cons {width : Nat} (hwidth : 0 < width) (n : Nat)
    (rest : List Char) :
    ∃ digit tail, paddedDigits width n ++ rest = digit :: tail ∧ digit.isDigit := by
  have hdigits := areDigits_paddedDigits width n
  have hlength := length_paddedDigits width n
  cases hcases : paddedDigits width n with
  | nil =>
      rw [hcases] at hlength
      exact absurd hlength (Nat.ne_of_lt hwidth)
  | cons digit digits =>
      rw [hcases] at hdigits
      exact ⟨digit, digits ++ rest, rfl, hdigits digit List.mem_cons_self⟩

theorem blanks_run_paddedDigits {width : Nat} (hwidth : 0 < width) (n : Nat) (rest : List Char) :
    blanks.run (paddedDigits width n ++ rest) = some ((), paddedDigits width n ++ rest) := by
  obtain ⟨digit, tail, htext, hdigit⟩ := paddedDigits_append_eq_cons hwidth n rest
  rw [htext]
  exact blanks_run (isBlank_of_isDigit hdigit)

/-- A number of as many digits as are read. -/
theorem number_run {width n : Nat} (hwidth : 0 < width) (hn : n < 10 ^ width) (rest : List Char) :
    (number width).run (paddedDigits width n ++ rest) = some (n, rest) := by
  have hend : width < width → ∀ c ∈ rest.head?, ¬ c.isDigit := fun hlt =>
    absurd hlt (Nat.lt_irrefl width)
  obtain ⟨digits, htake, hlength, hvalue⟩ :=
    exists_takeDigits_paddedDigits (Nat.le_refl width) hn hend
  simp only [StateT.run, number, htake]
  cases digits with
  | nil => exact absurd hlength (Nat.ne_of_lt hwidth)
  | cons digit digits => rw [← hvalue]

theorem part_run {n : Nat} (hn : n < 100) (rest : List Char) :
    part.run (paddedDigits 2 n ++ rest) = some (n, rest) := by
  have hnumber : (number 2).run (paddedDigits 2 n ++ rest) = some (n, rest) :=
    number_run (by decide) hn rest
  rw [part, run_bind_of_eq (blanks_run_paddedDigits (by decide) n rest), hnumber]

theorem separator_run {c : Char} (hc : isBlank c = false) (rest : List Char) :
    (separator c).run (c :: rest) = some ((), rest) := by
  rw [separator, run_bind_of_eq (blanks_run hc)]
  simp only [StateT.run, char, if_pos]

/-- A year of four digits has no sign. -/
theorem year_run {n : Nat} (hn : n < 10000) (rest : List Char) :
    year.run (paddedDigits 4 n ++ rest) = some ((n : Int), rest) := by
  have hnumber : (number 4).run (paddedDigits 4 n ++ rest) = some (n, rest) :=
    number_run (by decide) hn rest
  obtain ⟨digit, tail, htext, hdigit⟩ := paddedDigits_append_eq_cons (by decide : 0 < 4) n rest
  rw [year, run_bind_of_eq (blanks_run_paddedDigits (by decide) n rest),
    run_bind_of_eq (StateT.run_get _), htext]
  rw [htext] at hnumber
  split
  · next hsign =>
    obtain ⟨rfl, -⟩ := List.cons.inj hsign
    exact absurd hdigit (by decide)
  · next hsign =>
    obtain ⟨rfl, -⟩ := List.cons.inj hsign
    exact absurd hdigit (by decide)
  · rw [run_bind_of_eq hnumber]
    rfl

/-- A date of a year in four digits. -/
theorem date_run {date : Date} (hyear : 0 ≤ date.year) (hyear' : date.year ≤ 9999)
    (hvalid : date.isValid) (rest : List Char) :
    Reader.date.run (yearDigits date.year ++ '-' :: (paddedDigits 2 date.month.toNat ++
      '-' :: (paddedDigits 2 date.day.toNat ++ rest))) = some (date, rest) := by
  obtain ⟨⟨hmonth, hmonth'⟩, hday, hday'⟩ := Date.isValid_iff.mp hvalid
  have hshort : date.day ≤ 31 := hday'.trans (by unfold Date.daysInMonth; split_ifs <;> decide)
  have hinRange : date.isInRange := Date.isInRange_of_fourDigits hyear hyear'
  have hsame : (⟨date.year.toNat, date.month.toNat, date.day.toNat⟩ : Date) = date := by
    rw [Int.toNat_of_nonneg hyear, Int.toNat_of_nonneg (by omega), Int.toNat_of_nonneg (by omega)]
  rw [yearDigits, if_pos ⟨hyear, hyear'⟩, Reader.date, run_bind_of_eq (year_run (by omega) _),
    run_bind_of_eq (separator_run (by decide) _), run_bind_of_eq (part_run (by omega) _),
    run_bind_of_eq (separator_run (by decide) _), run_bind_of_eq (part_run (by omega) _)]
  dsimp only
  rw [hsame, hinRange, hvalid]
  rfl

/-- Digits of a fraction, as many as there are, stand for that part of a second. -/
theorem fraction_run_paddedDigits {width n : Nat} (hwidth : 0 < width) (hwidth' : width ≤ 9)
    (hn : n < 10 ^ width) (rest : List Char) :
    fraction.run ('.' :: (paddedDigits width n ++ 'Z' :: rest)) =
      some (n * 10 ^ (9 - width), 'Z' :: rest) := by
  have hend : width < 9 → ∀ c ∈ ('Z' :: rest).head?, ¬ c.isDigit := fun _ => by simp
  obtain ⟨digits, htake, hlength, hvalue⟩ := exists_takeDigits_paddedDigits hwidth' hn hend
  simp only [StateT.run, fraction, htake]
  cases digits with
  | nil => exact absurd hlength (Nat.ne_of_lt hwidth)
  | cons digit digits =>
      dsimp only
      rw [valueOfDigits_append_zeros, hvalue, hlength]
      rfl

/-- Trailing groups of zeros that are not written are read as zeros. -/
theorem fraction_run {nano : Nat} (hnano : nano < billion) (rest : List Char) :
    fraction.run (fractionDigits nano ++ 'Z' :: rest) = some (nano, 'Z' :: rest) := by
  unfold billion at hnano
  unfold fractionDigits
  split
  · next hzero =>
    rw [hzero]
    rfl
  split
  · next hthree =>
    rw [List.cons_append, fraction_run_paddedDigits (by decide) (by decide) (by omega)]
    congr 2
    omega
  split
  · next hsix =>
    rw [List.cons_append, fraction_run_paddedDigits (by decide) (by decide) (by omega)]
    congr 2
    omega
  · rw [List.cons_append, fraction_run_paddedDigits (by decide) (by decide) (by omega),
      Nat.sub_self, Nat.pow_zero, Nat.mul_one]

/-- A time of day without a leap second. -/
theorem time_run {hour minute second nano : Nat} (hhour : hour ≤ 23) (hminute : minute ≤ 59)
    (hsecond : second ≤ 59) (hnano : nano < billion) (rest : List Char) :
    time.run (paddedDigits 2 hour ++ ':' :: (paddedDigits 2 minute ++
      ':' :: (paddedDigits 2 second ++ (fractionDigits nano ++ 'Z' :: rest)))) =
      some (((hour : Int) * 3600 + minute * 60 + second, nano), 'Z' :: rest) := by
  rw [Reader.time, run_bind_of_eq (part_run (by omega) _),
    run_bind_of_eq (separator_run (by decide) _), run_bind_of_eq (part_run (by omega) _),
    run_bind_of_eq (separator_run (by decide) _), run_bind_of_eq (part_run (by omega) _),
    run_bind_of_eq (fraction_run hnano rest), if_pos ⟨hhour, hminute, by omega⟩,
    if_neg (by omega)]
  simp

end Reader

open Reader

/-- The characters of an ordinary instant, part by part. -/
theorem chars_eq {instant : Instant} (hnano : instant.nano < billion) :
    instant.chars = yearDigits instant.date.year ++
      '-' :: (paddedDigits 2 instant.date.month.toNat ++
      '-' :: (paddedDigits 2 instant.date.day.toNat ++
      'T' :: (paddedDigits 2 ((instant.second % 86400).toNat / 3600) ++
      ':' :: (paddedDigits 2 ((instant.second % 86400).toNat / 60 % 60) ++
      ':' :: (paddedDigits 2 ((instant.second % 86400).toNat % 60) ++
      (fractionDigits instant.nano ++ 'Z' :: [])))))) := by
  rw [chars, if_pos hnano]
  simp only [List.append_assoc, List.cons_append, Nat.zero_mul, Nat.add_zero, Nat.sub_zero]

theorem instant_run {instant : Instant} (h : instant.IsOrdinary) :
    Reader.instant.run instant.chars = some (instant, []) := by
  obtain ⟨hnano, hyear, hyear'⟩ := h
  have hvalid : instant.date.isValid := Date.isValid_ofDayNumber _
  have hinRange : instant.date.isInRange := Date.isInRange_of_fourDigits hyear hyear'
  have hnumber : instant.date.dayNumber = instant.second / 86400 := Date.dayNumber_ofDayNumber _
  have hjoint : ∀ rest, joint.run ('T' :: rest) = some ((), rest) := fun _ => rfl
  have hzone : zone.run ['Z'] = some (0, []) := rfl
  have hblanks : blanks.run [] = some ((), []) := rfl
  rw [chars_eq hnano, Reader.instant, run_bind_of_eq (date_run hyear hyear' hvalid _),
    run_bind_of_eq (hjoint _), run_bind_of_eq (time_run (by omega) (by omega) (by omega) hnano _),
    run_bind_of_eq hzone, run_bind_of_eq hblanks]
  have hsecond : (instant.date.dayNumber * 86400 +
      (((instant.second % 86400).toNat / 3600 : Nat) * 3600 +
        ((instant.second % 86400).toNat / 60 % 60 : Nat) * 60 +
        ((instant.second % 86400).toNat % 60 : Nat)) - 0 : Int) = instant.second := by
    rw [hnumber]
    omega
  dsimp only
  rw [hsecond, if_pos hinRange]
  rfl

/-- **An ordinary instant is read back from its text.** -/
theorem ofText?_text {instant : Instant} (h : instant.IsOrdinary) :
    Instant.ofText? instant.text = some instant := by
  rw [ofText?, text, String.toList_ofList, instant_run h]

/-- A fraction of a second is written in three, six or nine digits behind a point, or not at
all. -/
theorem length_fractionDigits (nano : Nat) :
    (fractionDigits nano).length ∈ [0, 1 + 3, 1 + 6, 1 + 9] := by
  unfold fractionDigits
  split_ifs <;> simp

/-- The text of an ordinary instant has twenty characters and those of its fraction. -/
theorem length_text {instant : Instant} (h : instant.IsOrdinary) :
    instant.text.length = 20 + (fractionDigits instant.nano).length := by
  obtain ⟨hnano, hyear, hyear'⟩ := h
  rw [text, String.length_ofList, chars_eq hnano, yearDigits, if_pos ⟨hyear, hyear'⟩]
  simp only [List.length_append, List.length_cons, List.length_nil, length_paddedDigits]
  omega

end Instant

/-- An ordinary moment is read back from its text. -/
theorem Moment.ofText?_text {moment : Moment} (h : moment.IsOrdinary) :
    Moment.ofText? moment.text = some moment := by
  cases moment with
  | given instant =>
      rw [Moment.ofText?, Moment.text, Instant.ofText?_text h]
      rfl
  | reading n => exact h.elim

end VariantCatalog.Calendar
