/-
# Every day has a date

Counting days never leads outside the calendar.  Within a year that begins in March a month
is never too short for its day, the last month only in a leap year; and a year gets a day
more than others only if the year that its last month lies in is a leap year.
-/

import VariantCatalog.Calendar.Date

namespace VariantCatalog.Calendar.Date

theorem isLeapYear_iff {year : Int} :
    isLeapYear year ↔ year % 4 = 0 ∧ (year % 100 ≠ 0 ∨ year % 400 = 0) := by
  simp [isLeapYear]

theorem isValid_iff {date : Date} :
    date.isValid ↔ (1 ≤ date.month ∧ date.month ≤ 12) ∧
      (1 ≤ date.day ∧ date.day ≤ daysInMonth date.year date.month) := by
  simp [isValid, and_assoc]

/-- Years of four digits can be read. -/
theorem isInRange_of_fourDigits {date : Date} (hyear : 0 ≤ date.year) (hyear' : date.year ≤ 9999) :
    date.isInRange := by
  have hfirst : firstYear ≤ date.year := Int.le_trans (by decide) hyear
  have hlast : date.year ≤ lastYear := Int.le_trans hyear' (by decide)
  rw [isInRange, Bool.and_eq_true, decide_eq_true_iff, decide_eq_true_iff]
  exact ⟨hfirst, hlast⟩

/-- A date counted from March is valid if the month is long enough. -/
theorem isValid_ofMarch {year month day : Int} (hmonth : 0 ≤ month) (hmonth' : month ≤ 11)
    (hday : 1 ≤ day)
    (hday' : day ≤ daysBeforeMonth (month + 1) - daysBeforeMonth month)
    (hleap : month = 11 → day ≤ if isLeapYear (year + 1) then 29 else 28) :
    (ofMarch year month day).isValid := by
  rw [isValid_iff]
  unfold daysBeforeMonth at hday'
  unfold ofMarch daysInMonth
  split
  · dsimp only
    refine ⟨⟨by omega, by omega⟩, hday, ?_⟩
    rw [if_neg (by omega)]
    split <;> omega
  · dsimp only
    refine ⟨⟨by omega, by omega⟩, hday, ?_⟩
    split
    · exact hleap (by omega)
    · rw [if_neg (by omega)]
      omega

/-- A day of a year that begins in March is valid, the last one before a leap day too. -/
theorem isValid_ofDayOfYear {year day : Int} (hday : 0 ≤ day) (hday' : day ≤ 365)
    (hleap : day = 365 → isLeapYear (year + 1)) : (ofDayOfYear year day).isValid := by
  have hmonth : 0 ≤ (5 * day + 2) / 153 ∧ (5 * day + 2) / 153 ≤ 11 := by omega
  refine isValid_ofMarch hmonth.1 hmonth.2 ?_ ?_ fun hlast => ?_
  · unfold daysBeforeMonth
    omega
  · unfold daysBeforeMonth
    omega
  · unfold daysBeforeMonth
    by_cases hfull : day = 365
    · rw [if_pos (hleap hfull)]
      omega
    · split <;> omega

/-- The year behind the last one of four is a leap year, unless it ends a century that is not
the last one of four. -/
theorem isLeapYear_groups {era century cycle year : Int} (hcycle : 0 ≤ cycle) (hcycle' : cycle ≤ 24)
    (hyear : year = 3) (hlast : cycle = 24 → century = 3) :
    isLeapYear (era * 400 + century * 100 + cycle * 4 + year + 1) := by
  rw [isLeapYear_iff]
  omega

/-- The calendar has the date of every day. -/
theorem isValid_ofDayNumber (number : Int) : (ofDayNumber number).isValid := by
  unfold ofDayNumber
  refine isValid_ofDayOfYear (by omega) (by omega) fun hfull => ?_
  exact isLeapYear_groups (by omega) (by omega) (by omega) (by omega)

end VariantCatalog.Calendar.Date
