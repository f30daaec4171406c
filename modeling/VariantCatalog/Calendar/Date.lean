/-
# Civil dates

The proleptic Gregorian calendar: which dates there are, and the number of the
day on which a date falls, counted from 1 January 1970.  Years are counted from
March within the arithmetic, so that the leap day comes last and a month starts
`(153 * month + 2) / 5` days into its year; four hundred years have 146097 days.
-/

namespace VariantCatalog.Calendar

/-- A day of the calendar. Months and days count from one. -/
structure Date where
  year : Int
  month : Int
  day : Int
  deriving DecidableEq

namespace Date

/-- Every fourth year has a leap day, except for the centuries that four hundred
does not divide. -/
def isLeapYear (year : Int) : Bool :=
  year % 4 = 0 && (year % 100 ≠ 0 || year % 400 = 0)

/-- The first year that a date can be read in. -/
def firstYear : Int := -262143

/-- The last year that a date can be read in. -/
def lastYear : Int := 262142

/-- Whether a date lies in a year that a date can be read in. -/
def isInRange (date : Date) : Bool :=
  firstYear ≤ date.year && date.year ≤ lastYear

/-- The number of days in a month. -/
def daysInMonth (year month : Int) : Int :=
  if month = 2 then if isLeapYear year then 29 else 28
  else if month = 4 ∨ month = 6 ∨ month = 9 ∨ month = 11 then 30
  else 31

/-- Whether the calendar has this date. -/
def isValid (date : Date) : Bool :=
  1 ≤ date.month && date.month ≤ 12 && 1 ≤ date.day &&
    date.day ≤ daysInMonth date.year date.month

/-- The days from 1 March of the year 0 to 1 January 1970. -/
def epochDay : Int := 719468

/-- The days from 1 March to the first day of a month, March being month zero. -/
def daysBeforeMonth (month : Int) : Int :=
  (153 * month + 2) / 5

/-- The days from 1 March of the year 0 to 1 March of a year. -/
def daysBeforeYear (year : Int) : Int :=
  year * 365 + year / 4 - year / 100 + year / 400

/-- The number of a month when March is month zero. -/
def marchMonth (date : Date) : Int :=
  if date.month ≤ 2 then date.month + 9 else date.month - 3

/-- The year that a date belongs to when years begin in March. -/
def marchYear (date : Date) : Int :=
  if date.month ≤ 2 then date.year - 1 else date.year

/-- The date of a day in a month and a year that are counted from March. -/
def ofMarch (year month day : Int) : Date :=
  if month < 10 then ⟨year, month + 3, day⟩ else ⟨year + 1, month - 9, day⟩

/-- The number of days from 1 January 1970 to a date. -/
def dayNumber (date : Date) : Int :=
  daysBeforeYear date.marchYear + daysBeforeMonth date.marchMonth + date.day - 1 - epochDay

/-- The date of a day in a year that begins in March, days counting from zero. -/
def ofDayOfYear (year dayOfYear : Int) : Date :=
  let month := (5 * dayOfYear + 2) / 153
  ofMarch year month (dayOfYear - daysBeforeMonth month + 1)

/-- The date that lies a number of days after 1 January 1970. Four centuries
have 146097 days, a century 36524, four years 1461 and a year 365; the day that
is left over behind the last century or the last year of such a group belongs to
it. -/
def ofDayNumber (number : Int) : Date :=
  let era := (number + epochDay) / 146097
  let dayOfEra := (number + epochDay) % 146097
  let century := min (dayOfEra / 36524) 3
  let dayOfCentury := dayOfEra - century * 36524
  let cycle := dayOfCentury / 1461
  let dayOfCycle := dayOfCentury - cycle * 1461
  let yearOfCycle := min (dayOfCycle / 365) 3
  ofDayOfYear (era * 400 + century * 100 + cycle * 4 + yearOfCycle)
    (dayOfCycle - yearOfCycle * 365)

/-- The days before a year add up group by group. -/
theorem daysBeforeYear_groups {era century cycle year : Int} (hcentury : 0 ≤ century)
    (hcentury' : century ≤ 3) (hcycle : 0 ≤ cycle) (hcycle' : cycle ≤ 24) (hyear : 0 ≤ year)
    (hyear' : year ≤ 3) :
    daysBeforeYear (era * 400 + century * 100 + cycle * 4 + year) =
      era * 146097 + century * 36524 + cycle * 1461 + year * 365 := by
  unfold daysBeforeYear
  omega

theorem dayNumber_ofMarch {year month day : Int} (hmonth : 0 ≤ month) (hmonth' : month ≤ 11) :
    (ofMarch year month day).dayNumber =
      daysBeforeYear year + daysBeforeMonth month + day - 1 - epochDay := by
  unfold ofMarch
  split
  · simp only [dayNumber, marchYear, marchMonth]
    rw [if_neg (by omega), if_neg (by omega)]
    congr 5
    omega
  · simp only [dayNumber, marchYear, marchMonth]
    rw [if_pos (by omega), if_pos (by omega)]
    congr 5 <;> omega

theorem dayNumber_ofDayOfYear {year day : Int} (hday : 0 ≤ day) (hday' : day ≤ 365) :
    (ofDayOfYear year day).dayNumber = daysBeforeYear year + day - epochDay := by
  unfold ofDayOfYear
  rw [dayNumber_ofMarch (by omega) (by omega)]
  omega

/-- The day of a number is the day with that number. -/
theorem dayNumber_ofDayNumber (number : Int) : (ofDayNumber number).dayNumber = number := by
  unfold ofDayNumber
  rw [dayNumber_ofDayOfYear (by omega) (by omega),
    daysBeforeYear_groups (by omega) (by omega) (by omega) (by omega) (by omega) (by omega)]
  simp only [epochDay]
  omega

end Date

end VariantCatalog.Calendar
