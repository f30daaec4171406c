/-
# Instants and their text

An instant is written as a date and a time of day of the Universal Time, with
three, six or nine fraction digits where fewer would lose something.  It is read
more generously: blanks may stand around the numbers, the date and the time may
be joined by a blank, and the zone may be any offset of less than a day.
-/

import VariantCatalog.Calendar.Date
import VariantCatalog.Text.Blank
import VariantCatalog.Text.Numeral

namespace VariantCatalog.Calendar

open VariantCatalog.Text

/-- A point of time: whole seconds since the start of 1970, days having 86400 of
them, and nanoseconds into that second. A leap second is the second billion of
nanoseconds of the second it follows. -/
structure Instant where
  second : Int
  nano : Nat
  deriving DecidableEq

namespace Instant

/-- The number of nanoseconds in a second. -/
def billion : Nat := 1000000000

/-- The date of an instant. -/
def date (instant : Instant) : Date :=
  Date.ofDayNumber (instant.second / 86400)

/-- An instant outside a leap second, in one of the years 0 to 9999. -/
def IsOrdinary (instant : Instant) : Prop :=
  instant.nano < billion ∧ 0 ≤ instant.date.year ∧ instant.date.year ≤ 9999

/-! ## Writing -/

/-- A year in four digits; one that needs more, or lies before the year 0, has a
sign. -/
def yearDigits (year : Int) : List Char :=
  if 0 ≤ year ∧ year ≤ 9999 then paddedDigits 4 year.toNat
  else
    let digits := if year.natAbs ≤ 9999 then paddedDigits 4 year.natAbs
      else naturalDigits year.natAbs
    (if year < 0 then '-' else '+') :: digits

/-- The fraction of a second in the fewest groups of three digits. -/
def fractionDigits (nano : Nat) : List Char :=
  if nano = 0 then []
  else if nano % 1000000 = 0 then '.' :: paddedDigits 3 (nano / 1000000)
  else if nano % 1000 = 0 then '.' :: paddedDigits 6 (nano / 1000)
  else '.' :: paddedDigits 9 nano

/-- The characters of an instant, such as `2019-03-01T12:34:56.789Z`. -/
def chars (instant : Instant) : List Char :=
  let date := instant.date
  let time := (instant.second % 86400).toNat
  let leap := if instant.nano < billion then 0 else 1
  yearDigits date.year ++ '-' :: paddedDigits 2 date.month.toNat ++
    '-' :: paddedDigits 2 date.day.toNat ++ 'T' :: paddedDigits 2 (time / 3600) ++
    ':' :: paddedDigits 2 (time / 60 % 60) ++ ':' :: paddedDigits 2 (time % 60 + leap) ++
    fractionDigits (instant.nano - leap * billion) ++ ['Z']

/-- An instant as text. -/
def text (instant : Instant) : String :=
  String.ofList instant.chars

/-! ## Reading -/

/-- A reader takes what it reads off the front of the characters. -/
abbrev Reader := StateT (List Char) Option

namespace Reader

/-- Pass over blanks. -/
def blanks : Reader Unit :=
  modify (·.dropWhile isBlank)

/-- Read one given character. -/
def char (expected : Char) : Reader Unit := fun
  | [] => none
  | c :: rest => if c = expected then some ((), rest) else none

/-- Read a number of one to `most` digits. -/
def number (most : Nat) : Reader Nat := fun chars =>
  match takeDigits most chars with
  | ([], _) => none
  | (digits, rest) => some (valueOfDigits digits, rest)

/-- Read a number of two digits or fewer, behind any blanks. -/
def part : Reader Nat := do
  blanks
  number 2

/-- Read a separator, behind any blanks. -/
def separator (c : Char) : Reader Unit := do
  blanks
  char c

/-- Read a year: four digits at most, or any number of them behind a sign. -/
def year : Reader Int := do
  blanks
  match ← get with
  | '-' :: rest => set rest; return -(← number rest.length)
  | '+' :: rest => set rest; return ← number rest.length
  | _ => return ← number 4

/-- Read a date, which must be one that the calendar has. -/
def date : Reader Date := do
  let year ← year
  separator '-'
  let month ← part
  separator '-'
  let day ← part
  let date : Date := ⟨year, month, day⟩
  if date.isInRange && date.isValid then return date else failure

/-- Read what joins a date and a time. -/
def joint : Reader Unit := fun
  | c :: rest => if c = 'T' ∨ c = 't' ∨ c = ' ' then some ((), rest) else none
  | [] => none

/-- Read the fraction of a second, if there is one, as nanoseconds. Digits behind
the ninth are passed over. -/
def fraction : Reader Nat := fun
  | '.' :: rest =>
    match takeDigits 9 rest with
    | ([], _) => none
    | (digits, rest) =>
      some (valueOfDigits (digits ++ List.replicate (9 - digits.length) 0),
        rest.dropWhile fun c => (digitValue? c).isSome)
  | chars => some (0, chars)

/-- Read a time of day as its seconds and the nanoseconds behind them. The
sixtieth second of a minute is a leap second. -/
def time : Reader (Int × Nat) := do
  let hour ← part
  separator ':'
  let minute ← part
  separator ':'
  let second ← part
  let nano ← fraction
  if hour ≤ 23 ∧ minute ≤ 59 ∧ second ≤ 60 then
    let leap : Nat := if second = 60 then 1 else 0
    return (hour * 3600 + minute * 60 + second - leap, nano + leap * billion)
  else failure

/-- Read exactly two digits. -/
def twoDigits : Reader Nat := fun chars =>
  match takeDigits 2 chars with
  | ([tens, ones], rest) => some (tens * 10 + ones, rest)
  | _ => none

/-- Read a zone as the seconds by which its clocks are ahead. -/
def zone : Reader Int := do
  blanks
  let chars ← get
  if (chars.take 3).map Char.toLower = ['u', 't', 'c'] then
    set (chars.drop 3)
    return 0
  match chars with
  | c :: rest =>
    set rest
    if c = 'Z' ∨ c = 'z' then return 0
    let sign : Int ←
      if c = '+' then pure 1
      else if c = '-' ∨ c = '\u2212' then pure (-1)
      else failure
    let hours ← twoDigits
    modify (·.dropWhile fun c => c = ':' || isBlank c)
    let minutes ← twoDigits
    if hours < 24 ∧ minutes < 60 then return sign * (hours * 3600 + minutes * 60) else failure
  | [] => failure

/-- Read an instant. Its date must be in range both where its clock stands and in
the Universal Time. -/
def instant : Reader Instant := do
  let date ← date
  joint
  let (second, nano) ← time
  let ahead ← zone
  blanks
  let instant : Instant := ⟨date.dayNumber * 86400 + second - ahead, nano⟩
  if instant.date.isInRange then return instant else failure

end Reader

/-- The instant that a whole text stands for. -/
def ofText? (text : String) : Option Instant :=
  match Reader.instant.run text.toList with
  | some (instant, []) => some instant
  | _ => none

/-! ## Precision -/

/-- The start of the year 2000, from which microseconds are counted. -/
def startOf2000 : Int := 946684800

/-- The instant with the digits behind the microsecond cut off, towards the
start of the year 2000. -/
def toMicrosecond (instant : Instant) : Instant :=
  let micros := ((instant.second - startOf2000) * billion + instant.nano).tdiv 1000
  ⟨startOf2000 + micros / 1000000, (micros % 1000000).toNat * 1000⟩

end Instant

/-- When something happened: at an instant that was given, or at the `n`-th time
that the clock was read. Readings of the clock differ from each other and from
every given instant, and have no text of their own. -/
inductive Moment where
  | given (instant : Instant)
  | reading (n : Nat)
  deriving DecidableEq

namespace Moment

/-- The text of a moment. -/
def text : Moment → String
  | .given instant => instant.text
  | .reading _ => "<now>"

/-- The moment that a text gives. -/
def ofText? (text : String) : Option Moment :=
  (Instant.ofText? text).map .given

/-- Whether a moment lies in a year that can be read. The clock always stands in
one. -/
def isInRange : Moment → Bool
  | .given instant => instant.date.isInRange
  | .reading _ => true

/-- A given instant that is ordinary. -/
def IsOrdinary : Moment → Prop
  | .given instant => instant.IsOrdinary
  | .reading _ => False

/-- The moment at the precision of a microsecond. -/
def toMicrosecond : Moment → Moment
  | .given instant => .given instant.toMicrosecond
  | .reading n => .reading n

end Moment

end VariantCatalog.Calendar
