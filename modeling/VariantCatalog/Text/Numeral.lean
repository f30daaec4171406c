/-
# Whole numbers as text

A numeral is an optional sign and at least one ASCII digit.  It is read into a
range of integers, digit by digit from the left, and the first problem met is
the one reported: a character that is no digit before the overflow it would
cause, an overflow before the bad character behind it.  A number is written in
the fewest digits, or padded with zeros to a fixed width.
-/

namespace VariantCatalog.Text

/-- Why a text is no numeral of a range. -/
inductive NumeralError where
  | empty
  | invalidDigit
  | tooLarge
  | tooSmall
  deriving DecidableEq

/-- The wording of each problem. -/
def NumeralError.message : NumeralError → String
  | .empty => "cannot parse integer from empty string"
  | .invalidDigit => "invalid digit found in string"
  | .tooLarge => "number too large to fit in target type"
  | .tooSmall => "number too small to fit in target type"

/-- The integers from `least` to `greatest`. -/
structure IntegerRange where
  least : Int
  greatest : Int
  deriving DecidableEq

namespace IntegerRange

/-- Signed integers of 64 bits: ids and amounts of money. -/
def signed64 : IntegerRange := ⟨-9223372036854775808, 9223372036854775807⟩

/-- Signed integers of 32 bits: quantities. -/
def signed32 : IntegerRange := ⟨-2147483648, 2147483647⟩

/-- Natural numbers of 64 bits: counts. -/
def unsigned64 : IntegerRange := ⟨0, 18446744073709551615⟩

/-- Natural numbers of 32 bits: the size of a connection pool. -/
def unsigned32 : IntegerRange := ⟨0, 4294967295⟩

/-- Whether the range holds the integer. -/
def holds (range : IntegerRange) (n : Int) : Bool :=
  range.least ≤ n && n ≤ range.greatest

end IntegerRange

/-- The value of an ASCII digit. -/
def digitValue? (c : Char) : Option Nat :=
  if '0' ≤ c ∧ c ≤ '9' then some (c.toNat - '0'.toNat) else none

/-- Add one digit behind the value read so far, away from zero. -/
def appendDigit (range : IntegerRange) (negative : Bool) (value : Int) (digit : Nat) :
    Except NumeralError Int :=
  if negative then
    if value * 10 - digit < range.least then .error .tooSmall else .ok (value * 10 - digit)
  else
    if range.greatest < value * 10 + digit then .error .tooLarge else .ok (value * 10 + digit)

/-- Read the digits behind a value already read. -/
def readDigits (range : IntegerRange) (negative : Bool) : Int → List Char → Except NumeralError Int
  | value, [] => .ok value
  | value, c :: rest =>
    match digitValue? c with
    | none => .error .invalidDigit
    | some digit =>
      match appendDigit range negative value digit with
      | .error problem => .error problem
      | .ok next => readDigits range negative next rest

/-- Read the digits behind a sign, which may not stand alone. -/
def readSigned (range : IntegerRange) (negative : Bool) (digits : List Char) :
    Except NumeralError Int :=
  if digits.isEmpty then .error .invalidDigit else readDigits range negative 0 digits

/-- Read a numeral. A minus sign is a sign only where the range has negative
numbers; elsewhere it is a character that is no digit. -/
def readNumeral (range : IntegerRange) : List Char → Except NumeralError Int
  | [] => .error .empty
  | '+' :: digits => readSigned range false digits
  | '-' :: digits =>
    if range.least < 0 then readSigned range true digits else .error .invalidDigit
  | digits => readDigits range false 0 digits

/-- The ASCII digit of a number below ten. -/
def digitChar (digit : Nat) : Char :=
  Char.ofNat ('0'.toNat + digit)

/-- The last `width` decimal digits of a number. -/
def paddedDigits : Nat → Nat → List Char
  | 0, _ => []
  | width + 1, n => paddedDigits width (n / 10) ++ [digitChar (n % 10)]

/-- The decimal digits of a number, without leading zeros. -/
def naturalDigits (n : Nat) : List Char :=
  if n < 10 then [digitChar n] else naturalDigits (n / 10) ++ [digitChar (n % 10)]
termination_by n

/-- The decimal digits of an integer behind a minus sign if it is negative. -/
def integerDigits (n : Int) : List Char :=
  if n < 0 then '-' :: naturalDigits n.natAbs else naturalDigits n.natAbs

/-- An integer as text. -/
def integerText (n : Int) : String :=
  String.ofList (integerDigits n)

/-- The number that a row of decimal digits stands for. -/
def valueOfDigits (digits : List Nat) : Nat :=
  digits.foldl (fun value digit => value * 10 + digit) 0

/-- Split off the digits at the front, at most `most` of them. -/
def takeDigits : Nat → List Char → List Nat × List Char
  | 0, chars => ([], chars)
  | _ + 1, [] => ([], [])
  | most + 1, c :: rest =>
    match digitValue? c with
    | none => ([], c :: rest)
    | some digit => ((digit :: (takeDigits most rest).1), (takeDigits most rest).2)

end VariantCatalog.Text
