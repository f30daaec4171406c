/-
# Numbers of double precision

Measurements are carried through unchanged and never computed with, so a number
of double precision is its sixty-four bits and nothing else.  A decimal literal
is turned into one in a single rounding step wherever its digits and its power
of ten both have an exact double.
-/

namespace VariantCatalog

/-- A number of double precision, by its bits. -/
structure Double where
  bits : UInt64
  deriving DecidableEq

namespace Double

/-- Positive zero. -/
def zero : Double := ⟨0⟩

/-- The double nearest to an integer. -/
def ofInt (n : Int) : Double := ⟨(Float.ofInt n).toBits⟩

/-- The double nearest to a power of ten, up to the greatest finite one. -/
def powerOfTen (exponent : Nat) : Float := Float.ofScientific 1 false exponent

/-- The greatest power of ten that is a finite double. -/
def greatestPower : Nat := 308

/-- A number divided by a power of ten, in steps no greater than the greatest
finite power. -/
def divideByPower (value : Float) (exponent : Nat) : Float :=
  if exponent ≤ greatestPower then value / powerOfTen exponent
  else if value == 0 then value
  else divideByPower (value / powerOfTen greatestPower) (exponent - greatestPower)
termination_by exponent
decreasing_by simp only [greatestPower] at *; omega

/-- A number multiplied by a power of ten, if the result is finite. -/
def multiplyByPower? (value : Float) (exponent : Nat) : Option Float :=
  if value == 0 then some value
  else if greatestPower < exponent then none
  else
    let product := value * powerOfTen exponent
    if product.isInf then none else some product

/-- The double of `±significand * 10 ^ exponent`, if it is finite. -/
def ofDecimal? (negative : Bool) (significand : Nat) (exponent : Int) : Option Double :=
  let value := Float.ofNat significand
  let scaled :=
    if exponent < 0 then some (divideByPower value exponent.natAbs)
    else multiplyByPower? value exponent.natAbs
  scaled.map fun scaled => ⟨(if negative then -scaled else scaled).toBits⟩

/-- The hexadecimal digit of a number below sixteen. -/
def hexDigit (digit : Nat) : Char :=
  if digit < 10 then Char.ofNat ('0'.toNat + digit) else Char.ofNat ('a'.toNat + digit - 10)

/-- The last `width` hexadecimal digits of a number. -/
def hexDigits : Nat → Nat → List Char
  | 0, _ => []
  | width + 1, n => hexDigits width (n / 16) ++ [hexDigit (n % 16)]

/-- The bits of a double in sixteen hexadecimal digits. -/
def hex (d : Double) : String :=
  String.ofList (hexDigits 16 d.bits.toNat)

end Double

end VariantCatalog
