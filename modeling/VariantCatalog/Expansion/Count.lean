/-
# Counting variants

An expansion makes one variant for each choice of one value per option, so the
count is a product of the numbers of values.  It is kept in sixty-four bits and
multiplied up from the left; the first product on the way that does not fit ends
the count, even if a later factor of zero would have made it small again.
-/

namespace VariantCatalog.Expansion

/-- Counts are natural numbers below this bound. -/
def countBound : Nat := 18446744073709551616

/-- The product of two counts, if it is a count. -/
def multiply? (a b : Nat) : Option Nat :=
  if a * b < countBound then some (a * b) else none

/-- The number of combinations for the given numbers of values. No options have
no combination. -/
def combinationCount? : List Nat → Option Nat
  | [] => some 0
  | counts => counts.foldlM multiply? 1

end VariantCatalog.Expansion
