/-
# The names of a variant

A variant is named after the values it is made of: its SKU continues the prefix
of its root with the values in lower case, and its summary lists each option with
its value as it was written.
-/

import VariantCatalog.Text.Lowercase

namespace VariantCatalog.Expansion

open VariantCatalog.Text

/-- What the chosen values contribute to the names of a variant. -/
structure VariantNaming where
  skuSuffix : String
  summary : String
  deriving DecidableEq

namespace VariantNaming

/-- The naming for pairs of an option's name and the value chosen for it. -/
def ofPairs (pairs : List (String × String)) : VariantNaming where
  skuSuffix := "_".intercalate (pairs.map fun pair => lowercase pair.2)
  summary := ", ".intercalate (pairs.map fun pair => pair.1 ++ ": " ++ pair.2)

/-- The SKU of the variant under the prefix of its root. -/
def sku (naming : VariantNaming) (skuPrefix : String) : String :=
  skuPrefix ++ "_" ++ naming.skuSuffix

end VariantNaming

end VariantCatalog.Expansion
