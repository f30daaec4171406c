/-
# The lifecycle of a row

Rows are never removed.  A row is live until it carries the moment at which it
was archived, and that moment is stamped once and never overwritten.
-/

import VariantCatalog.Calendar.Instant

namespace VariantCatalog

open VariantCatalog.Calendar

/-- When a row was created, last edited and archived. -/
structure Lifecycle where
  createdOn : Moment
  updatedOn : Option Moment
  archivedOn : Option Moment
  deriving DecidableEq

namespace Lifecycle

/-- The lifecycle of a row that is new. -/
def created (moment : Moment) : Lifecycle := ⟨moment, none, none⟩

/-- A row is live until it is archived. -/
def isLive (lifecycle : Lifecycle) : Bool := lifecycle.archivedOn.isNone

/-- The lifecycle after an edit. -/
def update (lifecycle : Lifecycle) (moment : Moment) : Lifecycle :=
  { lifecycle with updatedOn := some moment }

/-- The lifecycle after archiving. A row that is archived already keeps its
stamp. -/
def archive (lifecycle : Lifecycle) (moment : Moment) : Lifecycle :=
  if lifecycle.isLive then { lifecycle with archivedOn := some moment } else lifecycle

end Lifecycle

end VariantCatalog
