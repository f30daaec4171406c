import VariantCatalog.Form.Event
import VariantCatalog.Form.Exchange
import VariantCatalog.Form.Request
import VariantCatalog.Json.Text
import VariantCatalog.Memory.Join
import VariantCatalog.Notice.Channel
import VariantCatalog.Notice.Bus
import VariantCatalog.Notice.Broadcast
import VariantCatalog.Proofs.Memory.Running
import VariantCatalog.Settings
import VariantCatalog.Sql.Connection
import VariantCatalog.Proofs.Memory.Stroke
import VariantCatalog.Proofs.Memory.Merge
import VariantCatalog.Proofs.Interleaving.System
import VariantCatalog.Proofs.Interleaving.Scene
import VariantCatalog.Proofs.Interleaving.Integrity
import VariantCatalog.Proofs.Memory.Descent
import VariantCatalog.Proofs.Interleaving.Order
import VariantCatalog.Proofs.Memory.Answers
import VariantCatalog.Proofs.Expansion.Odometer
import VariantCatalog.Proofs.Expansion.Walk
import VariantCatalog.Proofs.Operation.Creation
import VariantCatalog.Proofs.Interleaving.Service
import VariantCatalog.Proofs.Memory.Retirement
import VariantCatalog.Proofs.Operation.Archiving
import VariantCatalog.Proofs.Operation.Editing
import VariantCatalog.Proofs.Operation.Effect
import VariantCatalog.Proofs.Interleaving.Growth
import VariantCatalog.Proofs.Memory.Coherence
import VariantCatalog.Proofs.Memory.Upkeep
import VariantCatalog.Proofs.Operation.Upkeep
import VariantCatalog.Proofs.Interleaving.Lifespan
import VariantCatalog.Proofs.Interleaving.Course
import VariantCatalog.Proofs.Operation.Refusal
import VariantCatalog.Proofs.Interleaving.Failure
import VariantCatalog.Proofs.Interleaving.History
import VariantCatalog.Proofs.Interleaving.Overwriting
import VariantCatalog.Proofs.Memory.Attachment
import VariantCatalog.Proofs.Interleaving.Attachment
import VariantCatalog.Proofs.Memory.Fitting
import VariantCatalog.Proofs.Operation.Availability
import VariantCatalog.Proofs.Interleaving.Absence
import VariantCatalog.Proofs.Interleaving.Acceptance
import VariantCatalog.Proofs.Interleaving.Sequence
import VariantCatalog.Proofs.Memory.Story
import VariantCatalog.Proofs.Interleaving.Record
import VariantCatalog.Proofs.Operation.Cascade
import VariantCatalog.Proofs.Interleaving.Archival
import VariantCatalog.Proofs.Operation.Reading
import VariantCatalog.Proofs.Interleaving.Retrieval
import VariantCatalog.Proofs.Interleaving.Staleness
import VariantCatalog.Proofs.Interleaving.Serialization
import VariantCatalog.Proofs.Operation.Conversation
import VariantCatalog.Proofs.Operation.Verdict
import VariantCatalog.Proofs.Interleaving.Verdict
import VariantCatalog.Proofs.Operation.Deed
import VariantCatalog.Proofs.Interleaving.Provenance
import VariantCatalog.Proofs.Interleaving.Linkage
import VariantCatalog.Proofs.Interleaving.Installation
import VariantCatalog.Proofs.Operation.Stamping
import VariantCatalog.Proofs.Interleaving.Announcement
import VariantCatalog.Proofs.Interleaving.Independence
import VariantCatalog.Proofs.Interleaving.Leftover
import VariantCatalog.Proofs.Request.Validation
import VariantCatalog.Proofs.Memory.Presentation
import VariantCatalog.Proofs.Operation.Presentation
import VariantCatalog.Proofs.Interleaving.Presentation
import VariantCatalog.Proofs.Sql.Placement
import VariantCatalog.Proofs.Sql.Decoding
import VariantCatalog.Proofs.Sql.Storing
import VariantCatalog.Proofs.Sql.Agreement
import VariantCatalog.Proofs.Sql.Bridging
import VariantCatalog.Proofs.Interleaving.Patching
import VariantCatalog.Proofs.Interleaving.Amendment
import VariantCatalog.Proofs.Request.Spelling
import VariantCatalog.Proofs.Interleaving.Naming
import VariantCatalog.Proofs.Text.Digits
import VariantCatalog.Proofs.Text.Numeral
import VariantCatalog.Proofs.Request.Identifier
import VariantCatalog.Proofs.Sql.Resolution
import VariantCatalog.Proofs.Notice.Channel
import VariantCatalog.Proofs.Notice.Broadcast
import VariantCatalog.Proofs.Notice.Log
import VariantCatalog.Proofs.Notice.Account
import VariantCatalog.Proofs.Notice.Turning
import VariantCatalog.Proofs.Notice.Following
import VariantCatalog.Proofs.Notice.Accounting
import VariantCatalog.Proofs.Calendar.Civil
import VariantCatalog.Proofs.Calendar.Reading
import VariantCatalog.Proofs.Form.RoundTrip
import VariantCatalog.Proofs.Request.Environment
import VariantCatalog.Proofs.Expansion.Overflow
import VariantCatalog.Proofs.Memory.Drawing
import VariantCatalog.Proofs.Interleaving.Numbering
