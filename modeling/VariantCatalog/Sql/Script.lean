/-
# A scripted database

A `Script` knows the replies to the commands to come and records the commands that
it was sent.  Commands that begin and end transactions have replies of their own,
which are used up over the whole conversation; where none is prepared they succeed.
Any other command without a prepared reply is refused.
-/

import VariantCatalog.Sql.Peer

namespace VariantCatalog.Sql

/-- The replies prepared for a conversation, and the commands sent in it so far. -/
structure Script where
  replies : List Reply
  beginnings : List Reply
  commits : List Reply
  rollbacks : List Reply
  sent : List Command
  deriving DecidableEq

namespace Script

/-- The refusal of a command without a prepared reply. -/
def exhausted : Refusal := ⟨"XX000", "script exhausted", none⟩

/-- The reply of a command that succeeds and returns nothing. -/
def success : Reply := .affected 0

/-- The reply to a command, and the script behind it. -/
def reply (script : Script) : Statement → Reply × Script
  | .begin =>
    (script.beginnings.headD success, { script with beginnings := script.beginnings.tail })
  | .commit => (script.commits.headD success, { script with commits := script.commits.tail })
  | .rollback =>
    (script.rollbacks.headD success, { script with rollbacks := script.rollbacks.tail })
  | _ =>
    (script.replies.headD (.refused exhausted), { script with replies := script.replies.tail })

/-- The script as a database. -/
def peer : Peer Script := fun command script =>
  match script.reply command.statement with
  | (reply, script) => (reply, { script with sent := script.sent ++ [command] })

/-- The script with other replies to the commands to come, and none sent. -/
def prepare (script : Script) (replies : List Reply) : Script :=
  { script with replies, sent := [] }

end Script

end VariantCatalog.Sql
