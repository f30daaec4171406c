/-
# Connecting to a database

An address of a database begins with a scheme.  A database may refuse a connection
like any command.  A pool of connections that is closed gives none, so nothing is
ever sent by it.
-/

import VariantCatalog.Sql.Store

namespace VariantCatalog.Sql

/-- Whether a character may stand in a scheme behind its first one. -/
def isSchemeChar (c : Char) : Bool :=
  c.isAlphanum || c = '+' || c = '-' || c = '.'

/-- Whether an address begins with a scheme: a letter, more characters of a scheme,
and a colon. -/
def hasScheme (address : String) : Bool :=
  match address.toList with
  | [] => false
  | first :: rest => first.isAlpha && (rest.dropWhile isSchemeChar).head? = some ':'

/-- Connect to a database, which may refuse the connection. -/
def connect (address : String) (refusal : Option Refusal) : Except StoreError Unit :=
  if hasScheme address then
    match refusal with
    | none => .ok ()
    | some refusal => .error (Failure.inStep "connect" (.refused refusal))
  else .error (Failure.inStep "connect" .addressWithoutScheme)

namespace ClosedPool

/-- A closed pool as a store. It opens no transaction, so there is none to answer
in. -/
def store : Store Unit Empty where
  begin state := (.error (Failure.inStep "begin_transaction" .poolClosed), state)
  answer _ tx := tx.elim
  commit tx := tx.elim
  rollback tx := tx.elim

/-- A closed pool sets up no tables. -/
def migrate : Except StoreError Unit :=
  .error (Failure.inStep "migrate" .poolClosed)

end ClosedPool

end VariantCatalog.Sql
