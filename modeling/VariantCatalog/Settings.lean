/-
# Settings from the environment

The settings of a catalog are read from environment variables, each with a
default except for the address of the database.  The variables are read in a
fixed order, and the first one that is missing or invalid is reported.
-/

import VariantCatalog.Text.Blank
import VariantCatalog.Text.Lowercase
import VariantCatalog.Text.Numeral

namespace VariantCatalog

open VariantCatalog.Text

/-- How log lines are written: an object on each line, or spread out for a
reader. -/
inductive LogFormat where
  | json
  | pretty
  deriving DecidableEq

namespace LogFormat

/-- The name of a format. -/
def name : LogFormat → String
  | .json => "Json"
  | .pretty => "Pretty"

/-- A word that names no format. -/
structure Unknown where
  word : String
  deriving DecidableEq

/-- The wording of an unknown format. -/
def Unknown.message (unknown : Unknown) : String :=
  "unknown log format '" ++ unknown.word ++ "' (expected 'json' or 'pretty')"

/-- The format that a text names, blanks at its ends and the case of ASCII letters
apart. -/
def ofText (text : String) : Except Unknown LogFormat :=
  let word := lowercaseASCII (trim text)
  if word = "json" then .ok .json
  else if word = "pretty" then .ok .pretty
  else .error ⟨word⟩

end LogFormat

/-- A variable of the environment that settings are read from. -/
inductive Setting where
  | databaseURL
  | databaseConnections
  | variantLimit
  | logFormat
  deriving DecidableEq

/-- The name of a variable in the environment. -/
def Setting.name : Setting → String
  | .databaseURL => "DATABASE_URL"
  | .databaseConnections => "FORGECART_DB_MAX_CONNECTIONS"
  | .variantLimit => "FORGECART_MAX_VARIANTS"
  | .logFormat => "FORGECART_LOG_FORMAT"

/-- Why a variable has no usable value. -/
inductive SettingFault where
  | notNumeral (problem : NumeralError)
  | noConnection
  | unknownFormat (unknown : LogFormat.Unknown)
  deriving DecidableEq

/-- The wording of each fault. -/
def SettingFault.message : SettingFault → String
  | .notNumeral problem => problem.message
  | .noConnection => "pool needs at least one connection"
  | .unknownFormat unknown => unknown.message

/-- Why settings cannot be read: a variable that must be set is not, or one has an
invalid value. -/
inductive SettingsError where
  | missing (setting : Setting)
  | invalid (setting : Setting) (value : String) (fault : SettingFault)
  deriving DecidableEq

namespace SettingsError

/-- The name of the kind of error. -/
def name : SettingsError → String
  | .missing _ => "Missing"
  | .invalid .. => "Invalid"

/-- The text of an error. -/
def message : SettingsError → String
  | .missing setting => setting.name ++ " must be set"
  | .invalid setting value fault =>
    setting.name ++ " has an invalid value '" ++ value ++ "': " ++ fault.message

end SettingsError

/-- The settings of a catalog. Without a limit, a creation may make any number of
variants. -/
structure Settings where
  databaseURL : String
  databaseConnections : Nat
  variantLimit : Option Nat
  logFormat : LogFormat
  deriving DecidableEq

namespace Settings

/-- The size of the connection pool unless the environment says otherwise. -/
def defaultConnections : Nat := 10

/-- The greatest number of variants unless the environment says otherwise. -/
def defaultVariantLimit : Nat := 10000

/-- An environment: the value of each variable that is set. -/
abbrev Environment := String → Option String

/-- Read the address of the database, which may not be empty. -/
def readDatabaseURL (environment : Environment) : Except SettingsError String :=
  match environment Setting.databaseURL.name with
  | none => .error (.missing .databaseURL)
  | some url => if url.isEmpty then .error (.missing .databaseURL) else .ok url

/-- Read a count, blanks at the ends of its text apart. -/
def readCount (environment : Environment) (setting : Setting) (range : IntegerRange)
    (default : Nat) : Except SettingsError Nat :=
  match environment setting.name with
  | none => .ok default
  | some value =>
    match readNumeral range (trimChars value.toList) with
    | .error problem => .error (.invalid setting value (.notNumeral problem))
    | .ok count => .ok count.toNat

/-- Read the size of the connection pool, which is at least one. -/
def readConnections (environment : Environment) : Except SettingsError Nat :=
  match readCount environment .databaseConnections .unsigned32 defaultConnections with
  | .error error => .error error
  | .ok 0 => .error (.invalid .databaseConnections "0" .noConnection)
  | .ok count => .ok count

/-- Read the format of the log. -/
def readLogFormat (environment : Environment) : Except SettingsError LogFormat :=
  match environment Setting.logFormat.name with
  | none => .ok .json
  | some value =>
    match LogFormat.ofText value with
    | .error unknown => .error (.invalid .logFormat value (.unknownFormat unknown))
    | .ok format => .ok format

/-- Read all settings. A limit of zero variants stands for no limit. -/
def ofEnvironment (environment : Environment) : Except SettingsError Settings := do
  let databaseURL ← readDatabaseURL environment
  let databaseConnections ← readConnections environment
  let limit ← readCount environment .variantLimit .unsigned64 defaultVariantLimit
  let logFormat ← readLogFormat environment
  return {
    databaseURL
    databaseConnections
    variantLimit := if limit = 0 then none else some limit
    logFormat }

end Settings

end VariantCatalog
