/-
# JSON values as text

A text is read by its tokens.  Lists and objects that are open are frames of a
stack, and what may come next is an `Expectation`; at most 127 frames may be
open.  Where an object names a field twice, the last one counts.  Doubles are
written as the text of their bits.
-/

import VariantCatalog.Json.Token

namespace VariantCatalog.Json

/-! ## Reading -/

/-- A list or an object that is still open, with what it holds so far in
reverse. An object remembers the name of the field whose value comes next. -/
inductive Frame where
  | list (items : List Json)
  | object (fields : Fields) (name : String)

/-- What may come next. -/
inductive Expectation where
  | value
  | itemOrClose
  | nameOrClose
  | name
  | colon
  | separator
  | nothing (result : Json)

/-- A text that is being read: the open frames, the innermost first. -/
structure Parse where
  frames : List Frame
  expectation : Expectation

/-- The greatest number of frames that may be open at once. -/
def greatestDepth : Nat := 127

namespace Parse

/-- A value is complete. -/
def complete (frames : List Frame) (value : Json) : Parse :=
  match frames with
  | [] => ⟨[], .nothing value⟩
  | .list items :: rest => ⟨.list (value :: items) :: rest, .separator⟩
  | .object fields name :: rest =>
    ⟨.object ((name, value) :: fields.filter (·.1 ≠ name)) name :: rest, .separator⟩

/-- A list or an object is opened. -/
def opened? (frames : List Frame) (frame : Frame) (expectation : Expectation) : Option Parse :=
  if frames.length < greatestDepth then some ⟨frame :: frames, expectation⟩ else none

/-- A token where a value may stand. -/
def value? (frames : List Frame) : Token → Option Parse
  | .openList => opened? frames (.list []) .itemOrClose
  | .openObject => opened? frames (.object [] "") .nameOrClose
  | .text value => some (complete frames (.text value))
  | .scalar value => some (complete frames value)
  | _ => none

/-- A token where the name of a field may stand. -/
def name? (frames : List Frame) : Token → Option Parse
  | .text name =>
    match frames with
    | .object fields _ :: rest => some ⟨.object fields name :: rest, .colon⟩
    | _ => none
  | _ => none

/-- A token that closes the innermost frame. -/
def close? (frames : List Frame) : Token → Option Parse
  | .closeList =>
    match frames with
    | .list items :: rest => some (complete rest (.list items.reverse))
    | _ => none
  | .closeObject =>
    match frames with
    | .object fields _ :: rest => some (complete rest (.object fields.reverse))
    | _ => none
  | _ => none

/-- A token behind a complete item or field. -/
def separator? (frames : List Frame) : Token → Option Parse
  | .comma =>
    match frames with
    | .list _ :: _ => some ⟨frames, .value⟩
    | .object _ _ :: _ => some ⟨frames, .name⟩
    | [] => none
  | token => close? frames token

/-- Read one token. -/
def step (parse : Parse) (token : Token) : Option Parse :=
  match parse.expectation with
  | .value => value? parse.frames token
  | .itemOrClose => (close? parse.frames token).or (value? parse.frames token)
  | .nameOrClose => (close? parse.frames token).or (name? parse.frames token)
  | .name => name? parse.frames token
  | .colon =>
    match token with
    | .colon => some ⟨parse.frames, .value⟩
    | _ => none
  | .separator => separator? parse.frames token
  | .nothing _ => none

end Parse

/-- The value that a whole text stands for. -/
def ofText? (text : String) : Option Json := do
  let tokens ← Token.ofChars? text.toList
  match ← tokens.foldlM Parse.step ⟨[], .value⟩ with
  | ⟨_, .nothing result⟩ => some result
  | _ => none

/-! ## Writing -/

/-- A character inside a quoted text. Besides quotes, backslashes and control
characters, those characters are escaped that some readers take for line ends. -/
def quotedChar (c : Char) : String :=
  if c = '"' then "\\\""
  else if c = '\\' then "\\\\"
  else if c = '\n' then "\\n"
  else if c = '\r' then "\\r"
  else if c = '\t' then "\\t"
  else if c.toNat < 0x20 ∨ c.toNat = 0x85 ∨ c.toNat = 0x2028 ∨ c.toNat = 0x2029 then
    "\\u" ++ String.ofList (Double.hexDigits 4 c.toNat)
  else String.singleton c

/-- Write a quoted text behind what is written already. -/
def writeQuoted (out : String) (text : String) : String :=
  (text.toList.foldl (fun out c => out ++ quotedChar c) (out ++ "\"")) ++ "\""

mutual

/-- Write a value behind what is written already. -/
def write (out : String) : Json → String
  | .null => out ++ "null"
  | .bool true => out ++ "true"
  | .bool false => out ++ "false"
  | .integer value => out ++ Text.integerText value
  | .real value => writeQuoted out value.hex
  | .text value => writeQuoted out value
  | .list items => writeItems (out ++ "[") "" items ++ "]"
  | .object fields => writeFields (out ++ "\x7b") "" fields ++ "\x7d"

/-- Write the items of a list, the first behind `mark`. -/
def writeItems (out mark : String) : List Json → String
  | [] => out
  | item :: rest => writeItems (write (out ++ mark) item) "," rest

/-- Write the fields of an object, the first behind `mark`. -/
def writeFields (out mark : String) : List (String × Json) → String
  | [] => out
  | (name, value) :: rest =>
    writeFields (write (writeQuoted (out ++ mark) name ++ ":") value) "," rest

end

/-- A value as text, on one line. -/
def toText (value : Json) : String := write "" value

end VariantCatalog.Json
