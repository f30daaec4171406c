/-
# The tokens of a JSON text

A text is cut into tokens in one pass over its characters.  What the pass has to
remember is its `Mode`: between tokens, inside a quoted text, inside an escape,
or inside a number or a word.  Texts may not hold control characters, and half of
a surrogate pair may not stand alone.
-/

import VariantCatalog.Json.Value

namespace VariantCatalog.Json

open VariantCatalog.Text

/-- A token. Scalars other than texts are tokens that carry their value. -/
inductive Token where
  | openList
  | closeList
  | openObject
  | closeObject
  | comma
  | colon
  | text (value : String)
  | scalar (value : Json)

/-! ## Numbers -/

/-- The digits of a literal that sixty-four bits hold, and the power of ten that
the last of them stands for. -/
structure Significand where
  value : Nat
  exponent : Int
  full : Bool

/-- Whether one more digit fits in sixty-four bits. -/
def Significand.fits (s : Significand) (digit : Nat) : Bool :=
  IntegerRange.unsigned64.holds (s.value * 10 + digit : Nat)

/-- Add a digit before the decimal point. From the first one that does not fit,
digits only raise the power of ten. -/
def Significand.whole (s : Significand) (digit : Nat) : Significand :=
  if !s.full && s.fits digit then { s with value := s.value * 10 + digit }
  else { s with exponent := s.exponent + 1, full := true }

/-- Add a digit behind the decimal point. From the first one that does not fit,
digits are dropped. -/
def Significand.fraction (s : Significand) (digit : Nat) : Significand :=
  if !s.full && s.fits digit then
    { s with value := s.value * 10 + digit, exponent := s.exponent - 1 }
  else { s with full := true }

/-- The parts of a number literal. -/
structure NumberLiteral where
  negative : Bool
  whole : List Nat
  fraction : Option (List Nat)
  exponent : Option Int

/-- Read the digits at the front, of which there must be one. -/
def someDigits (chars : List Char) : Option (List Nat × List Char) :=
  match takeDigits chars.length chars with
  | ([], _) => none
  | (digits, rest) => some (digits, rest)

/-- Read the exponent behind its letter, to the end of the literal. -/
def readExponent (chars : List Char) : Option Int :=
  let (sign, digits) : Int × List Char :=
    match chars with
    | '-' :: rest => (-1, rest)
    | '+' :: rest => (1, rest)
    | rest => (1, rest)
  match someDigits digits with
  | some (digits, []) => some (sign * valueOfDigits digits)
  | _ => none

/-- Cut a literal into its parts. The part before the decimal point has no
leading zero, and every part has a digit. -/
def NumberLiteral.ofChars? (chars : List Char) : Option NumberLiteral := do
  let (negative, chars) :=
    match chars with
    | '-' :: rest => (true, rest)
    | rest => (false, rest)
  let (whole, rest) ← someDigits chars
  if whole.head? = some 0 ∧ whole.length ≠ 1 then failure
  let (fraction, rest) : Option (List Nat) × List Char ←
    match rest with
    | '.' :: rest => (someDigits rest).map fun (digits, rest) => (some digits, rest)
    | rest => some (none, rest)
  match rest with
  | [] => return ⟨negative, whole, fraction, none⟩
  | c :: rest =>
    if c = 'e' ∨ c = 'E' then return ⟨negative, whole, fraction, some (← readExponent rest)⟩
    else failure

/-- The value of a literal: an integer if it has neither fraction nor exponent,
is not a negative zero, and fits in sixty-four bits; otherwise a double, which
must be finite. -/
def NumberLiteral.value? (literal : NumberLiteral) : Option Json :=
  let natural := valueOfDigits literal.whole
  let isInteger := literal.fraction.isNone && literal.exponent.isNone &&
    (if literal.negative then natural ≠ 0 && IntegerRange.signed64.holds (-natural)
      else IntegerRange.unsigned64.holds natural)
  if isInteger then some (.integer (if literal.negative then -natural else natural))
  else
    let whole := literal.whole.foldl Significand.whole ⟨0, 0, false⟩
    let digits := (literal.fraction.getD []).foldl Significand.fraction { whole with full := false }
    (Double.ofDecimal? literal.negative digits.value
      (digits.exponent + literal.exponent.getD 0)).map .real

/-- The value of a number's characters. -/
def numberValue? (chars : List Char) : Option Json :=
  (NumberLiteral.ofChars? chars).bind NumberLiteral.value?

/-- The value of a word. -/
def wordValue? (chars : List Char) : Option Json :=
  if chars = ['n', 'u', 'l', 'l'] then some .null
  else if chars = ['t', 'r', 'u', 'e'] then some (.bool true)
  else if chars = ['f', 'a', 'l', 's', 'e'] then some (.bool false)
  else none

/-! ## The pass over the characters -/

/-- What the pass is inside of. Characters already read are kept in reverse. In
an escape, `high` is the leading half of a surrogate pair that still waits for
its trailing half. -/
inductive Mode where
  | between
  | text (done : List Char)
  | escape (done : List Char) (high : Option Nat)
  | code (done : List Char) (high : Option Nat) (digits : List Nat)
  | half (done : List Char) (high : Nat)
  | number (done : List Char)
  | word (done : List Char)

/-- The pass: its mode, and the tokens already cut off, in reverse. -/
structure Lexer where
  mode : Mode
  tokens : List Token

/-- The value of a hexadecimal digit. -/
def hexValue? (c : Char) : Option Nat :=
  if '0' ≤ c ∧ c ≤ '9' then some (c.toNat - '0'.toNat)
  else if 'a' ≤ c ∧ c ≤ 'f' then some (c.toNat - 'a'.toNat + 10)
  else if 'A' ≤ c ∧ c ≤ 'F' then some (c.toNat - 'A'.toNat + 10)
  else none

/-- The character that an escape of one letter stands for. -/
def escaped? (c : Char) : Option Char :=
  if c = '"' ∨ c = '\\' ∨ c = '/' then some c
  else if c = 'b' then some '\x08'
  else if c = 'f' then some '\x0c'
  else if c = 'n' then some '\n'
  else if c = 'r' then some '\r'
  else if c = 't' then some '\t'
  else none

/-- What follows a complete code unit of four hexadecimal digits. -/
def Mode.ofUnit? (done : List Char) (high : Option Nat) (unit : Nat) : Option Mode :=
  match high with
  | none =>
    if 0xD800 ≤ unit ∧ unit ≤ 0xDBFF then some (.half done unit)
    else if 0xDC00 ≤ unit ∧ unit ≤ 0xDFFF then none
    else some (.text (Char.ofNat unit :: done))
  | some high =>
    if 0xDC00 ≤ unit ∧ unit ≤ 0xDFFF then
      some (.text (Char.ofNat (0x10000 + (high - 0xD800) * 0x400 + (unit - 0xDC00)) :: done))
    else none

/-- A character that may belong to a number. -/
def isNumberChar (c : Char) : Bool :=
  (digitValue? c).isSome || c = '-' || c = '+' || c = '.' || c = 'e' || c = 'E'

/-- Read a character between two tokens. -/
def Lexer.between (tokens : List Token) (c : Char) : Option Lexer :=
  if c = ' ' ∨ c = '\t' ∨ c = '\n' ∨ c = '\r' then some ⟨.between, tokens⟩
  else if c = '[' then some ⟨.between, .openList :: tokens⟩
  else if c = ']' then some ⟨.between, .closeList :: tokens⟩
  else if c = '\x7b' then some ⟨.between, .openObject :: tokens⟩
  else if c = '\x7d' then some ⟨.between, .closeObject :: tokens⟩
  else if c = ',' then some ⟨.between, .comma :: tokens⟩
  else if c = ':' then some ⟨.between, .colon :: tokens⟩
  else if c = '"' then some ⟨.text [], tokens⟩
  else if c = '-' ∨ (digitValue? c).isSome then some ⟨.number [c], tokens⟩
  else if 'a' ≤ c ∧ c ≤ 'z' then some ⟨.word [c], tokens⟩
  else none

/-- Read one character. A number or a word ends before the first character that
cannot belong to it. -/
def Lexer.step (lexer : Lexer) (c : Char) : Option Lexer :=
  match lexer.mode with
  | .between => Lexer.between lexer.tokens c
  | .text done =>
    if c = '"' then some ⟨.between, .text (String.ofList done.reverse) :: lexer.tokens⟩
    else if c = '\\' then some { lexer with mode := .escape done none }
    else if c.toNat < 0x20 then none
    else some { lexer with mode := .text (c :: done) }
  | .escape done high =>
    if c = 'u' then some { lexer with mode := .code done high [] }
    else if high.isSome then none
    else (escaped? c).map fun c => { lexer with mode := .text (c :: done) }
  | .code done high digits => do
    let digits := digits ++ [← hexValue? c]
    if digits.length < 4 then return { lexer with mode := .code done high digits }
    else
      let unit := digits.foldl (fun value digit => value * 16 + digit) 0
      return { lexer with mode := ← Mode.ofUnit? done high unit }
  | .half done high =>
    if c = '\\' then some { lexer with mode := .escape done (some high) } else none
  | .number done =>
    if isNumberChar c then some { lexer with mode := .number (c :: done) }
    else do
      Lexer.between (.scalar (← numberValue? done.reverse) :: lexer.tokens) c
  | .word done =>
    if 'a' ≤ c ∧ c ≤ 'z' then some { lexer with mode := .word (c :: done) }
    else do
      Lexer.between (.scalar (← wordValue? done.reverse) :: lexer.tokens) c

/-- The tokens of a text, if it consists of tokens. A line end behind the text
ends a number or a word that is still open. -/
def Token.ofChars? (chars : List Char) : Option (List Token) :=
  match (chars ++ ['\n']).foldlM Lexer.step ⟨.between, []⟩ with
  | some ⟨.between, tokens⟩ => some tokens.reverse
  | _ => none

end VariantCatalog.Json
