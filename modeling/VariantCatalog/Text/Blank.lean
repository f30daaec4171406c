/-
# Blank characters

A text counts as blank when nothing is left of it after white space is taken
off its ends.  White space is the Unicode property `White_Space`: the twenty-five
characters below and no others, so that a zero-width space, a byte order mark or
an information separator is an ordinary character.
-/

namespace VariantCatalog.Text

/-- The Unicode property `White_Space`. -/
def isBlank (c : Char) : Bool :=
  let code := c.toNat
  (0x09 ≤ code && code ≤ 0x0D) || code = 0x20 || code = 0x85 || code = 0xA0 || code = 0x1680 ||
    (0x2000 ≤ code && code ≤ 0x200A) || code = 0x2028 || code = 0x2029 || code = 0x202F ||
    code = 0x205F || code = 0x3000

/-- The characters between the first and the last one that is not blank. -/
def trimChars (chars : List Char) : List Char :=
  ((chars.dropWhile isBlank).reverse.dropWhile isBlank).reverse

/-- A text without the white space at its ends. -/
def trim (text : String) : String :=
  String.ofList (trimChars text.toList)

/-- A text that holds white space only, or nothing at all. -/
def isBlankText (text : String) : Bool :=
  text.toList.all isBlank

end VariantCatalog.Text
