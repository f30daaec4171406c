/-
# Lowercasing a text

Each letter becomes its lowercase letter, with two rules that look further than
one letter to one letter.  The dotted capital I becomes a small i followed by a
combining dot above.  The capital sigma becomes a final sigma at the end of a
word and a medial sigma elsewhere; it ends a word when, characters that are
ignorable for case apart, a cased letter stands before it and none after it.
-/

import VariantCatalog.Text.Letter

namespace VariantCatalog.Text

/-- Whether the nearest character that is not ignorable is a cased letter. -/
def nearestIsCased (chars : List Char) : Bool :=
  match chars.dropWhile isCaseIgnorable with
  | [] => false
  | c :: _ => isCased c

/-- The lowercase form of one character, given the characters `before` it, the
nearest first, and those `after` it. -/
def lowercaseChar (before : List Char) (c : Char) (after : List Char) : List Char :=
  if c = 'Σ' then
    [if nearestIsCased before && !nearestIsCased after then 'ς' else 'σ']
  else if c = 'İ' then ['i', '\u0307']
  else [lowercaseLetter c]

/-- Lowercase the characters, `before` being those already passed, the nearest
first. -/
def lowercaseFrom (before : List Char) : List Char → List Char
  | [] => []
  | c :: after => lowercaseChar before c after ++ lowercaseFrom (c :: before) after

/-- A text in lower case. -/
def lowercase (text : String) : String :=
  String.ofList (lowercaseFrom [] text.toList)

/-- A text with the letters `A` to `Z` in lower case and all else kept. -/
def lowercaseASCII (text : String) : String :=
  text.map Char.toLower

end VariantCatalog.Text
