import Roster.Text.Split

/-!
# Blanks and words

The blanks of Unicode, and the words of a text: its maximal runs of characters
that are not blanks.
-/

namespace Roster.Text

/-- The characters with the property White_Space. -/
def isBlank (c : Char) : Bool :=
  let n := c.toNat
  (0x9 ≤ n && n ≤ 0xd) || n = 0x20 || n = 0x85 || n = 0xa0 || n = 0x1680 ||
    (0x2000 ≤ n && n ≤ 0x200a) || n = 0x2028 || n = 0x2029 || n = 0x202f || n = 0x205f ||
    n = 0x3000

/-- The words of a text, in order. -/
def words (text : String) : List String :=
  ((cut isBlank text.toList).filter (!·.isEmpty)).map String.ofList

/-- The text without the blanks at its two ends. -/
def trim (text : String) : String :=
  String.ofList (((text.toList.dropWhile isBlank).reverse.dropWhile isBlank).reverse)

end Roster.Text
