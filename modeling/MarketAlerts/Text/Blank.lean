/-!
# Blanks

The characters with the property `White_Space`, and texts without them at their ends.
-/

namespace MarketAlerts.Text

/-- Whether a character is a blank, a line break or another white space. -/
def isBlank (c : Char) : Bool :=
  let n := c.toNat
  (9 ≤ n && n ≤ 13) || n == 0x20 || n == 0x85 || n == 0xA0 || n == 0x1680
    || (0x2000 ≤ n && n ≤ 0x200A) || n == 0x2028 || n == 0x2029 || n == 0x202F || n == 0x205F
    || n == 0x3000

/-- The text without blanks at its front. -/
def skipBlanks (text : List Char) : List Char := text.dropWhile isBlank

/-- The text without blanks at its ends. -/
def trim (text : String) : String :=
  String.ofList (skipBlanks (skipBlanks text.toList).reverse).reverse

/-- Whether a text holds nothing but blanks. -/
def isBlankText (text : String) : Bool := text.toList.all isBlank

end MarketAlerts.Text
