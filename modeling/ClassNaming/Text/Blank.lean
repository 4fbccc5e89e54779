/-!
# Blanks

The characters that are seen as empty space only: the ends of lines, tabulators, and spaces of every
width (Unicode 17.0).

## Main Definitions

* `isBlank` - whether a character is one of them
* `withoutBlanks` - a text without the blanks around it
-/

namespace ClassNaming.Text

/-- Whether a character is nothing but empty space. -/
def isBlank (c : Char) : Bool :=
  let n := c.toNat
  (0x9 ≤ n && n ≤ 0xD) || (0x2000 ≤ n && n ≤ 0x200A)
    || [0x20, 0x85, 0xA0, 0x1680, 0x2028, 0x2029, 0x202F, 0x205F, 0x3000].contains n

/-- A text without the blanks around it. -/
def withoutBlanks (text : List Char) : List Char :=
  ((text.dropWhile isBlank).reverse.dropWhile isBlank).reverse

end ClassNaming.Text
