/-!
# Names in the old code page

Entry names that are not marked as UTF-8 are in code page 437.  The lower half of its characters is
ASCII.

## Main Definitions

* `upperHalf` - the characters of the bytes from 80 on
* `decodeCodePage` - the text of a byte sequence
-/

namespace ClassNaming.Archive

/-- The characters of the bytes from 80 on. -/
def upperHalf : Array Char :=
  ("ÇüéâäàåçêëèïîìÄÅÉæÆôöòûùÿÖÜ¢£¥₧ƒáíóúñÑªº¿⌐¬½¼¡«»░▒▓│┤╡╢╖╕╣║╗╝╜╛┐"
    ++ "└┴┬├─┼╞╟╚╔╩╦╠═╬╧╨╤╥╙╘╒╓╫╪┘┌█▄▌▐▀αßΓπΣσµτΦΘΩδ∞φε∩≡±≥≤⌠⌡÷≈°∙·√ⁿ²■\xa0").toList.toArray

/-- The character of a byte. -/
def codePageChar (byte : UInt8) : Char :=
  if byte < 0x80 then Char.ofNat byte.toNat
  else upperHalf.getD (byte.toNat - 0x80) ' '

/-- The text of a byte sequence. -/
def decodeCodePage (bytes : List UInt8) : String :=
  String.ofList (bytes.map codePageChar)

end ClassNaming.Archive
