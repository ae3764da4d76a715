/-!
# Code page 437

The character set of old archives: ASCII, and above it letters, box drawing and signs.
-/

set_option autoImplicit false

namespace ClassLattice.Text

/-- The characters of the upper half of the code page. -/
def codePage437 : List Char :=
  ("ÇüéâäàåçêëèïîìÄÅÉæÆôöòûùÿÖÜ¢£¥₧ƒ" ++ "áíóúñÑªº¿⌐¬½¼¡«»░▒▓│┤╡╢╖╕╣║╗╝╜╛┐"
    ++ "└┴┬├─┼╞╟╚╔╩╦╠═╬╧╨╤╥╙╘╒╓╫╪┘┌█▄▌▐▀" ++ "αßΓπΣσµτΦΘΩδ∞φε∩≡±≥≤⌠⌡÷≈°∙·√ⁿ²■\u00A0").toList

/-- The character of a byte. -/
def charOfCodePage437 (byte : UInt8) : Char :=
  if byte < 0x80 then Char.ofNat byte.toNat
  else codePage437[byte.toNat - 0x80]?.getD (Char.ofNat byte.toNat)

/-- The text of bytes in the code page. -/
def decodeCodePage437 (bytes : List UInt8) : String :=
  String.ofList (bytes.map charOfCodePage437)

end ClassLattice.Text
