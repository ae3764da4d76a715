/-!
# Positions counted in bytes

A position in a text may be given by the number of bytes in front of it in UTF-8.  Not every such
number is a position, for it may fall inside a character.
-/

set_option autoImplicit false

namespace ClassLattice.Text

/-- The number of bytes of characters in UTF-8. -/
def byteSize (chars : List Char) : Nat := chars.foldr (fun c size => c.utf8Size + size) 0

/-- The characters in front of a position and those behind it, if it is a position. -/
def splitAtByte? : List Char → Nat → Option (List Char × List Char)
  | chars, 0 => some ([], chars)
  | [], _ + 1 => none
  | c :: rest, position =>
    if c.utf8Size ≤ position then
      (splitAtByte? rest (position - c.utf8Size)).map fun (front, behind) => (c :: front, behind)
    else none

end ClassLattice.Text
