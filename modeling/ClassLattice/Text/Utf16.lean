/-!
# UTF-16

Characters as 16-bit units.  A character up to `U+FFFF` is one unit; any other is a high surrogate
followed by a low one.  Reading refuses a surrogate that does not stand in such a pair.
-/

set_option autoImplicit false

namespace ClassLattice.Text

/-- The units of a character: one, or a pair of surrogates. -/
def unitsOfChar (c : Char) : List UInt16 :=
  if c.toNat < 0x10000 then [c.toNat.toUInt16]
  else
    [(0xD800 + (c.toNat - 0x10000) / 0x400).toUInt16,
      (0xDC00 + (c.toNat - 0x10000) % 0x400).toUInt16]

/-- The units of characters. -/
def utf16Units (chars : List Char) : List UInt16 := chars.flatMap unitsOfChar

/-- Whether a unit is the first of a pair. -/
def isHighSurrogate (unit : UInt16) : Bool := 0xD800 ≤ unit && unit < 0xDC00

/-- Whether a unit is the second of a pair. -/
def isLowSurrogate (unit : UInt16) : Bool := 0xDC00 ≤ unit && unit < 0xE000

/-- The character of a pair. -/
def charOfPair (high low : UInt16) : Char :=
  Char.ofNat (0x10000 + (high.toNat - 0xD800) * 0x400 + (low.toNat - 0xDC00))

/-- Reads units into characters, to be put behind those already read, which are held latest
first. -/
def readUtf16 : List UInt16 → List Char → Option (List Char)
  | [], done => some done.reverse
  | [unit], done =>
    if isHighSurrogate unit || isLowSurrogate unit then none
    else some (Char.ofNat unit.toNat :: done).reverse
  | unit :: next :: rest, done =>
    if isHighSurrogate unit then
      if isLowSurrogate next then readUtf16 rest (charOfPair unit next :: done) else none
    else if isLowSurrogate unit then none
    else readUtf16 (next :: rest) (Char.ofNat unit.toNat :: done)

/-- The characters of a sequence of units, if every surrogate stands in a pair. -/
def charsOfUtf16? (units : List UInt16) : Option (List Char) := readUtf16 units []

end ClassLattice.Text
