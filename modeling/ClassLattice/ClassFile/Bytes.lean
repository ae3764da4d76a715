import ClassLattice.ClassFile.Error

/-!
# Reading bytes in order

A reader consumes bytes from the front of a sequence.  Numbers are unsigned and have their most
significant byte first.  A read that finds too few bytes left fails as the end of the input.
-/

set_option autoImplicit false

namespace ClassLattice

/-- A computation that consumes bytes from the front of a sequence. -/
abbrev ByteReader (α : Type) : Type := StateT (List UInt8) (Except ClassFileError) α

namespace ByteReader

/-- Takes a number of bytes. -/
def take (count : Nat) : ByteReader (List UInt8) := fun bytes =>
  let (front, rest) := bytes.splitAt count
  if front.length = count then .ok (front, rest) else .error .endOfInput

/-- The number that bytes stand for, the highest byte first. -/
def bigEndian (bytes : List UInt8) : Nat :=
  bytes.foldl (fun value byte => value * 256 + byte.toNat) 0

/-- A number of one byte. -/
def u1 : ByteReader UInt8 := do return (bigEndian (← take 1)).toUInt8

/-- A number of two bytes. -/
def u2 : ByteReader UInt16 := do return (bigEndian (← take 2)).toUInt16

/-- A number of four bytes. -/
def u4 : ByteReader UInt32 := do return (bigEndian (← take 4)).toUInt32

end ByteReader

end ClassLattice
