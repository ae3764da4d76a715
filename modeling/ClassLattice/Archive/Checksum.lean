import ClassLattice.ResourceFault

/-!
# Checksums

The cyclic redundancy check of 32 bits over bytes with their least significant bits first, with
the generator `0xEDB88320` in that order of bits.
-/

set_option autoImplicit false

namespace ClassLattice.Checksum

/-- The generator, with the coefficient of the highest power in the lowest bit. -/
def generator : UInt32 := 0xEDB88320

/-- One step of the division, for one bit. -/
def shift (remainder : UInt32) : UInt32 :=
  if remainder &&& 1 = 1 then (remainder >>> 1) ^^^ generator else remainder >>> 1

/-- Several steps of the division. -/
def shifts : Nat → UInt32 → UInt32
  | 0, remainder => remainder
  | count + 1, remainder => shifts count (shift remainder)

/-- Takes in a byte. -/
def push (remainder : UInt32) (byte : UInt8) : UInt32 := shifts 8 (remainder ^^^ byte.toUInt32)

/-- The checksum of bytes. -/
def ofBytes (bytes : Bytes) : UInt32 := bytes.foldl push 0xFFFFFFFF ^^^ 0xFFFFFFFF

end ClassLattice.Checksum
