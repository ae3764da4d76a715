import ClassLattice.ResourceFault

/-!
# Reading records

The records of an archive are fields of fixed size one behind the other, numbers with their least
significant byte first, and behind them texts whose sizes they give.
-/

set_option autoImplicit false

namespace ClassLattice

/-- A computation that consumes bytes from the front of a sequence, unless it finds too few. -/
abbrev RecordReader (α : Type) : Type := StateT Bytes Option α

namespace RecordReader

/-- Takes a number of bytes. -/
def take (count : Nat) : RecordReader Bytes := fun bytes =>
  let (front, rest) := bytes.splitAt count
  if front.length = count then some (front, rest) else none

/-- The number that bytes stand for, the lowest byte first. -/
def littleEndian (bytes : Bytes) : Nat :=
  bytes.foldr (fun byte value => value * 256 + byte.toNat) 0

/-- A number of so many bytes. -/
def number (width : Nat) : RecordReader Nat := do return littleEndian (← take width)

/-- Passes over a number of bytes. -/
def skip (count : Nat) : RecordReader Unit := do
  let _ ← take count

/-- Demands that the next four bytes are the letters `PK` and two given bytes. -/
def signature (third fourth : UInt8) : RecordReader Unit := do
  guard ((← take 4) = [0x50, 0x4B, third, fourth])

/-- The front of a sequence of bytes, read as records. -/
def parse {α : Type} (reader : RecordReader α) (bytes : Bytes) : Option α := (·.1) <$> reader bytes

/-- What is taken and what is left are all that there was. -/
theorem length_of_take {count : Nat} {bytes front rest : Bytes}
    (h : take count bytes = some (front, rest)) : rest.length + count = bytes.length := by
  simp only [take, List.splitAt_eq, Option.ite_none_right_eq_some, Option.some.injEq,
    Prod.mk.injEq] at h
  obtain ⟨size, rfl, rfl⟩ := h
  have := congrArg List.length (List.take_append_drop count bytes)
  simp only [List.length_append] at this
  omega

/-- A number takes as many bytes as it is wide. -/
theorem length_of_number {width value : Nat} {bytes rest : Bytes}
    (h : number width bytes = some (value, rest)) : rest.length + width = bytes.length := by
  have unfolded : number width bytes = (take width bytes).bind fun (front, left) =>
      some (littleEndian front, left) := rfl
  obtain ⟨⟨front, left⟩, found, h⟩ := Option.bind_eq_some_iff.mp (unfolded ▸ h)
  cases h
  exact length_of_take found

end RecordReader

end ClassLattice
