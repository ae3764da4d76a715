import ClassLattice.ResourceFault

/-!
# Reading bits in order

Compressed data is read bit by bit, each byte from its least significant bit on.  Reading fails
where the data ends too early and where it is not what it should be.
-/

set_option autoImplicit false

namespace ClassLattice

/-- A computation that consumes bits from the front of a sequence. -/
abbrev BitReader (α : Type) : Type := StateT (List Bool) Option α

namespace BitReader

/-- The bits of a byte, the lowest first. -/
def bitsOfByte (byte : UInt8) : List Bool := (List.range 8).map byte.toNat.testBit

/-- The bits of bytes, byte by byte. -/
def bitsOfBytes (bytes : Bytes) : List Bool := bytes.flatMap bitsOfByte

/-- Takes one bit. -/
def bit : BitReader Bool
  | [] => none
  | head :: rest => some (head, rest)

/-- A number of so many bits, the least significant first. -/
def number : Nat → BitReader Nat
  | 0 => return 0
  | width + 1 => do
    let low ← bit
    let high ← number width
    return high * 2 + low.toNat

/-- Skips to the next boundary between bytes. -/
def align : BitReader Unit := fun bits => some ((), bits.drop (bits.length % 8))

variable {α β : Type}

/-- Whether a reader, when it succeeds, has consumed so many bits at least. -/
def Consumes (count : Nat) (reader : BitReader α) : Prop :=
  ∀ bits value rest, reader bits = some (value, rest) → rest.length + count ≤ bits.length

/-- A reader that gives a value takes nothing. -/
theorem consumes_pure (value : α) : Consumes 0 (pure value : BitReader α) := by
  intro bits found rest h
  cases h
  exact Nat.le_refl _

/-- A reader that fails has nothing to take. -/
theorem consumes_failure (count : Nat) : Consumes count (failure : BitReader α) := by
  intro bits found rest h
  cases h

/-- A reader that takes so many bits at least takes fewer at least. -/
theorem Consumes.weaken {count least : Nat} {reader : BitReader α} (h : Consumes count reader)
    (le : least ≤ count) : Consumes least reader := by
  intro bits value rest eq
  have := h bits value rest eq
  omega

/-- Readers one after the other take what both take. -/
theorem Consumes.bind {first second : Nat} {reader : BitReader α} {next : α → BitReader β}
    (h : Consumes first reader) (h' : ∀ value, Consumes second (next value)) :
    Consumes (first + second) (reader >>= next) := by
  intro bits value rest eq
  obtain ⟨⟨middle, between⟩, found, eq⟩ := Option.bind_eq_some_iff.mp
    (show (reader bits).bind (fun (middle, between) => next middle between) = some (value, rest)
      from eq)
  have := h bits middle between found
  have := h' middle between value rest eq
  omega

/-- What comes after a reader puts nothing back. -/
theorem Consumes.andThen {count : Nat} {reader : BitReader α} {next : α → BitReader β}
    (h : Consumes count reader) (h' : ∀ value, Consumes 0 (next value)) :
    Consumes count (reader >>= next) :=
  h.bind h'

/-- What takes some bits at least takes no fewer than none. -/
theorem Consumes.relax {count : Nat} {reader : BitReader α} (h : Consumes count reader) :
    Consumes 0 reader :=
  h.weaken (Nat.zero_le count)

/-- A bit is one bit. -/
theorem consumes_bit : Consumes 1 bit := by
  intro bits value rest h
  cases bits with
  | nil => cases h
  | cons head tail => cases h; exact Nat.le_refl _

/-- A number is as many bits as it is wide. -/
theorem consumes_number (width : Nat) : Consumes width (number width) := by
  induction width with
  | zero => exact consumes_pure 0
  | succ width ih =>
    have := consumes_bit.bind fun low => ih.bind fun high => consumes_pure (high * 2 + low.toNat)
    exact this.weaken (by omega)

/-- There may be nothing to skip up to the next byte. -/
theorem consumes_align : Consumes 0 align := by
  intro bits value rest h
  cases h
  simp

end BitReader

end ClassLattice
