import ClassLattice.Text.Utf16

/-!
# Modified UTF-8

The byte form of names in class files.  Each UTF-16 unit is encoded by itself in one, two or three
bytes, so a supplementary character takes two groups of three bytes, and the null character takes
two bytes, so no encoded text contains a zero byte.  Reading takes any group whose payload is a
unit, whether or not a shorter group would have carried it.
-/

set_option autoImplicit false

namespace ClassLattice.Text

/-- The bytes of one UTF-16 unit: one byte below `0x80` unless the unit is zero, two below `0x800`,
and else three. -/
def bytesOfUnit (unit : UInt16) : List UInt8 :=
  let n := unit.toNat
  if n ≠ 0 ∧ n < 0x80 then [n.toUInt8]
  else if n < 0x800 then [(0xC0 + n / 0x40).toUInt8, (0x80 + n % 0x40).toUInt8]
  else
    [(0xE0 + n / 0x1000).toUInt8, (0x80 + n / 0x40 % 0x40).toUInt8, (0x80 + n % 0x40).toUInt8]

/-- The modified UTF-8 form of a text. -/
def encodeModifiedUtf8 (text : String) : List UInt8 :=
  (utf16Units text.toList).flatMap bytesOfUnit

/-- Whether a byte can stand behind the first one of a group. -/
def isContinuation (byte : UInt8) : Bool := 0x80 ≤ byte && byte ≤ 0xBF

/-- The unit that a group of two bytes carries: five bits and six. -/
def unitOfTwo (lead next : UInt8) : UInt16 :=
  (lead.toNat % 0x20 * 0x40 + next.toNat % 0x40).toUInt16

/-- The unit that a group of three bytes carries: four bits, six and six. -/
def unitOfThree (lead next last : UInt8) : UInt16 :=
  (lead.toNat % 0x10 * 0x1000 + next.toNat % 0x40 * 0x40 + last.toNat % 0x40).toUInt16

/-- Splits the first group off a sequence of bytes and returns its unit. -/
def takeGroup : List UInt8 → Option (UInt16 × List UInt8)
  | [] => none
  | lead :: rest =>
    if 0x01 ≤ lead && lead ≤ 0x7F then some (lead.toUInt16, rest)
    else if 0xC0 ≤ lead && lead ≤ 0xDF then
      match rest with
      | next :: rest => if isContinuation next then some (unitOfTwo lead next, rest) else none
      | [] => none
    else if 0xE0 ≤ lead && lead ≤ 0xEF then
      match rest with
      | next :: last :: rest =>
        if isContinuation next && isContinuation last then
          some (unitOfThree lead next last, rest)
        else none
      | _ => none
    else none

/-- What is left after a group is shorter. -/
theorem length_of_takeGroup {bytes rest : List UInt8} {unit : UInt16}
    (h : takeGroup bytes = some (unit, rest)) : rest.length < bytes.length := by
  unfold takeGroup at h
  split at h
  · cases h
  · simp only [List.length_cons]
    split at h
    · cases h
      omega
    · split at h
      · split at h
        · split at h
          · cases h
            simp only [List.length_cons]
            omega
          · cases h
        · cases h
      · split at h
        · split at h
          · split at h
            · cases h
              simp only [List.length_cons]
              omega
            · cases h
          · cases h
        · cases h

/-- Reads groups into units, to be put behind those already read, which are held latest first. -/
def readGroups (bytes : List UInt8) (done : List UInt16) : Option (List UInt16) :=
  match bytes with
  | [] => some done.reverse
  | byte :: more =>
    match h : takeGroup (byte :: more) with
    | none => none
    | some (unit, rest) =>
      have := length_of_takeGroup h
      readGroups rest (unit :: done)
termination_by bytes.length
decreasing_by assumption

/-- The text of a byte sequence by its groups, if it is one. -/
def decodeGroups (bytes : List UInt8) : Option String := do
  let units ← readGroups bytes []
  let chars ← charsOfUtf16? units
  return String.ofList chars

/-- The text of a modified UTF-8 byte sequence, if it is one.  Bytes that are characters by
themselves are the same in UTF-8, so a sequence of such bytes is taken over as it is. -/
def decodeModifiedUtf8 (bytes : List UInt8) : Option String :=
  if bytes.all fun byte => byte != 0 && byte < 0x80 then String.fromUTF8? bytes.toByteArray
  else decodeGroups bytes

end ClassLattice.Text
