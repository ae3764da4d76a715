import ClassLattice.Archive.EndRecord
import ClassLattice.Text.CodePage437
import ClassLattice.Text.Utf8

/-!
# The directory of an archive

The directory lists the entries of an archive with their names, sizes and positions.  It alone says
which entries there are; of several entries of one name the last counts.

Behind the name of an entry there may be extra fields.  Only two kinds matter: wide numbers in
place of those that do not fit, and the method by which encrypted data was compressed.  Extra fields
that end too early count as far as they go.
-/

set_option autoImplicit false

namespace ClassLattice

/-- What the directory says about an entry. -/
structure ArchiveEntry where
  name : String
  isEncrypted : Bool
  /-- Whether an extra field says how the data is encrypted. -/
  isSealed : Bool := false
  /-- The number of the method by which the data is stored. -/
  method : Nat
  checksum : Nat
  /-- The size of the data. -/
  size : Nat
  /-- The size of the data as it is stored. -/
  storedSize : Nat
  /-- The position of the entry. -/
  offset : Nat
  deriving DecidableEq

namespace ArchiveEntry

open RecordReader

/-- The number in place of one that does not fit. -/
def unfit : Nat := 0xFFFFFFFF

/-- The greatest offset that 64 bits can tell. -/
def maxOffset : Nat := 0xFFFFFFFFFFFFFFFF

/-- The method of encrypted data, which leaves the true method to an extra field. -/
def sealedMethod : Nat := 99

/-- A number, or a wide one from the front of the bytes if it does not fit.  The bytes that are
left come with it, unless they have ended. -/
def widen (number : Nat) (bytes : Option Bytes) : Nat × Option Bytes :=
  if number = unfit then
    match bytes.bind (RecordReader.number 8) with
    | some (wide, rest) => (wide, some rest)
    | none => (number, none)
  else (number, bytes)

/-- An entry with the wide numbers of an extra field. -/
def widened (entry : ArchiveEntry) (bytes : Bytes) : ArchiveEntry × Option Bytes :=
  let (size, left) := widen entry.size (some bytes)
  let (storedSize, left) := widen entry.storedSize left
  let (offset, left) := widen entry.offset left
  ({ entry with size, storedSize, offset }, left)

/-- What is left of an extra field when a number was widened by it is no longer than the field was.
-/
theorem length_of_widen {value wide : Nat} {bytes : Option Bytes} {left : Bytes}
    (h : widen value bytes = (wide, some left)) :
    ∃ given, bytes = some given ∧ left.length ≤ given.length := by
  unfold widen at h
  split at h
  · split at h
    · rename_i found
      obtain ⟨given, rfl, read⟩ := Option.bind_eq_some_iff.mp found
      have := length_of_number read
      cases h
      exact ⟨given, rfl, by omega⟩
    · cases h
  · cases h
    exact ⟨left, rfl, Nat.le_refl _⟩

/-- The bytes behind wide numbers are among those of the field. -/
theorem length_of_widened {entry wide : ArchiveEntry} {bytes left : Bytes}
    (h : entry.widened bytes = (wide, some left)) : left.length ≤ bytes.length := by
  rcases first : widen entry.size (some bytes) with ⟨size, behind⟩
  rcases second : widen entry.storedSize behind with ⟨storedSize, further⟩
  rcases third : widen entry.offset further with ⟨offset, last⟩
  simp only [widened, first, second, third, Prod.mk.injEq] at h
  obtain ⟨-, rfl⟩ := h
  obtain ⟨_, rfl, _⟩ := length_of_widen third
  obtain ⟨_, rfl, _⟩ := length_of_widen second
  obtain ⟨_, eq, _⟩ := length_of_widen first
  cases eq
  omega

/-- Reads the true method of encrypted data, behind which there is nothing if the version, the
vendor or the strength is unknown. -/
def readSeal : RecordReader (Option Nat) := do
  let version ← number 2
  let vendor ← number 2
  let strength ← number 1
  let method ← number 2
  let isKnown := vendor = 0x4541 && (version = 1 || version = 2) && (1 ≤ strength && strength ≤ 3)
  return if isKnown then some method else none

/-- The number of bytes in the field that seals an entry. -/
def sealSize : Nat := 7

/-- Reads the number of an extra field and its size. -/
def readFieldFront : RecordReader (Nat × Nat) := do return (← number 2, ← number 2)

/-- The front of an extra field takes bytes. -/
theorem length_of_readFieldFront {bytes rest : Bytes} {front : Nat × Nat}
    (h : readFieldFront bytes = some (front, rest)) : rest.length < bytes.length := by
  have unfolded : readFieldFront bytes = (number 2 bytes).bind fun (kind, between) =>
      (number 2 between).bind fun (size, left) => some ((kind, size), left) := rfl
  obtain ⟨⟨kind, between⟩, first, h⟩ := Option.bind_eq_some_iff.mp (unfolded ▸ h)
  obtain ⟨⟨size, left⟩, second, h⟩ := Option.bind_eq_some_iff.mp h
  have := length_of_number first
  have := length_of_number second
  cases h
  omega

/-- An entry with its extra fields, or nothing if one of them cannot be.  A field about encryption
is followed by as many bytes again that are not looked at. -/
def withExtras (entry : ArchiveEntry) (bytes : Bytes) : Option ArchiveEntry :=
  match h : readFieldFront bytes with
  | none => some entry
  | some ((kind, size), rest) =>
    have := length_of_readFieldFront h
    if kind = 0x0001 then
      match h' : entry.widened rest with
      | (entry, none) => some entry
      | (entry, some left) =>
        have := length_of_widened h'
        entry.withExtras (left.drop (size - (rest.length - left.length)))
    else if kind = 0x9901 then
      if size ≠ sealSize then none
      else
        match readSeal rest with
        | none => some entry
        | some (none, _) => none
        | some (some method, _) =>
          { entry with method, isSealed := true }.withExtras (rest.drop (2 * sealSize))
    else entry.withExtras (rest.drop size)
termination_by bytes.length
decreasing_by all_goals simp only [List.length_drop]; omega

/-- The bit of the flags that tells that an entry is encrypted. -/
def encryptedBit : Nat := 0

/-- The bit of the flags that tells that a name is UTF-8. -/
def unicodeBit : Nat := 11

/-- Reads an entry of the directory of an archive with so many bytes in front of it. -/
def readRecord (lead : Nat) : RecordReader ArchiveEntry := do
  signature 0x01 0x02
  skip 4
  let flags ← number 2
  let method ← number 2
  skip 4
  let checksum ← number 4
  let storedSize ← number 4
  let size ← number 4
  let nameSize ← number 2
  let extraSize ← number 2
  let commentSize ← number 2
  skip 8
  let offset ← number 4
  let name ← take nameSize
  let extras ← take extraSize
  skip commentSize
  let name := if flags.testBit unicodeBit then Text.decodeUtf8 name else Text.decodeCodePage437 name
  let entry : ArchiveEntry :=
    { name, isEncrypted := flags.testBit encryptedBit, method, checksum, size, storedSize, offset }
  let some entry := entry.withExtras extras | failure
  guard (entry.isSealed || entry.method ≠ sealedMethod)
  guard (entry.offset + lead ≤ maxOffset)
  return { entry with offset := entry.offset + lead }

end ArchiveEntry

/-- The entries of an archive, the last one first. -/
structure ArchiveDirectory where
  entries : List ArchiveEntry
  deriving DecidableEq

namespace ArchiveDirectory

/-- Reads so many entries, to be put in front of those already read. -/
def readEntries (lead : Nat) : Nat → List ArchiveEntry → RecordReader (List ArchiveEntry)
  | 0, done => return done
  | count + 1, done => do
    let entry ← ArchiveEntry.readRecord lead
    readEntries lead count (entry :: done)

/-- The directory of an archive, if the bytes are those of one. -/
def ofBytes? (bytes : Bytes) : Option ArchiveDirectory := do
  let place ← EndRecord.directoryPlace? bytes
  let entries ← (readEntries place.lead place.count []).parse (bytes.drop place.start)
  return { entries }

/-- The entry of a name. -/
def entry? (directory : ArchiveDirectory) (name : String) : Option ArchiveEntry :=
  directory.entries.find? fun entry => entry.name == name

end ArchiveDirectory

end ClassLattice
