import ClassLattice.Archive.Record

/-!
# The end of an archive

An archive ends with a record that says where its directory is.  Only a comment may follow, so the
record is searched from the end, as far as the longest comment goes.  Where the fields of the record
are too narrow, a locator in front of it leads to a wide record, which says the same again.

Bytes in front of the first entry are allowed and are not counted by the positions in the records;
how many they are follows from where the end record is.
-/

set_option autoImplicit false

namespace ClassLattice

/-- The record at the end of an archive. -/
structure EndRecord where
  disk : Nat
  directoryDisk : Nat
  /-- The number of entries of the directory on this disk. -/
  localCount : Nat
  count : Nat
  directorySize : Nat
  directoryOffset : Nat
  commentSize : Nat
  deriving DecidableEq

/-- Where the directory of an archive is. -/
structure DirectoryPlace where
  /-- The number of bytes in front of the archive, which positions do not count. -/
  lead : Nat
  /-- The position of the directory in the file. -/
  start : Nat
  /-- The number of its entries. -/
  count : Nat
  deriving DecidableEq

namespace EndRecord

open RecordReader

/-- The number of bytes that an end record has without its comment. -/
def size : Nat := 22

/-- The number of bytes that a comment has at most. -/
def maxCommentSize : Nat := 0xFFFF

/-- The last position that a place in a file can be given by. -/
def maxPosition : Nat := 0x7FFFFFFFFFFFFFFF

/-- Reads the record with its comment. -/
def read : RecordReader EndRecord := do
  signature 0x05 0x06
  let disk ← number 2
  let directoryDisk ← number 2
  let localCount ← number 2
  let count ← number 2
  let directorySize ← number 4
  let directoryOffset ← number 4
  let commentSize ← number 2
  skip commentSize
  return { disk, directoryDisk, localCount, count, directorySize, directoryOffset, commentSize }

/-- Whether a field holds the number that stands for one that does not fit. -/
def isNarrow (record : EndRecord) : Bool :=
  [record.disk, record.directoryDisk, record.localCount, record.count].contains 0xFFFF
    || [record.directorySize, record.directoryOffset].contains 0xFFFFFFFF

/-- The last position, counted on from a given one, at which a sequence of bytes begins with given
bytes. -/
def lastPosition (wanted : Bytes) : Bytes → Nat → Option Nat → Option Nat
  | [], _, found => found
  | byte :: rest, position, found =>
    lastPosition wanted rest (position + 1)
      (if wanted.isPrefixOf (byte :: rest) then some position else found)

/-- The first such position. -/
def firstPosition (wanted : Bytes) : Bytes → Nat → Option Nat
  | [], _ => none
  | byte :: rest, position =>
    if wanted.isPrefixOf (byte :: rest) then some position
    else firstPosition wanted rest (position + 1)

/-- The position of the end record: the last one at which its signature stands with room for the
record behind it. -/
def position? (bytes : Bytes) : Option Nat := do
  guard (size ≤ bytes.length)
  let last := bytes.length - size
  let least := bytes.length - (size + maxCommentSize)
  lastPosition [0x50, 0x4B, 0x05, 0x06] ((bytes.take (last + 4)).drop least) least none

/-- The position of the wide record, as far as the locator knows it, and the disk that it is on.
The locator stands before the end record if nothing but its comment follows that one. -/
def locator? (bytes : Bytes) (record : EndRecord) : Option (Nat × Nat) := do
  guard (20 + size + record.commentSize ≤ bytes.length)
  parse (do
    signature 0x06 0x07
    let disk ← number 4
    let offset ← number 8
    return (disk, offset)) (bytes.drop (bytes.length - (20 + size + record.commentSize)))

/-- Where the wide record says that the directory is.  It is searched from where the locator says
on, and found so many bytes later as there are in front of the archive. -/
def widePlace? (bytes : Bytes) (position offset : Nat) : Option DirectoryPlace := do
  guard (60 ≤ position)
  let searched := (bytes.take (position - 56)).drop offset
  let found ← firstPosition [0x50, 0x4B, 0x06, 0x06] searched offset
  let lead := found - offset
  parse (do
    skip 16
    let disk ← number 4
    let directoryDisk ← number 4
    guard (disk = directoryDisk)
    skip 8
    let count ← number 8
    skip 8
    let start := (← number 8) + lead
    return { lead, start, count }) (bytes.drop found)

/-- Where the directory of an archive is. -/
def directoryPlace? (bytes : Bytes) : Option DirectoryPlace := do
  let position ← position? bytes
  let record ← read.parse (bytes.drop position)
  guard (record.isNarrow || record.disk = record.directoryDisk)
  let place ← match locator? bytes record with
    | none => do
      guard (record.directorySize + record.directoryOffset ≤ position)
      let lead := position - record.directorySize - record.directoryOffset
      pure { lead, start := record.directoryOffset + lead, count := record.localCount }
    | some (disk, offset) => do
      guard (record.isNarrow || record.disk = disk)
      widePlace? bytes position offset
  guard (place.start ≤ maxPosition)
  return place

end EndRecord

end ClassLattice
