import ClassLattice.Archive.Checksum
import ClassLattice.Archive.Directory
import ClassLattice.Archive.Inflation
import ClassLattice.ClassPath.ArchiveFormat

/-!
# The content of an archive

The data of an entry stands behind a record that gives its name again.  An entry can be opened if
that record is there, the data is not encrypted and the method is known; reading it fails as well if
the data is corrupt or does not have the checksum that the directory gives.  The size that the
directory gives is not compared.
-/

set_option autoImplicit false

namespace ClassLattice

/-- The methods by which data is stored. -/
inductive StorageMethod where
  | plain
  | deflated
  deriving DecidableEq

/-- The method of a number, if it is one that can be undone. -/
def StorageMethod.ofNumber? : Nat → Option StorageMethod
  | 0 => some plain
  | 8 => some deflated
  | _ => none

namespace ArchiveEntry

open RecordReader

/-- Reads the record in front of the data of an entry.  The result is the size of that record. -/
def readLocalSize : RecordReader Nat := do
  signature 0x03 0x04
  skip 22
  let nameSize ← number 2
  let extraSize ← number 2
  return 30 + nameSize + extraSize

/-- The data of an entry as it is stored, with its method, if the entry can be opened. -/
def stored? (entry : ArchiveEntry) (bytes : Bytes) : Option (StorageMethod × Bytes) := do
  guard (!entry.isEncrypted && !entry.isSealed)
  let size ← readLocalSize.parse (bytes.drop entry.offset)
  let method ← StorageMethod.ofNumber? entry.method
  return (method, (bytes.drop (entry.offset + size)).take entry.storedSize)

/-- The data that stored data stands for. -/
def restore? : StorageMethod → Bytes → Option Bytes
  | .plain, stored => some stored
  | .deflated, stored => inflate? stored

end ArchiveEntry

/-- The data of an entry as it is stored, with what is needed to restore it. -/
structure StoredEntry where
  method : StorageMethod
  stored : Bytes
  /-- The checksum of the data that the directory gives. -/
  checksum : Nat
  deriving DecidableEq

/-- The data of an entry, unless it is corrupt. -/
def StoredEntry.data? (entry : StoredEntry) : Option Bytes := do
  let data ← ArchiveEntry.restore? entry.method entry.stored
  guard ((Checksum.ofBytes data).toNat = entry.checksum)
  return data

/-- Looks up the entry of a name. -/
def ArchiveDirectory.entry (directory : ArchiveDirectory) (bytes : Bytes) (name : String) :
    Except EntryFault StoredEntry :=
  match directory.entry? name with
  | none => .error .absent
  | some entry =>
    match entry.stored? bytes with
    | none => .error .refused
    | some (method, stored) => .ok { method, stored, checksum := entry.checksum }

/-- The format of archives with a directory at their end and entries that are stored as they are or
deflated. -/
def ArchiveFormat.zip : ArchiveFormat :=
  { Directory := ArchiveDirectory
    Entry := StoredEntry
    directory? := ArchiveDirectory.ofBytes?
    entry := ArchiveDirectory.entry
    data? := StoredEntry.data? }

end ClassLattice
