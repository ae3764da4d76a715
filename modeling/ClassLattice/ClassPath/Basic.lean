import ClassLattice.ClassPath.Entry

/-!
# Class paths

A class path is a list of entries; the first one that has a resource provides it.  Archives are
opened when a search first reaches them and then stay open, so that what becomes of their names does
not matter any more.  An archive that could not be opened is tried again by the next search that
reaches it.

A search for whether there is a resource passes over what cannot be opened; a search for its data
ends there.
-/

set_option autoImplicit false

namespace ClassLattice

/-- An entry of a class path with its archive, once it is open. -/
structure PathSlot (format : ArchiveFormat) where
  entry : PathEntry
  archive : Option (OpenArchive format) := none

namespace PathSlot

variable {format : ArchiveFormat}

/-- The archive of a slot, opened if it was not yet, and the slot with it. -/
def ensureOpen (slot : PathSlot format) (files : FileSystem) :
    Except ResourceFault (Option (OpenArchive format)) × PathSlot format :=
  match slot.archive with
  | some archive => (.ok (some archive), slot)
  | none =>
    match slot.entry.openArchive format files with
    | .ok archive => (.ok archive, { slot with archive })
    | .error fault => (.error fault, slot)

/-- Whether a resource is in the entry of a slot. -/
def hasResource (slot : PathSlot format) (files : FileSystem) (name : String) :
    Bool × PathSlot format :=
  match slot.entry.archiveName? name with
  | none => (slot.entry.hasResource format files name, slot)
  | some name =>
    match slot.ensureOpen files with
    | (.ok (some archive), slot) => (archive.has files name, slot)
    | (_, slot) => (false, slot)

/-- Reads a resource from the entry of a slot. -/
def readResource (slot : PathSlot format) (files : FileSystem) (name : String) :
    Except ResourceFault (Option Bytes) × PathSlot format :=
  match slot.entry.archiveName? name with
  | none => (slot.entry.readResource format files name, slot)
  | some name =>
    match slot.ensureOpen files with
    | (.ok (some archive), slot) => (archive.read files name, slot)
    | (.ok none, slot) => (.ok none, slot)
    | (.error fault, slot) => (.error fault, slot)

end PathSlot

/-- An ordered list of entries, with the archives that are open. -/
structure ClassPath (format : ArchiveFormat) where
  slots : List (PathSlot format)

namespace ClassPath

variable {format : ArchiveFormat}

/-- A class path of which no archive is open yet. -/
def ofEntries (entries : List PathEntry) : ClassPath format :=
  ⟨entries.map fun entry => { entry }⟩

/-- The entries of a class path in their order. -/
def entries (path : ClassPath format) : List PathEntry := path.slots.map PathSlot.entry

/-- Searches slots for a resource, up to the first one that has it. -/
def searchSlots (files : FileSystem) (name : String) :
    List (PathSlot format) → Bool × List (PathSlot format)
  | [] => (false, [])
  | slot :: rest =>
    match slot.hasResource files name with
    | (true, slot) => (true, slot :: rest)
    | (false, slot) =>
      let (found, rest) := searchSlots files name rest
      (found, slot :: rest)

/-- Searches slots for the data of a resource, up to the first one that has it or fails. -/
def readSlots (files : FileSystem) (name : String) :
    List (PathSlot format) → Except ResourceFault (Option Bytes) × List (PathSlot format)
  | [] => (.ok none, [])
  | slot :: rest =>
    match slot.readResource files name with
    | (.ok none, slot) =>
      let (result, rest) := readSlots files name rest
      (result, slot :: rest)
    | (result, slot) => (result, slot :: rest)

/-- Whether an entry has a resource. -/
def hasResource (path : ClassPath format) (files : FileSystem) (name : String) :
    Bool × ClassPath format :=
  let (found, slots) := searchSlots files name path.slots
  (found, ⟨slots⟩)

/-- Reads a resource from the first entry that has it. -/
def readResource (path : ClassPath format) (files : FileSystem) (name : String) :
    Except ResourceFault (Option Bytes) × ClassPath format :=
  let (result, slots) := readSlots files name path.slots
  (result, ⟨slots⟩)

end ClassPath

end ClassLattice
