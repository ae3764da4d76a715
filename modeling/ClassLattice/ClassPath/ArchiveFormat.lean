import ClassLattice.ResourceFault

/-!
# Formats of archives

What a class path needs of an archive is little: that it can be opened, that an entry can be looked
up in it by name, and that the data of an entry can be read.  A format says how these are done.  How
archives of the format are laid out is no concern of a class path.

The three depend on the bytes of the archive and on nothing else.
-/

set_option autoImplicit false

namespace ClassLattice

/-- Why an open archive does not give out an entry. -/
inductive EntryFault where
  /-- There is no entry of the name. -/
  | absent
  /-- There may be one, but it cannot be had. -/
  | refused
  deriving DecidableEq

/-- How archives are opened, searched and read. -/
structure ArchiveFormat where
  /-- What is known of an archive once it is open. -/
  Directory : Type
  /-- An entry that was looked up. -/
  Entry : Type
  /-- Opens the archive that a file holds, if it holds one. -/
  directory? : Bytes → Option Directory
  /-- Looks up the entry of a name in an open archive, given what its file holds. -/
  entry : Directory → Bytes → String → Except EntryFault Entry
  /-- All data of an entry, unless reading it fails on the way. -/
  data? : Entry → Option Bytes

end ClassLattice
