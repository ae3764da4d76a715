import ClassLattice.ClassPath.ArchiveFormat
import ClassLattice.ClassPath.FileSystem

/-!
# Entries of a class path

An entry is a directory or an archive in which resources are looked up by name.  In a module archive
the resources are below `classes/`.

An archive is opened from its file; its entries are looked up and read later, in the file as it is
then.
-/

set_option autoImplicit false

namespace ClassLattice

/-- A directory with class files below it, or one of two kinds of archives. -/
inductive EntryKind where
  | directory
  | jar
  | jmod
  deriving DecidableEq

/-- An entry as it is given, whether or not there is anything at its path. -/
structure PathEntry where
  kind : EntryKind
  path : String
  deriving DecidableEq

/-- An archive that was opened. -/
structure OpenArchive (format : ArchiveFormat) where
  /-- The number of the file. -/
  file : Nat
  directory : format.Directory

namespace OpenArchive

variable {format : ArchiveFormat}

/-- Looks up the entry of a name, in the file as it is. -/
def entry (archive : OpenArchive format) (files : FileSystem) (name : String) :
    Except EntryFault format.Entry :=
  format.entry archive.directory (files.content archive.file) name

/-- Whether there is an entry of a name that can be had. -/
def has (archive : OpenArchive format) (files : FileSystem) (name : String) : Bool :=
  (archive.entry files name).isOk

/-- Reads the entry of a name.  One that is not there is no fault. -/
def read (archive : OpenArchive format) (files : FileSystem) (name : String) :
    Except ResourceFault (Option Bytes) :=
  match archive.entry files name with
  | .error .absent => .ok none
  | .error .refused => .error .archive
  | .ok entry =>
    match format.data? entry with
    | some data => .ok (some data)
    | none => .error .transfer

end OpenArchive

/-- The kind of an entry by the extension of its path, in any case of letters. -/
def EntryKind.ofPath (path : String) : EntryKind :=
  match (Path.extension? path).map fun text => String.ofList (text.toList.map Char.toLower) with
  | some "jar" => .jar
  | some "jmod" => .jmod
  | _ => .directory

namespace PathEntry

/-- The entry at a path, of the kind that the path suggests. -/
def ofPath (path : String) : PathEntry := { kind := .ofPath path, path }

/-- The name of a resource in the archive of an entry, unless the entry is a directory. -/
def archiveName? (entry : PathEntry) (name : String) : Option String :=
  match entry.kind with
  | .directory => none
  | .jar => some name
  | .jmod => some ("classes/" ++ name)

variable (format : ArchiveFormat)

/-- Opens the archive of an entry.  A file that does not exist is no fault. -/
def openArchive (entry : PathEntry) (files : FileSystem) :
    Except ResourceFault (Option (OpenArchive format)) :=
  match files.find entry.path with
  | .error fault => .error fault
  | .ok none => .ok none
  | .ok (some .directory) => .error .archive
  | .ok (some (.file number)) =>
    match format.directory? (files.content number) with
    | some directory => .ok (some { file := number, directory })
    | none => .error .archive

/-- Whether a resource is in an entry.  There is none in an archive that cannot be opened. -/
def hasResource (entry : PathEntry) (files : FileSystem) (name : String) : Bool :=
  match entry.archiveName? name with
  | none => files.isFile (Path.join entry.path name)
  | some name =>
    match entry.openArchive format files with
    | .ok (some archive) => archive.has files name
    | _ => false

/-- Reads a resource from an entry, if it is there. -/
def readResource (entry : PathEntry) (files : FileSystem) (name : String) :
    Except ResourceFault (Option Bytes) :=
  match entry.archiveName? name with
  | none => files.read (Path.join entry.path name)
  | some name => do
    match ← entry.openArchive format files with
    | some archive => archive.read files name
    | none => return none

end PathEntry

end ClassLattice
