import ClassLattice.ClassFile.Header
import ClassLattice.ClassPath.Basic
import ClassLattice.Hierarchy.Reader

/-!
# Types on a class path

The metadata of a type is in the header of its class file, which is the resource of its name with
`.class` behind it.  The name in the header need not be the name that was asked for.

An operation on a hierarchy leaves the files alone, so that for as long as it runs all that it reads
is settled by the class path as it was before.  Which archives have been opened by then follows from
the names it has read.
-/

set_option autoImplicit false

namespace ClassLattice

/-- The fault of a type whose resource cannot be read. -/
def ResourceFault.readFault : ResourceFault → ReadFault
  | transfer => .transfer
  | archive => .archive

/-- What a header says about its type. -/
def ClassHeader.metadata (header : ClassHeader) : TypeMetadata :=
  { className := header.thisClass
    superName := header.superClass
    interfaceNames := header.interfaces
    isInterface := header.isInterface }

namespace ClassPath

variable {format : ArchiveFormat}

/-- The resource that holds a type. -/
def resourceName (name : String) : String := name ++ ".class"

/-- The metadata of a type by what became of its resource. -/
def metadataOf (name : String) :
    Except ResourceFault (Option Bytes) → Except HierarchyError TypeMetadata
  | .error fault => .error (.unreadable name fault.readFault)
  | .ok none => .error (.notFound name)
  | .ok (some bytes) =>
    match ClassHeader.parse bytes with
    | .ok header => .ok header.metadata
    | .error error => .error (.unreadable name (.classFile error))

/-- Reads the metadata of a type. -/
def readType (path : ClassPath format) (files : FileSystem) (name : String) :
    Except HierarchyError TypeMetadata × ClassPath format :=
  let (result, path) := path.readResource files (resourceName name)
  (metadataOf name result, path)

/-- Whether there is a type. -/
def hasType (path : ClassPath format) (files : FileSystem) (name : String) :
    Bool × ClassPath format :=
  path.hasResource files (resourceName name)

/-- The class path after types of given names were read one after the other. -/
def afterReads (path : ClassPath format) (files : FileSystem) (names : List String) :
    ClassPath format :=
  names.foldl (fun path name => (path.readType files name).2) path

/-- The reader of the types on a class path.  The extent is a bound on the weight of the names in
all class files that there are. -/
def reader (path : ClassPath format) (files : FileSystem) (extent : Nat) : Reader :=
  { read := fun name => (path.readType files name).1
    hasType := fun name => (path.hasType files name).1
    extent }

end ClassPath

end ClassLattice
