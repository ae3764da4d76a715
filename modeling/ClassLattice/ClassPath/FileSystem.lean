import ClassLattice.ClassPath.Path
import ClassLattice.ResourceFault
import ClassLattice.Table

/-!
# File systems

A file system is a tree of directories and files.  Absolute paths start from its root and all others
from the working directory.  The content of a file is kept apart from the names that lead to it: a
file that was opened can be read after its name is gone, and shows what is written to it later.
-/

set_option autoImplicit false

namespace ClassLattice

/-- What a name in a directory stands for. -/
inductive FileNode where
  | directory
  /-- The file of a number. -/
  | file (number : Nat)
  deriving DecidableEq

/-- A tree of directories and files. -/
structure FileSystem where
  /-- What there is below the root, by the names on the way from it. -/
  nodes : Table (List String) FileNode := Table.empty
  /-- The contents of the files, by number. -/
  contents : Array Bytes := #[]
  /-- The names on the way from the root to the directory in which relative paths start. -/
  workingDirectory : List String := []
  /-- Every file has a content. -/
  numbered : ∀ names number, (names, .file number) ∈ nodes.entries → number < contents.size := by
    intro names number member
    cases member

/-- Why a path leads to nothing. -/
inductive PathFault where
  /-- A name on the way does not exist. -/
  | missing
  /-- The path cannot be followed at all. -/
  | unusable
  deriving DecidableEq

namespace FileSystem

/-- The number of bytes that a name has at most. -/
def maxNameSize : Nat := 255

/-- The number of bytes that a path has at most. -/
def maxPathSize : Nat := 4095

/-- The tree that has a root only. -/
def empty : FileSystem := {}

/-- What there is at the end of names on the way from the root, which is a directory itself. -/
def node? (files : FileSystem) : List String → Option FileNode
  | [] => some .directory
  | names => files.nodes.get? names

/-- Follows one component of a path.  Above the root there is the root. -/
def follow (files : FileSystem) (names : List String) (component : String) :
    Except PathFault (List String) :=
  match files.node? names with
  | none => .error .missing
  | some (.file _) => .error .unusable
  | some .directory =>
    if component = "" ∨ component = "." then .ok names
    else if component = ".." then .ok names.dropLast
    else if maxNameSize < component.utf8ByteSize then .error .unusable
    else if (files.node? (names ++ [component])).isSome then .ok (names ++ [component])
    else .error .missing

/-- Whether a path can be followed as far as its characters go. -/
def isUsable (path : String) : Bool :=
  !path.toList.contains '\x00' && path.utf8ByteSize ≤ maxPathSize

/-- Where a path starts. -/
def start (files : FileSystem) (path : String) : List String :=
  if Path.isAbsolute path then [] else files.workingDirectory

/-- The names on the way from the root to what a path leads to.  The empty path leads nowhere. -/
def locate (files : FileSystem) (path : String) : Except PathFault (List String) :=
  if path.isEmpty then .error .missing
  else if isUsable path then (Path.components path).foldlM files.follow (files.start path)
  else .error .unusable

/-- The directory or file that a path leads to.  Nothing is found where a name is missing. -/
def find (files : FileSystem) (path : String) : Except ResourceFault (Option FileNode) :=
  match files.locate path with
  | .ok names => .ok (files.node? names)
  | .error .missing => .ok none
  | .error .unusable => .error .transfer

/-- The content of the file of a number. -/
def content (files : FileSystem) (number : Nat) : Bytes := files.contents[number]?.getD []

/-- Whether a path leads to a file. -/
def isFile (files : FileSystem) (path : String) : Bool :=
  match files.find path with
  | .ok (some (.file _)) => true
  | _ => false

/-- The content of the file that a path leads to, if there is one.  A directory has none that could
be read. -/
def read (files : FileSystem) (path : String) : Except ResourceFault (Option Bytes) :=
  match files.find path with
  | .ok none => .ok none
  | .ok (some (.file number)) => .ok (some (files.content number))
  | .ok (some .directory) | .error _ => .error .transfer

/-- What can be read is a file. -/
theorem isFile_of_read {files : FileSystem} {path : String} {data : Bytes}
    (h : files.read path = .ok (some data)) : files.isFile path = true := by
  unfold read at h
  unfold isFile
  split at h <;> simp_all

/-- What does not exist is no file. -/
theorem isFile_of_read_none {files : FileSystem} {path : String}
    (h : files.read path = .ok none) : files.isFile path = false := by
  unfold read at h
  unfold isFile
  split at h <;> simp_all

/-- Puts a directory at the end of names on the way from the root. -/
def addDirectory (files : FileSystem) (names : List String) : FileSystem :=
  { files with
    nodes := files.nodes.insert names .directory
    numbered := by
      intro other number member
      rcases Table.mem_write member with new | old
      · cases new
      · exact files.numbered other number old }

/-- Follows components from a place and makes the directories that are missing on the way.  That is
impossible where a file is in the way or the place itself is missing. -/
def addDirectories (files : FileSystem) (names : List String) :
    List String → Option (FileSystem × List String)
  | [] => some (files, names)
  | component :: rest =>
    match files.follow names component with
    | .ok names => files.addDirectories names rest
    | .error .unusable => none
    | .error .missing =>
      if files.node? names = some .directory then
        let names := names ++ [component]
        (files.addDirectory names).addDirectories names rest
      else none

/-- Gives a file another content. -/
def rewrite (files : FileSystem) (number : Nat) (content : Bytes) : FileSystem :=
  { files with
    contents := files.contents.setIfInBounds number content
    numbered := by
      intro names other member
      rw [Array.size_setIfInBounds]
      exact files.numbered names other member }

/-- Puts a new file at the end of names on the way from the root. -/
def addFile (files : FileSystem) (names : List String) (content : Bytes) : FileSystem :=
  { files with
    nodes := files.nodes.insert names (.file files.contents.size)
    contents := files.contents.push content
    numbered := by
      intro other number member
      rw [Array.size_push]
      rcases Table.mem_write member with new | old
      · obtain ⟨-, rfl⟩ := by simpa using new
        exact Nat.lt_succ_self _
      · exact Nat.lt_succ_of_lt (files.numbered other number old) }

/-- Writes a file at the end of names on the way from the root.  A file that is there gets another
content and stays the same file. -/
def putFile (files : FileSystem) (names : List String) (content : Bytes) : FileSystem :=
  match files.node? names with
  | some .directory => files
  | some (.file number) => files.rewrite number content
  | none => files.addFile names content

/-- Whether a component of a path can be the name of a file. -/
def isName (component : String) : Bool :=
  component != "" && component != "." && component != ".."
    && component.utf8ByteSize ≤ maxNameSize

/-- The place at which a path ends, with the directories on the way to it, which are made. -/
def makeWay (files : FileSystem) (path : String) : Option (FileSystem × List String) :=
  let components := Path.components path
  match components.getLast? with
  | none => none
  | some last =>
    if isUsable path && isName last then
      match files.addDirectories (files.start path) components.dropLast with
      | none => none
      | some (files, names) =>
        if files.node? names = some .directory then some (files, names ++ [last]) else none
    else none

/-- Makes the directories on a path. -/
def makeDirectories (files : FileSystem) (path : String) : FileSystem :=
  if isUsable path then
    ((files.addDirectories (files.start path) (Path.components path)).map Prod.fst).getD files
  else files

/-- Writes a file, or makes a directory if there is no content, and makes the directories on the
way.  Nothing is written where that is impossible. -/
def write (files : FileSystem) (path : String) : Option Bytes → FileSystem
  | none => files.makeDirectories path
  | some content =>
    match files.makeWay path with
    | none => files
    | some (files, names) => files.putFile names content

/-- Whether a file that is there gets another content when a file is written to a path. -/
def overwrites (files : FileSystem) (path : String) : Bool :=
  match files.makeWay path with
  | none => false
  | some (files, names) =>
    match files.node? names with
    | some (.file _) => true
    | _ => false

/-- The files without what is at the end of names on the way from the root and below it. -/
def remove (files : FileSystem) (names : List String) : FileSystem :=
  { files with
    nodes := files.nodes.filter fun key _ => !names.isPrefixOf key
    numbered := by
      intro other number member
      exact files.numbered other number (List.mem_filter.1 member).1 }

/-- Removes what a path leads to, with all that is below it, and whether there was anything.  The
root stays. -/
def delete (files : FileSystem) (path : String) : Bool × FileSystem :=
  match files.locate path with
  | .ok (first :: rest) => (true, files.remove (first :: rest))
  | _ => (false, files)

/-- The number of bytes in all files, also in those without a name. -/
def size (files : FileSystem) : Nat :=
  files.contents.foldl (fun total content => total + content.length) 0

/-- The tree moved to a place below its root, which is the working directory then. -/
def movedTo (files : FileSystem) (place : List String) : FileSystem :=
  { nodes :=
      ⟨(List.range place.length).map (fun depth => (place.take (depth + 1), .directory))
        ++ files.nodes.entries.map fun entry => (place ++ entry.1, entry.2)⟩
    contents := files.contents
    workingDirectory := place
    numbered := by
      intro names number member
      rcases List.mem_append.1 member with way | moved
      · obtain ⟨depth, -, same⟩ := List.mem_map.1 way
        cases same
      · obtain ⟨⟨old, node⟩, here, same⟩ := List.mem_map.1 moved
        cases same
        exact files.numbered old number here }

end FileSystem

end ClassLattice
