import ClassLattice.Archive.Content
import ClassLattice.ClassPath.TypeReader
import ClassLattice.Session.Basic

/-!
# Sessions on a class path

A session works with two hierarchies that share their caches: one over the class files on a class
path and one over types in memory.  Between the steps files may come and go.

All files of a session are in one directory, and the paths that are given to it start there.
-/

set_option autoImplicit false

namespace ClassLattice

/-- A class path over files, with a workspace that reads from it. -/
structure DiskSession where
  files : FileSystem
  path : ClassPath .zip
  /-- The types in memory. -/
  types : MetadataMap
  workspace : Workspace

/-- A step of such a session. -/
inductive DiskStep where
  /-- Whether there is a resource on the whole class path. -/
  | has (name : String)
  | read (name : String)
  /-- Whether there is a resource in one entry alone. -/
  | hasIn (entry : PathEntry) (name : String)
  | readIn (entry : PathEntry) (name : String)
  | hasType (name : String)
  | metadata (name : String)
  /-- An operation on the hierarchy over the class path. -/
  | operate (operation : Operation)
  /-- An operation on the hierarchy over the types in memory. -/
  | operateInMemory (operation : Operation)
  /-- Writes a file, or makes a directory if there is no content. -/
  | write (path : String) (content : Option Bytes)
  | delete (path : String)
  | entryCount
  deriving DecidableEq

/-- The reply to such a step. -/
inductive DiskReply where
  | answer (answer : Answer)
  | resource (result : Except ResourceFault (Option Bytes))
  | metadata (result : Except HierarchyError TypeMetadata)

namespace DiskSession

/-- The names on the way to the directory of a session. -/
def place : List String := ["tmp", ".tmp000000"]

/-- The path that a path given to a session stands for. -/
def pathOf (path : String) : String := Path.join ("/" ++ "/".intercalate place) path

/-- The entry that an entry of a session stands for. -/
def entryOf (entry : PathEntry) : PathEntry := { entry with path := pathOf entry.path }

/-- The number of entries in the directories of the open archives. -/
def openEntryCount (path : ClassPath .zip) : Nat :=
  path.slots.foldr (fun slot total =>
    (slot.archive.map fun archive => archive.directory.entries.length).getD 0 + total) 0

/-- How many times its own size deflated data can stand for at most. -/
def maxInflation : Nat := 1032

/-- A bound on the weight of the names in all class files that there are.  No file holds more names
than bytes, and no archive more entries. -/
def extent (session : DiskSession) : Nat :=
  let size := session.files.size + openEntryCount session.path + 1
  maxInflation * size * size

/-- Carries out an operation on the hierarchy over a reader. -/
def operate (session : DiskSession) (reader : Reader) (operation : Operation) :
    Answer × List String × DiskSession :=
  let (answer, workspace) := operation.perform reader session.workspace
  (answer, workspace.reads.toList, { session with workspace := { workspace with reads := #[] } })

/-- Takes one step. -/
def step (session : DiskSession) : DiskStep → DiskReply × DiskSession
  | .has name =>
    let (found, path) := session.path.hasResource session.files name
    (.answer (.flag found), { session with path })
  | .read name =>
    let (result, path) := session.path.readResource session.files name
    (.resource result, { session with path })
  | .hasIn entry name =>
    (.answer (.flag ((entryOf entry).hasResource .zip session.files name)), session)
  | .readIn entry name => (.resource ((entryOf entry).readResource .zip session.files name), session)
  | .hasType name =>
    let (found, path) := session.path.hasType session.files name
    (.answer (.flag found), { session with path })
  | .metadata name =>
    let (result, path) := session.path.readType session.files name
    (.metadata result, { session with path })
  | .operate operation =>
    let reader := session.path.reader session.files session.extent
    let (answer, names, session) := session.operate reader operation
    (.answer answer, { session with path := session.path.afterReads session.files names })
  | .operateInMemory operation =>
    let (answer, _, session) := session.operate session.types.reader operation
    (.answer answer, session)
  | .write path content =>
    (.answer .nothing, { session with files := session.files.write (pathOf path) content })
  | .delete path =>
    let (worked, files) := session.files.delete (pathOf path)
    (.answer (.flag worked), { session with files })
  | .entryCount => (.answer (.count session.path.slots.length), session)

/-- Takes steps one after the other. -/
def run (session : DiskSession) : List DiskStep → List DiskReply × DiskSession
  | [] => ([], session)
  | step :: rest =>
    let (reply, session) := session.step step
    let (replies, session) := session.run rest
    (reply :: replies, session)

/-- A session on a class path over given files, which are moved to the directory of the session, with
given types in memory. -/
def start (files : FileSystem) (entries : List PathEntry) (types : MetadataMap) (setup : Setup) :
    Except ConfigError DiskSession := do
  let (capacity, registry) ← setup.plan
  return { files := files.movedTo place, path := .ofEntries (entries.map entryOf), types
           workspace := Workspace.create capacity registry }

end DiskSession

end ClassLattice
