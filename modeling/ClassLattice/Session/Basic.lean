import ClassLattice.Config.Decode
import ClassLattice.Hierarchy.InMemoryReader
import ClassLattice.Hierarchy.Operation

/-!
# Sessions

A session works with several hierarchies at once.  Each hierarchy is a pair of a reader and caches;
hierarchies may share caches, and all of them share one heap, so that a node may refer to nodes
from other caches.  Between the steps a session may change what the readers know.
-/

set_option autoImplicit false

namespace ClassLattice

/-- How the caches of a hierarchy are set up. -/
inductive Setup where
  /-- As the default settings say. -/
  | standard
  /-- As a configuration in TOML says. -/
  | configured (toml : String)
  /-- With a given capacity and given marker interfaces. -/
  | custom (capacity : Nat) (registry : Registry)
  deriving DecidableEq

/-- The capacity and the marker interfaces that settings ask for. -/
def Settings.plan (settings : Settings) : Nat × Registry :=
  (settings.cache.nodeCapacity, Registry.ofConfig settings.specialInterfaces)

/-- The capacity and the marker interfaces of a setup. -/
def Setup.plan : Setup → Except ConfigError (Nat × Registry)
  | standard => .ok ({} : Settings).plan
  | configured toml => Settings.plan <$> Settings.ofToml toml
  | custom capacity registry => .ok (capacity, registry)

/-- A hierarchy: the numbers of its caches and of its reader. -/
structure Facade where
  caches : Nat
  reader : Nat
  deriving DecidableEq

/-- A reader with the names that were asked of it since the log was last emptied. -/
structure LoggedReader where
  source : InMemoryReader
  log : Array String := #[]

/-- All that a session has: one heap, and caches, facades, readers and slots over it. -/
structure Session where
  heap : Heap := {}
  caches : Array Caches := #[]
  facades : Array Facade := #[]
  readers : Array LoggedReader := #[]
  slots : Table String NodeId := Table.empty

/-- A step of a session. -/
inductive Step where
  | operate (facade : Nat) (operation : Operation)
  | hasType (facade : Nat) (name : String)
  /-- A further hierarchy over another reader with the caches of a given one. -/
  | share (facade reader : Nat)
  /-- A further hierarchy with caches of its own. -/
  | fresh (reader : Nat) (setup : Setup)
  | addType (reader : Nat) (metadata : TypeMetadata)
  /-- From now on reading a name fails with a text. -/
  | damage (reader : Nat) (name text : String)
  /-- From now on reading a name does not fail by a fault. -/
  | mend (reader : Nat) (name : String)
  /-- The names that were asked of a reader, which are forgotten then. -/
  | takeLog (reader : Nat)
  deriving DecidableEq

/-- The reply to a step. -/
inductive Reply where
  | answer (answer : Answer)
  | refused (error : ConfigError)
  /-- The number of a hierarchy with caches of its own. -/
  | fresh (facade : Nat)
  /-- The number of a hierarchy, and whether its caches are those of the one it was made from. -/
  | shared (facade : Nat) (sameCaches : Bool)
  | metadata (previous : Option TypeMetadata)
  deriving DecidableEq

namespace Session

/-- The references that the session holds besides the caches of one number. -/
def heldBesides (session : Session) (caches : Nat) : List NodeId :=
  (session.caches.toList.zipIdx.filter fun entry => entry.2 != caches).flatMap fun entry =>
    entry.1.store.roots

/-- The workspace of the caches of a given number. -/
def workspace? (session : Session) (caches : Nat) : Option Workspace :=
  session.caches[caches]?.map fun shared =>
    { heap := session.heap, caches := shared, slots := session.slots
      held := session.heldBesides caches }

/-- The session after work in the workspace of one of its caches, with the names that were read
added to the log of a reader. -/
def store (session : Session) (caches reader : Nat) (workspace : Workspace) : Session :=
  { session with
    heap := workspace.heap
    caches := session.caches.setIfInBounds caches workspace.caches
    slots := workspace.slots
    readers := session.readers.modify reader fun logged =>
      { logged with log := logged.log ++ workspace.reads } }

/-- Carries out an operation on a hierarchy. -/
def operate (session : Session) (facade : Nat) (operation : Operation) : Answer × Session :=
  match session.facades[facade]? with
  | none => (.nothing, session)
  | some place =>
    match session.workspace? place.caches, session.readers[place.reader]? with
    | some workspace, some logged =>
      let (answer, workspace) := operation.perform logged.source.reader workspace
      (answer, session.store place.caches place.reader workspace)
    | _, _ => (.nothing, session)

/-- Makes a hierarchy with caches of its own. -/
def addFresh (session : Session) (reader : Nat) (plan : Nat × Registry) : Session :=
  let (store, heap) := NodeStore.create session.heap plan.1 plan.2
  { session with
    heap
    caches := session.caches.push { store }
    facades := session.facades.push ⟨session.caches.size, reader⟩ }

/-- Makes a hierarchy with the caches of another. -/
def addShared (session : Session) (place : Facade) (reader : Nat) : Session :=
  { session with facades := session.facades.push ⟨place.caches, reader⟩ }

/-- Changes what a reader answers. -/
def modifyReader (session : Session) (reader : Nat) (change : InMemoryReader → InMemoryReader) :
    Session :=
  { session with
    readers := session.readers.modify reader fun logged =>
      { logged with source := change logged.source } }

/-- The types, aliases and faults of a reader. -/
def source (session : Session) (reader : Nat) : InMemoryReader :=
  (session.readers[reader]?.map LoggedReader.source).getD {}

/-- Takes one step. -/
def step (session : Session) : Step → Reply × Session
  | .operate facade operation =>
    let (answer, session) := session.operate facade operation
    (.answer answer, session)
  | .hasType facade name =>
    let known := (session.facades[facade]?.map fun place =>
      (session.source place.reader).types.contains name).getD false
    (.answer (.flag known), session)
  | .share facade reader =>
    match session.facades[facade]? with
    | none => (.answer .nothing, session)
    | some place =>
      let session := session.addShared place reader
      let sameCaches := session.facades.back?.any fun made => made.caches == place.caches
      (.shared (session.facades.size - 1) sameCaches, session)
  | .fresh reader setup =>
    match setup.plan with
    | .error error => (.refused error, session)
    | .ok plan => (.fresh session.facades.size, session.addFresh reader plan)
  | .addType reader metadata =>
    (.metadata ((session.source reader).types.get? metadata.className),
      session.modifyReader reader fun source =>
        { source with types := MetadataMap.addType source.types metadata })
  | .damage reader name text =>
    (.answer (.flag ((session.source reader).faults.contains name)),
      session.modifyReader reader fun source =>
        { source with faults := source.faults.insert name text })
  | .mend reader name =>
    (.answer (.flag ((session.source reader).faults.contains name)),
      session.modifyReader reader fun source =>
        { source with faults := source.faults.erase name })
  | .takeLog reader =>
    let log := (session.readers[reader]?.map LoggedReader.log).getD #[]
    (.answer (.names log.toList),
      { session with
        readers := session.readers.modify reader fun logged => { logged with log := #[] } })

/-- Takes steps one after the other. -/
def run (session : Session) : List Step → List Reply × Session
  | [] => ([], session)
  | step :: rest =>
    let (reply, session) := session.step step
    let (replies, session) := session.run rest
    (reply :: replies, session)

/-- A session over given readers, with one hierarchy over the first of them. -/
def start (readers : List InMemoryReader) (setup : Setup) : Except ConfigError Session := do
  let plan ← setup.plan
  return { readers := (readers.map fun source => { source }).toArray : Session }.addFresh 0 plan

end Session

end ClassLattice
