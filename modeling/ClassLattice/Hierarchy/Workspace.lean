import ClassLattice.Hierarchy.NodeStore
import ClassLattice.Hierarchy.PairMemo

/-!
# Workspaces

A workspace is all that a query reads and changes: the heap, the caches that hierarchies may share,
the references that are held from outside the caches, and logs: of the names that were read, of the
nodes that were used, and of readings and new nodes for names that had a node in use.  Its operations
keep the heap free of nodes to which nothing refers.
-/

set_option autoImplicit false

namespace ClassLattice

/-- What hierarchies over different readers may share: the nodes and the answers so far. -/
structure Caches where
  store : NodeStore
  answers : PairMemo := Table.empty

/-- All that a query reads and changes. -/
structure Workspace where
  heap : Heap
  caches : Caches
  /-- References that are kept from one operation to the next, each under a name of its own. -/
  slots : Table String NodeId := Table.empty
  /-- The other references from outside the caches, each as often as it is held. -/
  held : List NodeId := []
  /-- The names that were asked of a reader, in order. -/
  reads : Array String := #[]
  /-- The names of the nodes that were found or made since the retained ones were last given up, the
  latest first.  Pinned nodes do not count. -/
  uses : List String := []
  /-- The names that a reader was asked for, or that new nodes were made for, while a node of the
  name was in use. -/
  clashes : List String := []

namespace Workspace

/-- A workspace in which nothing was done yet. -/
def create (capacity : Nat) (registry : Registry) : Workspace :=
  let (store, heap) := NodeStore.create {} capacity registry
  { heap, caches := { store } }

/-- The store of the caches. -/
def store (workspace : Workspace) : NodeStore := workspace.caches.store

/-- The workspace with another store. -/
def setStore (workspace : Workspace) (store : NodeStore) : Workspace :=
  { workspace with caches := { workspace.caches with store } }

/-- Whether a node is referred to from outside the heap. -/
def isHeld (workspace : Workspace) (id : NodeId) : Bool :=
  workspace.held.contains id || workspace.slots.values.contains id || workspace.store.keeps id

/-- Frees those of the given nodes to which nothing refers, with all that goes with them. -/
def reclaim (workspace : Workspace) (candidates : List NodeId) : Workspace :=
  { workspace with heap := workspace.heap.reclaim workspace.isHeld candidates }

/-- Keeps a node in use for as long as it is held. -/
def hold (workspace : Workspace) (id : NodeId) : Workspace :=
  { workspace with held := id :: workspace.held }

/-- Ends one hold on a node, which is reclaimed if nothing else keeps it. -/
def letGo (workspace : Workspace) (id : NodeId) : Workspace :=
  { workspace with held := workspace.held.erase id }.reclaim [id]

/-- Keeps a reference under a name, in place of the one that was there. -/
def fillSlot (workspace : Workspace) (slot : String) (id : NodeId) : Workspace :=
  let old := workspace.slots.get? slot
  { workspace with slots := workspace.slots.insert slot id }.reclaim old.toList

/-- Gives up the reference that is kept under a name. -/
def clearSlot (workspace : Workspace) (slot : String) : Workspace :=
  let old := workspace.slots.get? slot
  { workspace with slots := workspace.slots.erase slot }.reclaim old.toList

/-- Has the store retain a node.  What the store gives up for that loses the reference that the
store had to it. -/
def retain (workspace : Workspace) (id : NodeId) : Workspace :=
  let (displaced, store) := workspace.store.retain workspace.heap id
  (workspace.setStore store).reclaim displaced

/-- Notes the name of a node in the log of uses. -/
def noteUse (workspace : Workspace) (name : String) : Workspace :=
  { workspace with uses := name :: workspace.uses }

/-- Notes in the log of clashes that something is to be made or read for a name, if the name has a
node in use. -/
def noteClash (workspace : Workspace) (name : String) : Workspace :=
  if workspace.heap.hasNode name then { workspace with clashes := name :: workspace.clashes }
  else workspace

/-- Notes that a reader is asked for a name. -/
def noteRead (workspace : Workspace) (name : String) : Workspace :=
  let workspace := workspace.noteClash name
  { workspace with reads := workspace.reads.push name }

/-- The node under a name, if the name is pinned or its node is in use.  A node that is not pinned
counts as used by that. -/
def cached (workspace : Workspace) (name : String) : Option NodeId × Workspace :=
  match workspace.store.pinned.get? name with
  | some id => (some id, workspace)
  | none =>
    match workspace.store.live.get? name with
    | some id =>
      if workspace.heap.isAlive id then (some id, (workspace.noteUse name).retain id)
      else (none, workspace)
    | none => (none, workspace)

/-- The node in use that is listed under a name. -/
def listed? (workspace : Workspace) (name : String) : Option NodeId :=
  (workspace.store.live.get? name).filter workspace.heap.isAlive

/-- Lists a node under a name.  That uses the node, and the entries of freed nodes are swept out
where it is time for that. -/
def enlist (workspace : Workspace) (name : String) (id : NodeId) : Workspace :=
  let store := workspace.store
  let listed := { store with live := store.live.insert name id }
  let workspace := (workspace.setStore listed |>.noteUse name).retain id
  workspace.setStore (workspace.store.sweep workspace.heap)

/-- Makes a node and lists it under its name.  If a node in use is listed there by then, it is given
out in place of the new one, which is given up again. -/
def insert (workspace : Workspace) (node : Node) : NodeId × Workspace :=
  let workspace := workspace.noteClash node.name
  let (id, heap) := workspace.heap.allocate node
  let workspace := { workspace with heap }
  match workspace.listed? node.name with
  | some existing => (existing, workspace.reclaim [id])
  | none => (id, workspace.enlist node.name id)

/-- Gives up all references that the store has to nodes that are not pinned, and removes the
entries of freed nodes. -/
def releaseRetained (workspace : Workspace) : Workspace :=
  let retained := workspace.store.recent
  let workspace := (workspace.setStore { workspace.store with recent := [] }).reclaim retained
  { workspace.setStore (workspace.store.dropFreed workspace.heap) with uses := [] }

/-- Forgets all answers. -/
def clearAnswers (workspace : Workspace) : Workspace :=
  { workspace with caches := { workspace.caches with answers := Table.empty } }

/-- How deep a walk can go that starts from given names, meets the nodes of the heap and reads
names from a reader whose answers have a given extent.  A walk passes each class or interface at
most once before it stops, and between two of them at most one array layer for each byte of a
name. -/
def walkLimit (workspace : Workspace) (extent : Nat) (names : List String) : Nat :=
  let weight := extent + workspace.heap.extent + namesWeight names + 2
  weight * weight

end Workspace

end ClassLattice
