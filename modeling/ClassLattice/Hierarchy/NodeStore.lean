import ClassLattice.Hierarchy.Heap
import ClassLattice.Hierarchy.Lru
import ClassLattice.Hierarchy.Registry

/-!
# Nodes by name

A store finds the nodes of types by name.  The root, the primitive types and the registered marker
interfaces are pinned: they are there from the beginning and never go.  All other nodes are listed
without being kept in use by that, and the most recently used of them are retained up to the
capacity of the store.  Entries of freed nodes are swept out when the list has grown long enough.
-/

set_option autoImplicit false

namespace ClassLattice

/-- The least number of entries at which a store looks for entries of freed nodes. -/
def leastSweepThreshold : Nat := 1024

/-- The tables of a store. -/
structure NodeStore where
  /-- The nodes that never go. -/
  pinned : Table String NodeId
  /-- The other nodes by name, some of which may have been freed. -/
  live : Table String NodeId := Table.empty
  /-- The nodes that are retained, the most recently used first. -/
  recent : List NodeId := []
  /-- How many nodes may be retained. -/
  capacity : Nat
  /-- The number of entries in `live` at which freed ones are next swept out. -/
  sweepThreshold : Nat := leastSweepThreshold

namespace NodeStore

/-- The nodes that every store has pinned. -/
def builtIns : List Node := Node.ofRoot :: BaseType.all.map Node.ofPrimitive

/-- The nodes of a registry. -/
def markers (registry : Registry) : List Node :=
  registry.toList.map fun special => Node.ofSpecial special.name special.interfaces

/-- Pins a node unless its name is taken. -/
def pin (state : Table String NodeId × Heap) (node : Node) : Table String NodeId × Heap :=
  if state.1.contains node.name then state
  else
    let (id, heap) := state.2.allocate node
    (state.1.insert node.name id, heap)

/-- A new store over a heap, with its pinned nodes allocated. -/
def create (heap : Heap) (capacity : Nat) (registry : Registry) : NodeStore × Heap :=
  let (pinned, heap) := (builtIns ++ markers registry).foldl pin (Table.empty, heap)
  ({ pinned, capacity }, heap)

/-- The node of the root. -/
def root (store : NodeStore) : NodeId := (store.pinned.get? rootName).getD ⟨0⟩

/-- The node of a primitive type. -/
def primitive (store : NodeStore) (base : BaseType) : NodeId :=
  (store.pinned.get? base.name).getD store.root

/-- Whether a name belongs to a pinned node. -/
def isPinned (store : NodeStore) (name : String) : Bool := store.pinned.contains name

/-- Whether the store itself refers to a node. -/
def keeps (store : NodeStore) (id : NodeId) : Bool :=
  store.recent.contains id || store.pinned.values.contains id

/-- The nodes that a store keeps by itself. -/
def roots (store : NodeStore) : List NodeId := store.recent ++ store.pinned.values

/-- The retained nodes by their names, if any may be retained. -/
def retained? (store : NodeStore) (heap : Heap) : Option (Lru String NodeId) :=
  if store.capacity = 0 then none
  else
    some
      { capacity := store.capacity
        entries := store.recent.map fun id => ((heap.node id).name, id) }

/-- Retains a node unless one of its name is retained, which is marked as used then.  The nodes
that are given up for it come with the store. -/
def retain (store : NodeStore) (heap : Heap) (id : NodeId) : List NodeId × NodeStore :=
  match store.retained? heap with
  | none => ([], store)
  | some cache =>
    let name := (heap.node id).name
    match cache.get name with
    | (some _, cache) => ([], { store with recent := cache.entries.map Prod.snd })
    | (none, cache) =>
      let (displaced, cache) := cache.put name id
      (displaced, { store with recent := cache.entries.map Prod.snd })

/-- Removes the entries of freed nodes. -/
def dropFreed (store : NodeStore) (heap : Heap) : NodeStore :=
  { store with live := store.live.filter fun _ id => heap.isAlive id }

/-- Removes the entries of freed nodes if there are enough entries, and then sets the next
threshold at twice what is left. -/
def sweep (store : NodeStore) (heap : Heap) : NodeStore :=
  if store.live.size < store.sweepThreshold then store
  else
    let store := store.dropFreed heap
    { store with sweepThreshold := max (store.live.size * 2) leastSweepThreshold }

end NodeStore

end ClassLattice
