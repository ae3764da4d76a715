import ClassLattice.Proofs.Workspace.Coherent

/-!
# Using and making nodes

A store retains nodes by name, and a new node is listed unless a node in use has its name.  In a
coherent workspace a name has one node in use, so names say no more than identities: retaining a
node moves its identity to the front of the order of use.

Here are the forms in which this is followed through proofs, and that the first of them is what
retaining by name comes to.  That a new node is always listed is shown where it is known that its
name has no node in use.
-/

set_option autoImplicit false

namespace ClassLattice

namespace NodeStore

variable {store : NodeStore} {heap : Heap} {id : NodeId}

/-- The nodes that no longer fit in when a node is put first in the order of use. -/
def displacedBy (store : NodeStore) (id : NodeId) : List NodeId :=
  (store.recent.erase id).drop (store.capacity - 1)

/-- Puts a node first in the order of use. -/
def touch (store : NodeStore) (id : NodeId) : NodeStore :=
  { store with recent := (id :: store.recent.erase id).take store.capacity }

/-- Where no other retained node has the name of a node, leaving out its name is leaving out the
node. -/
theorem filter_named_eq_erase (nodup : store.recent.Nodup)
    (single : ∀ other ∈ store.recent, (heap.node other).name = (heap.node id).name → other = id) :
    (store.recent.filter fun other => !((heap.node other).name == (heap.node id).name)) =
      store.recent.erase id := by
  rw [nodup.erase_eq_filter]
  apply List.filter_congr
  intro other member
  by_cases same : other = id
  · simp [same]
  · have apart : ((heap.node other).name == (heap.node id).name) = false :=
      beq_eq_false_iff_ne.2 fun h => same (single other member h)
    rw [apart, bne_iff_ne.2 same]
    rfl

/-- The retained node of the name of a node is the node itself, if it is retained. -/
theorem find?_named
    (single : ∀ other ∈ store.recent, (heap.node other).name = (heap.node id).name → other = id) :
    (store.recent.find? fun other => (heap.node other).name == (heap.node id).name) =
      if id ∈ store.recent then some id else none := by
  split
  · rename_i retained
    obtain ⟨other, found⟩ := Option.isSome_iff_exists.1
      (List.find?_isSome.2 ⟨id, retained, BEq.rfl⟩ :
        (store.recent.find? fun other => (heap.node other).name == (heap.node id).name).isSome)
    have same := single other (List.mem_of_find?_eq_some found) (by
      simpa using List.find?_some found)
    rw [found, same]
  · rename_i absent
    apply List.find?_eq_none.2
    intro other member same
    exact absent (single other member (by simpa using same) ▸ member)

/-- **Retaining a node by name moves its identity to the front**, where no other retained node has
its name. -/
theorem retain_eq_touch (nodup : store.recent.Nodup)
    (fits : store.recent.length ≤ store.capacity)
    (single : ∀ other ∈ store.recent, (heap.node other).name = (heap.node id).name → other = id) :
    store.retain heap id = (store.displacedBy id, store.touch id) := by
  unfold retain retained?
  by_cases zero : store.capacity = 0
  · -- A store that retains nothing has nothing to displace.
    obtain ⟨pinned, live, recent, capacity, threshold⟩ := store
    obtain rfl : capacity = 0 := zero
    obtain rfl : recent = [] := List.length_eq_zero_iff.1 (Nat.le_zero.1 fits)
    rfl
  · rw [if_neg zero]
    dsimp only
    generalize viewed : ({ capacity := store.capacity, entries := store.recent.map fun id =>
      ((heap.node id).name, id) } : Lru String NodeId) = cache
    have others : (cache.others (heap.node id).name).map Prod.snd = store.recent.erase id := by
      rw [← filter_named_eq_erase nodup single, ← viewed, Lru.others, List.filter_map,
        List.map_map]
      exact List.map_id _
    have found : (cache.entries.find? fun entry => entry.1 == (heap.node id).name) =
        if id ∈ store.recent then some ((heap.node id).name, id) else none := by
      rw [← viewed, List.find?_map]
      refine (congrArg (Option.map _) (find?_named single)).trans ?_
      split <;> rfl
    by_cases retained : id ∈ store.recent
    · have length : (store.recent.erase id).length = store.recent.length - 1 :=
        List.length_erase_of_mem retained
      have room : (id :: store.recent.erase id).length ≤ store.capacity := by
        have nonempty := List.length_pos_of_mem retained
        rw [List.length_cons, length]
        omega
      have displaced : store.displacedBy id = [] := by
        apply List.drop_of_length_le
        rw [List.length_cons] at room
        omega
      rw [if_pos retained] at found
      rw [displaced, touch, List.take_of_length_le room, Lru.get, found]
      dsimp only
      rw [List.map_cons, others]
    · rw [if_neg retained] at found
      have replaced : (cache.entries.filter fun entry => entry.1 == (heap.node id).name) = [] :=
        List.filter_eq_nil_iff.2 (List.find?_eq_none.1 found)
      have capacity : cache.capacity = store.capacity := by rw [← viewed]
      obtain ⟨room, size⟩ := Nat.exists_eq_succ_of_ne_zero zero
      rw [Lru.get, found]
      dsimp only [Lru.put]
      rw [replaced, capacity, List.nil_append, List.map_drop, List.map_take, List.map_cons, others,
        displacedBy, touch, size]
      rfl

end NodeStore

namespace Workspace

variable {registry : Registry} {workspace : Workspace} {id : NodeId} {node : Node} {name : String}

/-- Marks a node as the most recently used one.  What no longer fits into the store loses the
reference that the store had to it. -/
def touch (workspace : Workspace) (id : NodeId) : Workspace :=
  let displaced := workspace.store.displacedBy id
  (workspace.setStore (workspace.store.touch id)).reclaim displaced

/-- Allocates a node and lists it under its name. -/
def publish (workspace : Workspace) (node : Node) : NodeId × Workspace :=
  let (id, heap) := workspace.heap.allocate node
  let store := workspace.store
  let listed := { store with live := store.live.insert node.name id }
  let workspace := { workspace with heap }.setStore listed |>.noteUse node.name |>.touch id
  (id, workspace.setStore (workspace.store.sweep workspace.heap))

/-- **In a coherent workspace retaining a node is moving it to the front**: a name has one node in
use, and what is retained is in use. -/
theorem Coherent.retain_eq_touch (coherent : workspace.Coherent registry)
    (found : workspace.heap.get? id = some node) : workspace.retain id = workspace.touch id := by
  have single : ∀ other ∈ workspace.store.recent,
      (workspace.heap.node other).name = (workspace.heap.node id).name → other = id := by
    intro other member same
    obtain ⟨retained, here⟩ := coherent.recent_alive other member
    rw [Heap.node_of_get? here, Heap.node_of_get? found] at same
    exact coherent.id_unique ⟨retained, here, same⟩ ⟨node, found, rfl⟩
  unfold retain
  rw [NodeStore.retain_eq_touch coherent.recent_nodup coherent.recent_length single]
  rfl

/-- There is nothing to note about a name that has no node in use. -/
theorem noteClash_of_unused (unused : ∀ id, ¬ workspace.heap.Names id name) :
    workspace.noteClash name = workspace := by
  apply if_neg
  intro used
  obtain ⟨id, named⟩ := Heap.hasNode_iff.1 used
  exact unused id named

/-- Asking for a name that has no node in use is noted in the log of what is read and nowhere
else. -/
theorem noteRead_of_unused (unused : ∀ id, ¬ workspace.heap.Names id name) :
    workspace.noteRead name = { workspace with reads := workspace.reads.push name } := by
  unfold noteRead
  rw [noteClash_of_unused unused]

end Workspace

end ClassLattice
