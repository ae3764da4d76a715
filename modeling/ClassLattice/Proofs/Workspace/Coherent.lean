import ClassLattice.Hierarchy.Workspace
import ClassLattice.Proofs.Heap.Reclaim
import ClassLattice.Proofs.Node.Outline
import ClassLattice.Proofs.Related
import ClassLattice.Proofs.Table

/-!
# Coherent workspaces

A workspace is coherent if its tables and its heap tell the same story: every node has a shape that
its name allows, resolved edges lead to nodes of the names that were declared, a name has at most
one node in use and the tables find it, and whatever is held is in use.  The invariant does not
say where metadata came from, so it holds whatever the readers answer.
-/

set_option autoImplicit false

namespace ClassLattice

namespace Heap

variable {heap : Heap} {id : NodeId} {node : Node} {name : String}

/-- A node is in use and has a name. -/
def Names (heap : Heap) (id : NodeId) (name : String) : Prop :=
  ∃ node, heap.get? id = some node ∧ node.name = name

/-- A node has a shape when its element is read by name. -/
def Shows (heap : Heap) (node : Node) (shape : Shape String) : Prop :=
  node.outline.Matches heap.Names shape

/-- A node has one name. -/
theorem Names.unique {other : String} (h : heap.Names id name) (h' : heap.Names id other) :
    name = other := by
  obtain ⟨node, found, rfl⟩ := h
  obtain ⟨node', found', rfl⟩ := h'
  rw [Option.some.inj (found.symm.trans found')]

/-- A name has a node in use exactly if some cell of the heap holds one. -/
theorem hasNode_iff : heap.hasNode name = true ↔ ∃ id, heap.Names id name := by
  unfold hasNode
  rw [Array.any_eq_true]
  constructor
  · rintro ⟨index, inside, holds⟩
    split at holds
    · rename_i node cell
      refine ⟨⟨index⟩, node, ?_, by simpa using holds⟩
      simp [get?, Array.getElem?_eq_getElem inside, cell]
    · cases holds
  · rintro ⟨id, node, found, rfl⟩
    have inside := index_lt_of_get? found
    refine ⟨id.index, inside, ?_⟩
    have cell : heap.cells[id.index] = some node := by
      simpa [get?, Array.getElem?_eq_getElem inside, Option.join_eq_some_iff] using found
    rw [cell]
    exact BEq.rfl

end Heap

/-- A name allows a shape, whatever metadata it may have. -/
inductive Registry.Allows (registry : Registry) : String → Shape String → Prop
  | pinned {name : String} {shape : Shape String} (h : registry.shape? name = some shape) :
      Allows registry name shape
  | array {name element : String} (free : registry.shape? name = none)
      (h : layout name = .ok (some element)) : Allows registry name (.array element)
  | declared {name : String} {declaration : Declaration} (free : registry.shape? name = none)
      (plain : layout name = .ok none) (ordinary : declaration.isMarker = false) :
      Allows registry name (.declared declaration)

namespace Workspace

/-- References from outside that last for as long as a query runs. -/
def Anchors (workspace : Workspace) (id : NodeId) : Prop :=
  id ∈ workspace.held ∨ id ∈ workspace.slots.values ∨ id ∈ workspace.store.pinned.values

/-- The tables and the heap of a workspace fit together. -/
structure Coherent (registry : Registry) (workspace : Workspace) : Prop where
  /-- Every node has a shape that its name allows. -/
  shapes : ∀ id node, workspace.heap.get? id = some node →
    ∃ shape, workspace.heap.Shows node shape ∧ registry.Allows node.name shape
  /-- A resolved edge to the superclass leads to a node of the declared name. -/
  superLinks : ∀ id node, workspace.heap.get? id = some node → ∀ name target,
    node.superLink? = some (.resolved name target) → workspace.heap.Names target name
  /-- Resolved edges to interfaces lead to nodes of the declared names. -/
  interfaceLinks : ∀ id node, workspace.heap.get? id = some node → ∀ names targets,
    node.interfaceLink? = some (.resolved names targets) →
      List.Forall₂ workspace.heap.Names targets names
  /-- Every pinned shape has its node. -/
  pinned : ∀ name shape, registry.shape? name = some shape →
    ∃ id, workspace.store.pinned.get? name = some id
  /-- Every pinned node is in use under its name, and the name has a pinned shape. -/
  pinned_entries : ∀ name id, (name, id) ∈ workspace.store.pinned.entries →
    workspace.heap.Names id name ∧ ∃ shape, registry.shape? name = some shape
  /-- A node of a pinned name is the pinned one. -/
  pinned_unique : ∀ id node, workspace.heap.get? id = some node →
    ∀ shape, registry.shape? node.name = some shape →
      workspace.store.pinned.get? node.name = some id
  /-- Every other node is listed under its name. -/
  listed : ∀ id node, workspace.heap.get? id = some node → registry.shape? node.name = none →
    workspace.store.live.get? node.name = some id
  /-- A listed node that is in use has the name that it is listed under. -/
  live_entries : ∀ name id node, (name, id) ∈ workspace.store.live.entries →
    workspace.heap.get? id = some node → node.name = name ∧ registry.shape? name = none
  /-- The identity of every entry was allocated. -/
  live_allocated : ∀ name id, (name, id) ∈ workspace.store.live.entries →
    id.index < workspace.heap.cells.size
  recent_alive : ∀ id ∈ workspace.store.recent, ∃ node, workspace.heap.get? id = some node
  recent_nodup : workspace.store.recent.Nodup
  recent_length : workspace.store.recent.length ≤ workspace.store.capacity
  held_alive : ∀ id ∈ workspace.held, ∃ node, workspace.heap.get? id = some node
  slots_alive : ∀ id ∈ workspace.slots.values, ∃ node, workspace.heap.get? id = some node

variable {registry : Registry} {workspace : Workspace} {id other : NodeId} {node : Node}
  {name : String}

namespace Coherent

/-- In a coherent workspace no reference leads to a freed node. -/
theorem closed (coherent : workspace.Coherent registry) : workspace.heap.Closed := by
  rintro id other ⟨node, found, member⟩
  rw [Node.mem_references_iff] at member
  rcases member with element | ⟨name, parent⟩ | ⟨names, targets, interfaces, member⟩
  · obtain ⟨shape, shows, -⟩ := coherent.shapes id node found
    rw [Node.element?_eq_outline] at element
    cases outline : node.outline with
    | array inner =>
      rw [Heap.Shows, outline] at shows
      obtain rfl : inner = other := by simpa [outline, Shape.element?] using element
      cases shows with
      | array names => exact names.imp fun _ h => h.1
    | _ => simp [outline, Shape.element?] at element
  · exact (coherent.superLinks id node found name other parent).imp fun _ h => h.1
  · have related := coherent.interfaceLinks id node found names targets interfaces
    obtain ⟨name, -, named⟩ := related.exists_right member
    exact named.imp fun _ h => h.1

/-- What is anchored from outside is held. -/
theorem isHeld_of_anchors (h : workspace.Anchors id) : workspace.isHeld id = true := by
  rcases h with held | slot | pinned
  · simp [isHeld, held]
  · simp [isHeld, slot]
  · simp [isHeld, NodeStore.keeps, pinned]

/-- What is anchored from outside is in use. -/
theorem alive_of_anchors (coherent : workspace.Coherent registry) (h : workspace.Anchors id) :
    ∃ node, workspace.heap.get? id = some node := by
  rcases h with held | slot | pinned
  · exact coherent.held_alive id held
  · exact coherent.slots_alive id slot
  · obtain ⟨⟨name, id⟩, member, rfl⟩ := List.mem_map.1 pinned
    exact (coherent.pinned_entries name id member).1.imp fun _ h => h.1

/-- A pinned node has the name under which it is pinned. -/
theorem names_of_pinned (coherent : workspace.Coherent registry)
    (h : workspace.store.pinned.get? name = some id) : workspace.heap.Names id name :=
  (coherent.pinned_entries name id (Table.mem_entries_of_get? h)).1

/-- What the caches know of a name is a node of the name. -/
theorem names_of_cached (coherent : workspace.Coherent registry)
    (h : (workspace.cached name).1 = some id) : workspace.heap.Names id name := by
  unfold Workspace.cached at h
  split at h
  · rename_i pinned
    obtain rfl := Option.some.inj h
    exact coherent.names_of_pinned pinned
  · split at h
    · rename_i live
      split at h
      · rename_i alive
        obtain rfl := Option.some.inj h
        obtain ⟨node, found⟩ := Heap.isAlive_iff.1 alive
        have entry := coherent.live_entries name _ node (Table.mem_entries_of_get? live) found
        exact ⟨node, found, entry.1⟩
      · cases h
    · cases h

/-- The root has its name. -/
theorem names_root (coherent : workspace.Coherent registry) :
    workspace.heap.Names workspace.store.root rootName := by
  obtain ⟨id, entry⟩ := coherent.pinned rootName .root (by simp [Registry.shape?])
  rw [NodeStore.root, entry]
  exact coherent.names_of_pinned entry

/-- Primitive types have their names. -/
theorem names_primitive (coherent : workspace.Coherent registry) (base : BaseType) :
    workspace.heap.Names (workspace.store.primitive base) base.name := by
  have shape : registry.shape? base.name = some (.primitive base) := by
    cases base <;> rfl
  obtain ⟨id, entry⟩ := coherent.pinned base.name _ shape
  rw [NodeStore.primitive, entry]
  exact coherent.names_of_pinned entry

/-- The node of an array leads to a node of the element that its name has. -/
theorem names_element (coherent : workspace.Coherent registry) {element : NodeId}
    (found : workspace.heap.get? id = some node) (isArray : node.element? = some element) :
    ∃ inner, registry.shape? node.name = none ∧ layout node.name = .ok (some inner) ∧
      workspace.heap.Names element inner := by
  obtain ⟨shape, shows, allowed⟩ := coherent.shapes id node found
  rw [Node.element?_eq_outline] at isArray
  cases allowed with
  | pinned told =>
    rw [shows.element?_eq_none (Registry.element?_of_shape? told)] at isArray
    cases isArray
  | @array inner free laid =>
    obtain ⟨other, isArray', named⟩ := shows.exists_element
    obtain rfl := Option.some.inj (isArray.symm.trans isArray')
    exact ⟨inner, free, laid, named⟩
  | declared =>
    rw [shows.element?_eq_none rfl] at isArray
    cases isArray

/-- **Of one name there is one node in use.** -/
theorem id_unique (coherent : workspace.Coherent registry) (h : workspace.heap.Names id name)
    (h' : workspace.heap.Names other name) : id = other := by
  obtain ⟨node, found, rfl⟩ := h
  obtain ⟨node', found', same⟩ := h'
  cases pinned : registry.shape? node.name with
  | some shape =>
    have first := coherent.pinned_unique id node found shape pinned
    have second := coherent.pinned_unique other node' found' shape (same ▸ pinned)
    rw [same] at second
    exact Option.some.inj (first.symm.trans second)
  | none =>
    have first := coherent.listed id node found pinned
    have second := coherent.listed other node' found' (same ▸ pinned)
    rw [same] at second
    exact Option.some.inj (first.symm.trans second)

/-! ## Changes that keep a workspace coherent -/

/-- **Freeing what is not held keeps a workspace coherent**, as long as nothing that is left
refers to what is gone. -/
theorem freeing (coherent : workspace.Coherent registry) {heap : Heap}
    (left : ∀ id node, heap.get? id = some node → workspace.heap.get? id = some node)
    (closed : heap.Closed) (size : heap.cells.size = workspace.heap.cells.size)
    (kept : ∀ id node, workspace.isHeld id = true → workspace.heap.get? id = some node →
      heap.get? id = some node) :
    Coherent registry { workspace with heap } := by
  -- What is left refers only to what is left, so every edge still has its target.
  have names {id name} (h : workspace.heap.Names id name)
      (alive : ∃ node, heap.get? id = some node) : heap.Names id name := by
    obtain ⟨node, found, rfl⟩ := h
    obtain ⟨node', found'⟩ := alive
    have same := Option.some.inj (found.symm.trans (left id node' found'))
    exact ⟨node', found', same ▸ rfl⟩
  have held_stays {id} (held : workspace.isHeld id = true)
      (alive : ∃ node, workspace.heap.get? id = some node) : ∃ node, heap.get? id = some node :=
    alive.imp fun node found => kept id node held found
  refine
    { coherent with
      shapes := fun id node found => ?_
      superLinks := fun id node found name target link => ?_
      interfaceLinks := fun id node found ids targets link => ?_
      pinned_entries := fun name id member => ?_
      pinned_unique := fun id node found => coherent.pinned_unique id node (left id node found)
      listed := fun id node found => coherent.listed id node (left id node found)
      live_entries := fun name id node member found =>
        coherent.live_entries name id node member (left id node found)
      live_allocated := fun name id member => size ▸ coherent.live_allocated name id member
      recent_alive := fun id member => held_stays ?_ (coherent.recent_alive id member)
      held_alive := fun id member => held_stays ?_ (coherent.held_alive id member)
      slots_alive := fun id member => held_stays ?_ (coherent.slots_alive id member) }
  · obtain ⟨shape, shows, allowed⟩ := coherent.shapes id node (left id node found)
    refine ⟨shape, shows.imp fun element name inner named => names named ?_, allowed⟩
    exact closed id element ⟨node, found, Node.mem_references_iff.2 (.inl
      (Node.element?_eq_outline.trans inner))⟩
  · have refers : heap.Refers id target :=
      ⟨node, found, Node.mem_references_iff.2 (.inr (.inl ⟨name, link⟩))⟩
    exact names (coherent.superLinks id node (left id node found) name target link)
      (closed id target refers)
  · have related := coherent.interfaceLinks id node (left id node found) ids targets link
    refine related.imp_of_mem fun target member name named => names named (closed id target ?_)
    exact ⟨node, found, Node.mem_references_iff.2 (.inr (.inr ⟨ids, targets, link, member⟩))⟩
  · obtain ⟨named, pinned⟩ := coherent.pinned_entries name id member
    have held : workspace.isHeld id = true :=
      isHeld_of_anchors (.inr (.inr (List.mem_map.2 ⟨(name, id), member, rfl⟩)))
    exact ⟨names named (held_stays held (named.imp fun _ h => h.1)), pinned⟩
  · have recent : id ∈ workspace.store.recent := member
    simp [isHeld, NodeStore.keeps, recent]
  · exact isHeld_of_anchors (.inl member)
  · exact isHeld_of_anchors (.inr (.inl member))

/-- To reclaim nodes keeps a workspace coherent. -/
theorem reclaim (coherent : workspace.Coherent registry) (candidates : List NodeId) :
    (workspace.reclaim candidates).Coherent registry :=
  coherent.freeing (fun _ _ => Heap.get?_of_get?_reclaim) coherent.closed.reclaim
    Heap.size_reclaim fun _ _ => Heap.get?_reclaim_of_held

end Coherent

end Workspace

end ClassLattice
