import ClassLattice.Hierarchy.Node

/-!
# The heap of nodes

Every node lives in a cell of the heap from its allocation until nothing refers to it any more.
Giving up a reference frees the node at once unless another reference to it is left, and with it
the nodes that it alone referred to.  Nodes that refer to one another in a circle keep each other
in use.
-/

set_option autoImplicit false

namespace ClassLattice

/-- The cells of all nodes allocated so far; the cell of a freed node is empty. -/
structure Heap where
  cells : Array (Option Node) := #[]

namespace Heap

/-- The node of an identity, if it is in use. -/
def get? (heap : Heap) (id : NodeId) : Option Node := heap.cells[id.index]?.join

/-- Whether a node is in use. -/
def isAlive (heap : Heap) (id : NodeId) : Bool := (heap.get? id).isSome

/-- The node of an identity.  A node that is not in use reads as the root. -/
def node (heap : Heap) (id : NodeId) : Node := (heap.get? id).getD Node.ofRoot

/-- A new identity with a node. -/
def allocate (heap : Heap) (node : Node) : NodeId × Heap :=
  (⟨heap.cells.size⟩, ⟨heap.cells.push (some node)⟩)

/-- Changes a node that is in use. -/
def modify (heap : Heap) (id : NodeId) (change : Node → Node) : Heap :=
  ⟨heap.cells.modify id.index (Option.map change)⟩

/-- Empties the cell of a node. -/
def free (heap : Heap) (id : NodeId) : Heap := ⟨heap.cells.setIfInBounds id.index none⟩

/-- Whether a node that is in use refers to an identity. -/
def refersTo (heap : Heap) (id : NodeId) : Bool :=
  heap.cells.any fun
    | some node => node.references.contains id
    | none => false

/-- Whether a node of a name is in use. -/
def hasNode (heap : Heap) (name : String) : Bool :=
  heap.cells.any fun
    | some node => node.name == name
    | none => false

/-- The number of nodes in use. -/
def population (heap : Heap) : Nat := heap.cells.countP Option.isSome

/-- How much the names in the heap count towards an extent. -/
def extent (heap : Heap) : Nat :=
  heap.cells.foldl (fun total cell => total + (cell.map Node.extent).getD 0) 0

/-- Freeing a node that is in use lowers the population. -/
theorem population_free {heap : Heap} {id : NodeId} {node : Node} (h : heap.get? id = some node) :
    (heap.free id).population < heap.population := by
  have bound : id.index < heap.cells.size := by
    rcases Nat.lt_or_ge id.index heap.cells.size with lt | ge
    · exact lt
    · simp [get?, Array.getElem?_eq_none ge] at h
  have cell : heap.cells[id.index] = some node := by
    simpa [get?, Array.getElem?_eq_getElem bound, Option.join_eq_some_iff] using h
  have counted : 0 < heap.cells.countP Option.isSome :=
    Array.countP_pos_iff.2 ⟨some node, cell ▸ Array.getElem_mem bound, rfl⟩
  simp only [population, free, Array.setIfInBounds, bound, dite_true]
  rw [Array.countP_set bound]
  simp only [cell, Option.isSome_some, Option.isSome_none, if_true, Bool.false_eq_true, if_false]
  omega

/-- Frees those of the given nodes to which nothing refers, and all nodes that lose their last
reference by that.  `isHeld` tells which nodes are referred to from outside the heap. -/
def reclaim (isHeld : NodeId → Bool) (heap : Heap) : List NodeId → Heap
  | [] => heap
  | id :: rest =>
    match h : heap.get? id with
    | none => reclaim isHeld heap rest
    | some node =>
      if isHeld id || heap.refersTo id then reclaim isHeld heap rest
      else
        have := population_free h
        reclaim isHeld (heap.free id) (node.references ++ rest)
termination_by candidates => (heap.population, candidates.length)

end Heap

end ClassLattice
