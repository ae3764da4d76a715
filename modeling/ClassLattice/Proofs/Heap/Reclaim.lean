import ClassLattice.Hierarchy.Heap
import Mathlib.Logic.Relation

/-!
# What freeing leaves in place

A node refers to the nodes that its resolved edges and its element lead to.  In a closed heap
nothing refers to a freed node.  Reclaiming keeps a heap closed, changes no node that it leaves,
and leaves every node that is held from outside, so all that can be reached from a held node stays
as it was.
-/

set_option autoImplicit false

namespace ClassLattice.Heap

variable {heap : Heap} {id other : NodeId} {node : Node}

/-! ## The cells after one change -/

/-- A new node gets a number that no node has. -/
theorem get?_allocate_fst : heap.get? (heap.allocate node).1 = none := by
  simp [get?, allocate]

/-- A new node comes in and all others stay. -/
theorem get?_allocate :
    (heap.allocate node).2.get? other =
      if other = (heap.allocate node).1 then some node else heap.get? other := by
  obtain ⟨index⟩ := other
  by_cases same : index = heap.cells.size
  · simp [get?, allocate, same]
  · simp [get?, allocate, same, Array.getElem?_push]

/-- A new node is found by its number. -/
theorem get?_allocate_self : (heap.allocate node).2.get? (heap.allocate node).1 = some node := by
  rw [get?_allocate, if_pos rfl]

/-- A node in use stays when another is allocated. -/
theorem get?_allocate_of_get? {found : Node} (h : heap.get? other = some found) :
    (heap.allocate node).2.get? other = some found := by
  rw [get?_allocate, if_neg]
  · exact h
  · rintro rfl
    rw [get?_allocate_fst] at h
    cases h

/-- Allocation brings in no node but the new one. -/
theorem of_get?_allocate {found : Node} (h : (heap.allocate node).2.get? other = some found) :
    other = (heap.allocate node).1 ∧ found = node ∨ heap.get? other = some found := by
  rw [get?_allocate] at h
  split at h
  · rename_i same
    exact .inl ⟨same, (Option.some.inj h).symm⟩
  · exact .inr h

/-- A change of one node leaves all others as they are. -/
theorem get?_modify {change : Node → Node} :
    (heap.modify id change).get? other =
      if other = id then (heap.get? id).map change else heap.get? other := by
  obtain ⟨index⟩ := other
  obtain ⟨place⟩ := id
  by_cases same : index = place
  · subst same
    cases cell : heap.cells[index]? with
    | none => simp [get?, modify, Array.getElem?_modify, cell]
    | some content => cases content <;> simp [get?, modify, Array.getElem?_modify, cell]
  · have apart : place ≠ index := fun h => same h.symm
    simp [get?, modify, same, Array.getElem?_modify, apart]

/-- Nothing changes about a node that is not in use. -/
theorem modify_of_get?_eq_none {change : Node → Node} (h : heap.get? id = none) :
    heap.modify id change = heap := by
  obtain ⟨cells⟩ := heap
  refine congrArg Heap.mk (Array.ext_getElem? fun index => ?_)
  rw [Array.getElem?_modify]
  split
  · rename_i same
    have empty : cells[id.index]?.join = none := h
    rw [← same]
    rcases cell : cells[id.index]? with - | - | node
    · rfl
    · rfl
    · simp [cell] at empty
  · rfl

/-- Freeing one node leaves all others as they are. -/
theorem get?_free :
    (heap.free id).get? other = if other = id then none else heap.get? other := by
  obtain ⟨index⟩ := other
  obtain ⟨place⟩ := id
  by_cases same : index = place
  · subst same
    by_cases bound : index < heap.cells.size
    · simp [get?, free, bound]
    · simp [get?, free, bound]
  · have apart : place ≠ index := fun h => same h.symm
    simp [get?, free, same, Array.getElem?_setIfInBounds_ne apart]

/-- A node that is there is what its number stands for. -/
theorem node_of_get? (h : heap.get? id = some node) : heap.node id = node := by
  simp [Heap.node, h]

/-- A number is alive if there is a node of it. -/
theorem isAlive_iff : heap.isAlive id = true ↔ ∃ node, heap.get? id = some node := by
  simp [isAlive, Option.isSome_iff_exists]

/-- A new node takes a new cell. -/
@[simp] theorem size_allocate :
    (heap.allocate node).2.cells.size = heap.cells.size + 1 := by
  simp [allocate]

/-- A change of a node takes no cell. -/
@[simp] theorem size_modify {change : Node → Node} :
    (heap.modify id change).cells.size = heap.cells.size := by
  simp [modify]

/-- Nodes are in the cells that there are. -/
theorem index_lt_of_get? (h : heap.get? id = some node) : id.index < heap.cells.size := by
  rcases Nat.lt_or_ge id.index heap.cells.size with inside | outside
  · exact inside
  · simp [get?, Array.getElem?_eq_none outside] at h

/-! ## References -/

/-- A node that is in use refers to another identity. -/
def Refers (heap : Heap) (id other : NodeId) : Prop :=
  ∃ node, heap.get? id = some node ∧ other ∈ node.references

/-- No node that is in use refers to a freed one. -/
def Closed (heap : Heap) : Prop :=
  ∀ id other, heap.Refers id other → ∃ node, heap.get? other = some node

/-- One identity leads to another by references. -/
abbrev Leads (heap : Heap) : NodeId → NodeId → Prop := Relation.ReflTransGen heap.Refers

/-- Something refers to a node if a node does that is there. -/
theorem refersTo_iff : heap.refersTo other = true ↔ ∃ id, heap.Refers id other := by
  simp only [refersTo, Array.any_eq_true, Refers]
  constructor
  · rintro ⟨index, bound, found⟩
    cases cell : heap.cells[index] with
    | none => simp [cell] at found
    | some node =>
      refine ⟨⟨index⟩, node, by simp [get?, Array.getElem?_eq_getElem bound, cell], ?_⟩
      simpa [cell] using found
  · rintro ⟨⟨index⟩, node, here, member⟩
    have bound : index < heap.cells.size := index_lt_of_get? here
    refine ⟨index, bound, ?_⟩
    have cell : heap.cells[index] = some node := by
      simpa [get?, Array.getElem?_eq_getElem bound, Option.join_eq_some_iff] using here
    simpa [cell] using member

/-- Whatever a node in use leads to is in use. -/
theorem Closed.alive_of_leads (closed : heap.Closed) (h : heap.get? id = some node)
    (leads : heap.Leads id other) : ∃ node, heap.get? other = some node := by
  induction leads with
  | refl => exact ⟨node, h⟩
  | tail _ last _ => exact closed _ _ last

/-! ## Reclaiming -/

section Reclaim

variable {isHeld : NodeId → Bool} {candidates : List NodeId}

/-- **What freeing keeps, reclaiming keeps**: reclaiming only ever frees a node in use that is
not held and to which nothing refers. -/
theorem reclaim_preserves {P : Heap → Prop} (start : P heap)
    (free : ∀ heap id node, heap.get? id = some node → isHeld id = false →
      heap.refersTo id = false → P heap → P (heap.free id)) :
    P (reclaim isHeld heap candidates) := by
  -- Only the last case frees anything; the others go on with fewer candidates.
  fun_induction reclaim isHeld heap candidates with
  | case1 => exact start
  | case2 heap id rest freed ih => exact ih start
  | case3 heap id rest node found kept ih => exact ih start
  | case4 heap id rest node found unkept smaller ih =>
    simp only [Bool.or_eq_true, not_or, Bool.not_eq_true] at unkept
    exact ih (free heap id node found unkept.1 unkept.2 start)

/-- What is left after reclaiming was there before, as it was. -/
theorem get?_of_get?_reclaim (h : (reclaim isHeld heap candidates).get? other = some node) :
    heap.get? other = some node := by
  refine reclaim_preserves (P := fun left =>
    left.get? other = some node → heap.get? other = some node) id ?_ h
  intro left freed _ _ _ _ ih found
  rw [get?_free] at found
  split at found
  · cases found
  · exact ih found

/-- What is held is not reclaimed. -/
theorem get?_reclaim_of_held (held : isHeld other = true) (h : heap.get? other = some node) :
    (reclaim isHeld heap candidates).get? other = some node := by
  refine reclaim_preserves (P := fun left => left.get? other = some node) h ?_
  intro left freed _ _ unheld _ found
  have apart : other ≠ freed := by
    rintro rfl
    simp [held] at unheld
  rw [get?_free, if_neg apart]
  exact found

/-- Reclaiming gives no cell back. -/
theorem size_reclaim : (reclaim isHeld heap candidates).cells.size = heap.cells.size := by
  refine reclaim_preserves (P := fun left => left.cells.size = heap.cells.size) rfl ?_
  intro left freed _ _ _ _ same
  simpa [free] using same

/-- **After reclaiming no reference leads to a node that is gone**, if none did before. -/
theorem Closed.reclaim (closed : heap.Closed) :
    (Heap.reclaim isHeld heap candidates).Closed := by
  refine reclaim_preserves (P := Closed) closed ?_
  intro left freed node _ _ unreferred ih id other refers
  obtain ⟨source, found, member⟩ := refers
  have here : left.get? id = some source := by
    rw [get?_free] at found
    split at found
    · cases found
    · exact found
  obtain ⟨target, alive⟩ := ih id other ⟨source, here, member⟩
  have apart : other ≠ freed := by
    rintro rfl
    have referred := refersTo_iff.2 ⟨id, source, here, member⟩
    simp [unreferred] at referred
  exact ⟨target, by rw [get?_free, if_neg apart]; exact alive⟩

/-- **What a held node leads to stays**, and so does the way to it. -/
theorem Closed.leads_reclaim (closed : heap.Closed) (held : isHeld id = true)
    (h : heap.get? id = some node) (leads : heap.Leads id other) :
    (Heap.reclaim isHeld heap candidates).Leads id other := by
  have start : (Heap.reclaim isHeld heap candidates).get? id = some node :=
    get?_reclaim_of_held held h
  have closed' : (Heap.reclaim isHeld heap candidates).Closed := closed.reclaim
  induction leads with
  | refl => exact .refl
  | @tail middle last _ refers ih =>
    obtain ⟨target, alive⟩ := closed'.alive_of_leads start ih
    obtain ⟨source, found, member⟩ := refers
    have same : source = target :=
      Option.some.inj (found.symm.trans (get?_of_get?_reclaim alive))
    exact ih.tail ⟨target, alive, same ▸ member⟩

end Reclaim

end ClassLattice.Heap
