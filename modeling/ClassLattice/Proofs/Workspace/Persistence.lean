import ClassLattice.Proofs.Workspace.Changes

/-!
# What stays while a query runs

A node is anchored if references lead to it from something that is held from outside for as long
as a query runs.  Whatever else a query does to a workspace, anchored nodes stay in use and at most
have further edges resolved.
-/

set_option autoImplicit false

namespace ClassLattice.Workspace

variable {registry : Registry} {workspace old new : Workspace} {id target : NodeId} {node : Node}
  {name : String}

/-- References lead to a node from something that is held from outside. -/
def Anchored (workspace : Workspace) (id : NodeId) : Prop :=
  ∃ root, workspace.Anchors root ∧ workspace.heap.Leads root id

/-- Between two states of a workspace the same is held, and what it leads to stays. -/
structure Persists (old new : Workspace) : Prop where
  held : new.held = old.held
  slots : new.slots = old.slots
  pinned : new.store.pinned = old.store.pinned
  kept : ∀ root id node, old.Anchors root → old.heap.Leads root id →
    old.heap.get? id = some node → ∃ later, new.heap.get? id = some later ∧ node.Advances later

namespace Persists

/-- The same nodes are anchored from outside. -/
theorem anchors (persists : Persists old new) : new.Anchors id ↔ old.Anchors id := by
  simp only [Anchors, persists.held, persists.slots, persists.pinned]

/-- References that led to a node lead to it still. -/
theorem leads (persists : Persists old new) {root : NodeId} (anchor : old.Anchors root)
    (leads : old.heap.Leads root id) : new.heap.Leads root id := by
  induction leads with
  | refl => exact .refl
  | @tail middle last path refers ih =>
    obtain ⟨node, found, member⟩ := refers
    obtain ⟨later, found', step⟩ := persists.kept root middle node anchor path found
    exact ih.tail ⟨later, found', step.references_subset member⟩

/-- What was anchored is anchored. -/
theorem anchored (persists : Persists old new) (h : old.Anchored id) : new.Anchored id := by
  obtain ⟨root, anchor, path⟩ := h
  exact ⟨root, persists.anchors.2 anchor, persists.leads anchor path⟩

/-- What was anchored is in use, with edges that advanced at most. -/
theorem get? (persists : Persists old new) (h : old.Anchored id)
    (found : old.heap.get? id = some node) :
    ∃ later, new.heap.get? id = some later ∧ node.Advances later := by
  obtain ⟨root, anchor, path⟩ := h
  exact persists.kept root id node anchor path found

/-- What was anchored has its name. -/
theorem names (persists : Persists old new) (h : old.Anchored id)
    (named : old.heap.Names id name) : new.heap.Names id name := by
  obtain ⟨node, found, rfl⟩ := named
  obtain ⟨later, found', step⟩ := persists.get? h found
  exact ⟨later, found', step.name_eq⟩

/-- All that is anchored stays where nothing happens. -/
theorem refl (workspace : Workspace) : Persists workspace workspace :=
  ⟨rfl, rfl, rfl, fun _ _ node _ _ found => ⟨node, found, .refl node⟩⟩

/-- All that is anchored stays through one change and another. -/
theorem trans {last : Workspace} (first : Persists old new) (second : Persists new last) :
    Persists old last where
  held := second.held.trans first.held
  slots := second.slots.trans first.slots
  pinned := second.pinned.trans first.pinned
  kept := fun root id node anchor path found => by
    obtain ⟨between, found', step⟩ := first.kept root id node anchor path found
    obtain ⟨later, found'', step'⟩ := second.kept root id between (first.anchors.2 anchor)
      (first.leads anchor path) found'
    exact ⟨later, found'', step.trans step'⟩

/-- All that is anchored stays where nodes only advance and none is freed. -/
theorem of_advances (held : new.held = old.held) (slots : new.slots = old.slots)
    (pinned : new.store.pinned = old.store.pinned)
    (kept : ∀ id node, old.heap.get? id = some node →
      ∃ later, new.heap.get? id = some later ∧ node.Advances later) : Persists old new :=
  ⟨held, slots, pinned, fun _ id node _ _ found => kept id node found⟩

end Persists

/-- What an anchored node refers to is anchored. -/
theorem Anchored.tail (h : workspace.Anchored id) (refers : workspace.heap.Refers id target) :
    workspace.Anchored target := by
  obtain ⟨root, anchor, path⟩ := h
  exact ⟨root, anchor, path.tail refers⟩

/-- What is anchored is in use. -/
theorem Coherent.alive_of_anchored (coherent : workspace.Coherent registry)
    (h : workspace.Anchored id) : ∃ node, workspace.heap.get? id = some node := by
  obtain ⟨root, anchor, path⟩ := h
  obtain ⟨node, found⟩ := coherent.alive_of_anchors anchor
  exact coherent.closed.alive_of_leads found path

/-- What is held from outside is anchored. -/
theorem Anchors.anchored (h : workspace.Anchors id) : workspace.Anchored id := ⟨id, h, .refl⟩

/-- A node that is held is anchored. -/
theorem anchored_hold : (workspace.hold id).Anchored id :=
  Anchors.anchored (.inl List.mem_cons_self)

/-- What is anchored is anchored while another node is held. -/
theorem Anchored.hold (h : workspace.Anchored id) : (workspace.hold target).Anchored id := by
  obtain ⟨root, anchor, path⟩ := h
  exact ⟨root, anchor.imp_left (List.mem_cons_of_mem _), path⟩

/-! ## Changes through which all persists -/

/-- To reclaim nodes keeps all that is anchored. -/
theorem Coherent.persists_reclaim (coherent : workspace.Coherent registry)
    (candidates : List NodeId) : Persists workspace (workspace.reclaim candidates) where
  held := rfl
  slots := rfl
  pinned := rfl
  kept := fun root id node anchor path found => by
    obtain ⟨start, alive⟩ := coherent.alive_of_anchors anchor
    have held := Coherent.isHeld_of_anchors anchor
    have path' : (workspace.reclaim candidates).heap.Leads root id :=
      coherent.closed.leads_reclaim held alive path
    have start : (workspace.reclaim candidates).heap.get? root = some start :=
      Heap.get?_reclaim_of_held held alive
    have closed : (workspace.reclaim candidates).heap.Closed := coherent.closed.reclaim
    obtain ⟨later, found'⟩ := closed.alive_of_leads start path'
    have same := Option.some.inj (found.symm.trans (Heap.get?_of_get?_reclaim found'))
    exact ⟨later, found', same ▸ .refl node⟩

/-- To note a use keeps all that is anchored. -/
theorem persists_noteUse (name : String) : Persists workspace (workspace.noteUse name) :=
  .of_advances rfl rfl rfl fun _ node found => ⟨node, found, .refl node⟩

/-- To touch a node keeps all that is anchored. -/
theorem Coherent.persists_touch (coherent : workspace.Coherent registry)
    (found : workspace.heap.get? id = some node) : Persists workspace (workspace.touch id) := by
  have first : Persists workspace (workspace.setStore (workspace.store.touch id)) :=
    .of_advances rfl rfl rfl fun _ node found => ⟨node, found, .refl node⟩
  exact first.trans ((coherent.setFirst found).persists_reclaim _)

/-- A sweep leaves the pinned nodes as they are. -/
theorem pinned_sweep (store : NodeStore) (heap : Heap) :
    (store.sweep heap).pinned = store.pinned := by
  unfold NodeStore.sweep
  split <;> rfl

/-- To list a new node keeps all that is anchored. -/
theorem Coherent.persists_publish (coherent : workspace.Coherent registry)
    (free : registry.shape? node.name = none)
    (unlisted : ∀ id other, workspace.heap.get? id = some other → other.name ≠ node.name)
    (shape : ∃ shape, workspace.heap.Shows node shape ∧ registry.Allows node.name shape)
    (fresh : IsNew node) : Persists workspace (workspace.publish node).2 := by
  have allocated := coherent.allocate free unlisted shape fresh
  have first : Persists workspace
      ({ workspace with heap := (workspace.heap.allocate node).2 }.setStore
        { workspace.store with
          live := workspace.store.live.insert node.name (workspace.heap.allocate node).1 }) :=
    .of_advances rfl rfl rfl fun id old found =>
      ⟨old, Heap.get?_allocate_of_get? found, .refl old⟩
  have noted := first.trans (persists_noteUse node.name)
  have touched := (allocated.noteUse node.name).persists_touch Heap.get?_allocate_self
  refine (noted.trans touched).trans ?_
  refine .of_advances rfl rfl ?_ fun _ node found => ⟨node, found, .refl node⟩
  exact pinned_sweep _ _

/-- What persists while a further node is held persists when that node is given up again. -/
theorem Coherent.persists_letGo (coherent : new.Coherent registry)
    (persists : Persists (old.hold id) new) : Persists old (new.letGo id) := by
  have held : new.held.erase id = old.held := by
    rw [persists.held]
    exact List.erase_cons_head id old.held
  have first : Persists old { new with held := new.held.erase id } :=
    ⟨held, persists.slots, persists.pinned, fun root other node anchor =>
      persists.kept root other node (anchor.imp_left (List.mem_cons_of_mem _))⟩
  exact first.trans (coherent.unhold.persists_reclaim _)

/-- A change by which nodes advance keeps all that is anchored. -/
theorem persists_modify {change : Node → Node}
    (advances : ∀ node : Node, node.Advances (change node)) :
    Persists workspace { workspace with heap := workspace.heap.modify id change } := by
  refine .of_advances rfl rfl rfl fun other node found => ?_
  rw [Heap.get?_modify]
  split
  · rename_i same
    subst same
    exact ⟨change node, by rw [found]; rfl, advances node⟩
  · exact ⟨node, found, .refl node⟩

end ClassLattice.Workspace
