import ClassLattice.Proofs.Workspace.Touch

/-!
# Changes that keep a workspace coherent

Each of the few ways in which a query changes a workspace keeps it coherent: an edge is resolved
to a node of the right name, a node is listed under a name that had none, a node is put first in
the order of use, and a reference from outside is taken or given up.
-/

set_option autoImplicit false

namespace ClassLattice.Workspace

variable {registry : Registry} {workspace : Workspace} {id target : NodeId} {node : Node}
  {name : String}

/-! ## Resolving edges -/

/-- A change by which nodes advance keeps their names. -/
theorem names_modify {change : Node → Node} (advances : ∀ node : Node, node.Advances (change node))
    {heap : Heap} {other : NodeId} :
    (heap.modify id change).Names other name ↔ heap.Names other name := by
  simp only [Heap.Names, Heap.get?_modify]
  by_cases same : other = id
  · subst same
    simp only [if_true, Option.map_eq_some_iff]
    constructor
    · rintro ⟨-, ⟨node, found, rfl⟩, rfl⟩
      exact ⟨node, found, (advances node).name_eq.symm⟩
    · rintro ⟨node, found, rfl⟩
      exact ⟨change node, ⟨node, found, rfl⟩, (advances node).name_eq⟩
  · simp [same]

/-- Resolving edges of a node keeps a workspace coherent if they lead to nodes of the declared
names. -/
theorem Coherent.advance (coherent : workspace.Coherent registry) {change : Node → Node}
    (advances : ∀ node : Node, node.Advances (change node))
    (superLink : ∀ node name target, workspace.heap.get? id = some node →
      (change node).superLink? = some (.resolved name target) → workspace.heap.Names target name)
    (interfaceLink : ∀ node names targets, workspace.heap.get? id = some node →
      (change node).interfaceLink? = some (.resolved names targets) →
        List.Forall₂ workspace.heap.Names targets names) :
    Coherent registry { workspace with heap := workspace.heap.modify id change } := by
  -- A node after the change is an advanced form of the one before.
  have before {other node} (h : (workspace.heap.modify id change).get? other = some node) :
      ∃ old, workspace.heap.get? other = some old ∧ old.Advances node ∧
        (node = old ∨ other = id ∧ node = change old) := by
    rw [Heap.get?_modify] at h
    split at h
    · rename_i same
      subst same
      obtain ⟨old, found, rfl⟩ := Option.map_eq_some_iff.1 h
      exact ⟨old, found, advances old, .inr ⟨rfl, rfl⟩⟩
    · exact ⟨node, h, .refl node, .inl rfl⟩
  have alive {other} (h : ∃ node, workspace.heap.get? other = some node) :
      ∃ node, (workspace.heap.modify id change).get? other = some node := by
    obtain ⟨node, found⟩ := h
    have named : (workspace.heap.modify id change).Names other node.name :=
      (names_modify advances).2 ⟨node, found, rfl⟩
    exact named.imp fun _ h => h.1
  refine
    { coherent with
      shapes := fun other node found => ?_
      superLinks := fun other node found name target link => ?_
      interfaceLinks := fun other node found names targets link => ?_
      pinned_entries := fun name other member => ?_
      pinned_unique := fun other node found shape pinned => ?_
      listed := fun other node found free => ?_
      live_entries := fun name other node member found => ?_
      live_allocated := fun name other member => ?_
      recent_alive := fun other member => alive (coherent.recent_alive other member)
      held_alive := fun other member => alive (coherent.held_alive other member)
      slots_alive := fun other member => alive (coherent.slots_alive other member) }
  · obtain ⟨old, found, step, -⟩ := before found
    obtain ⟨shape, shows, allowed⟩ := coherent.shapes other old found
    refine ⟨shape, ?_, step.name_eq ▸ allowed⟩
    rw [Heap.Shows, step.outline_eq]
    exact shows.imp fun _ _ _ named => (names_modify advances).2 named
  · obtain ⟨old, was, -, rfl | ⟨rfl, rfl⟩⟩ := before found
    · exact (names_modify advances).2 (coherent.superLinks other node was name target link)
    · exact (names_modify advances).2 (superLink old name target was link)
  · obtain ⟨old, was, -, rfl | ⟨rfl, rfl⟩⟩ := before found
    · exact (coherent.interfaceLinks other node was names targets link).imp
        fun _ _ named => (names_modify advances).2 named
    · exact (interfaceLink old names targets was link).imp
        fun _ _ named => (names_modify advances).2 named
  · obtain ⟨named, pinned⟩ := coherent.pinned_entries name other member
    exact ⟨(names_modify advances).2 named, pinned⟩
  · obtain ⟨old, found, step, -⟩ := before found
    have same := coherent.pinned_unique other old found shape (step.name_eq ▸ pinned)
    rwa [← step.name_eq] at same
  · obtain ⟨old, found, step, -⟩ := before found
    have same := coherent.listed other old found (step.name_eq ▸ free)
    rwa [← step.name_eq] at same
  · obtain ⟨old, found, step, -⟩ := before found
    obtain ⟨same, free⟩ := coherent.live_entries name other old member found
    exact ⟨step.name_eq.trans same, free⟩
  · simpa using coherent.live_allocated name other member

/-- **To resolve a superclass keeps a workspace coherent**, if the target has the name that was
declared. -/
theorem Coherent.resolveSuperclass (coherent : workspace.Coherent registry)
    (found : workspace.heap.get? id = some node)
    (pending : node.superLink? = some (.pending name))
    (named : workspace.heap.Names target name) :
    Coherent registry
      { workspace with heap := workspace.heap.modify id (·.resolveSuperclass target) } := by
  refine coherent.advance (fun node => (Node.Advances.refl node).superclass target) ?_ ?_
  · intro node' name' target' found' link
    obtain rfl := Option.some.inj (found.symm.trans found')
    rw [Node.superLink?_resolveSuperclass, pending] at link
    obtain ⟨rfl, rfl⟩ : name = name' ∧ target = target' := by simpa [Link.resolve] using link
    exact named
  · intro node' names targets found' link
    rw [Node.interfaceLink?_resolveSuperclass] at link
    exact coherent.interfaceLinks id node' found' names targets link

/-- **To resolve interfaces keeps a workspace coherent**, if the targets have the names that were
declared. -/
theorem Coherent.resolveInterfaces (coherent : workspace.Coherent registry)
    {names : List String} {targets : List NodeId} (found : workspace.heap.get? id = some node)
    (pending : node.interfaceLink? = some (.pending names))
    (named : List.Forall₂ workspace.heap.Names targets names) :
    Coherent registry
      { workspace with heap := workspace.heap.modify id (·.resolveInterfaces targets) } := by
  refine coherent.advance (fun node => (Node.Advances.refl node).interfaces targets) ?_ ?_
  · intro node' name' target' found' link
    rw [Node.superLink?_resolveInterfaces] at link
    exact coherent.superLinks id node' found' name' target' link
  · intro node' names' targets' found' link
    obtain rfl := Option.some.inj (found.symm.trans found')
    rw [Node.interfaceLink?_resolveInterfaces, pending] at link
    obtain ⟨rfl, rfl⟩ : names = names' ∧ targets = targets' := by simpa [Link.resolve] using link
    exact named

/-! ## The order of use -/

/-- To put a node first in the order of use keeps a workspace coherent. -/
theorem Coherent.setFirst (coherent : workspace.Coherent registry)
    (found : workspace.heap.get? id = some node) :
    (workspace.setStore (workspace.store.touch id)).Coherent registry := by
  have nodup : (id :: workspace.store.recent.erase id).Nodup :=
    List.nodup_cons.2 ⟨fun member => (coherent.recent_nodup.not_mem_erase) member,
      coherent.recent_nodup.erase id⟩
  refine
    { coherent with
      recent_alive := fun other member => ?_
      recent_nodup := nodup.sublist (List.take_sublist _ _)
      recent_length := List.length_take_le _ _ }
  rcases List.mem_cons.1 (List.mem_of_mem_take member) with rfl | rest
  · exact ⟨node, found⟩
  · exact coherent.recent_alive other (List.mem_of_mem_erase rest)

/-- To note a use keeps a workspace coherent. -/
theorem Coherent.noteUse (coherent : workspace.Coherent registry) (name : String) :
    (workspace.noteUse name).Coherent registry := { coherent with }

/-- To touch a node keeps a workspace coherent. -/
theorem Coherent.touch (coherent : workspace.Coherent registry)
    (found : workspace.heap.get? id = some node) : (workspace.touch id).Coherent registry :=
  (coherent.setFirst found).reclaim _

/-- A node that is touched stays in use. -/
theorem Coherent.get?_touch (coherent : workspace.Coherent registry)
    (found : workspace.heap.get? id = some node) :
    (workspace.touch id).heap.get? id = some node := by
  by_cases room : workspace.store.capacity = 0
  · -- A store that retains nothing has nothing to displace.
    have empty : workspace.store.recent = [] :=
      List.length_eq_zero_iff.1 (Nat.le_zero.1 (room ▸ coherent.recent_length))
    simpa [Workspace.touch, Workspace.reclaim, setStore, NodeStore.displacedBy, empty,
      Heap.reclaim] using found
  · refine Heap.get?_reclaim_of_held ?_ found
    obtain ⟨rest, full⟩ := Nat.exists_eq_succ_of_ne_zero room
    simp [isHeld, NodeStore.keeps, NodeStore.touch, setStore, store] at full ⊢
    simp [full]

/-! ## Listing new nodes -/

/-- A new node of which no edge to a named type is resolved. -/
structure IsNew (node : Node) : Prop where
  superLink : ∀ name target, node.superLink? ≠ some (.resolved name target)
  interfaceLink : ∀ names targets, node.interfaceLink? = some (.resolved names targets) →
    names = [] ∧ targets = []

/-- Listing a new node under a name that has none keeps a workspace coherent. -/
theorem Coherent.allocate (coherent : workspace.Coherent registry)
    (free : registry.shape? node.name = none)
    (unlisted : ∀ id other, workspace.heap.get? id = some other → other.name ≠ node.name)
    (shape : ∃ shape, workspace.heap.Shows node shape ∧ registry.Allows node.name shape)
    (fresh : IsNew node) :
    Coherent registry
      ({ workspace with heap := (workspace.heap.allocate node).2 }.setStore
        { workspace.store with
          live := workspace.store.live.insert node.name (workspace.heap.allocate node).1 }) := by
  have unused : workspace.heap.get? (workspace.heap.allocate node).1 = none :=
    Heap.get?_allocate_fst
  -- The new node is referred to by nothing yet, and all others stay where they are.
  have names {other name} (h : workspace.heap.Names other name) :
      (workspace.heap.allocate node).2.Names other name :=
    h.imp fun _ h => ⟨Heap.get?_allocate_of_get? h.1, h.2⟩
  have alive {other} (h : ∃ node, workspace.heap.get? other = some node) :
      ∃ found, (workspace.heap.allocate node).2.get? other = some found :=
    h.imp fun _ => Heap.get?_allocate_of_get?
  refine
    { coherent with
      shapes := fun other found h => ?_
      superLinks := fun other found h name target link => ?_
      interfaceLinks := fun other found h ids targets link => ?_
      pinned_entries := fun name other member => ?_
      pinned_unique := fun other found h shape pinned => ?_
      listed := fun other found h unpinned => ?_
      live_entries := fun name other found member h => ?_
      live_allocated := fun name other member => ?_
      recent_alive := fun other member => alive (coherent.recent_alive other member)
      held_alive := fun other member => alive (coherent.held_alive other member)
      slots_alive := fun other member => alive (coherent.slots_alive other member) }
  · rcases Heap.of_get?_allocate h with ⟨rfl, rfl⟩ | old
    · obtain ⟨shape, shows, allowed⟩ := shape
      exact ⟨shape, shows.imp fun _ _ _ named => names named, allowed⟩
    · obtain ⟨shape, shows, allowed⟩ := coherent.shapes other found old
      exact ⟨shape, shows.imp fun _ _ _ named => names named, allowed⟩
  · rcases Heap.of_get?_allocate h with ⟨rfl, rfl⟩ | old
    · exact absurd link (fresh.superLink name target)
    · exact names (coherent.superLinks other found old name target link)
  · rcases Heap.of_get?_allocate h with ⟨rfl, rfl⟩ | old
    · obtain ⟨rfl, rfl⟩ := fresh.interfaceLink ids targets link
      exact .nil
    · exact (coherent.interfaceLinks other found old ids targets link).imp
        fun _ _ named => names named
  · obtain ⟨named, pinned⟩ := coherent.pinned_entries name other member
    exact ⟨names named, pinned⟩
  · rcases Heap.of_get?_allocate h with ⟨rfl, rfl⟩ | old
    · simp [free] at pinned
    · exact coherent.pinned_unique other found old shape pinned
  · show (workspace.store.live.insert node.name _).get? found.name = some other
    rw [Table.get?_insert]
    rcases Heap.of_get?_allocate h with ⟨rfl, rfl⟩ | old
    · simp
    · have apart : ¬ node.name = found.name := fun same => unlisted other found old same.symm
      simpa [apart] using coherent.listed other found old unpinned
  · rcases Table.mem_write member with same | old
    · obtain ⟨rfl, rfl⟩ : name = node.name ∧ other = (workspace.heap.allocate node).1 := by
        simpa using same
      rcases Heap.of_get?_allocate h with ⟨-, rfl⟩ | old
      · exact ⟨rfl, free⟩
      · simp [unused] at old
    · rcases Heap.of_get?_allocate h with ⟨rfl, rfl⟩ | here
      · exact absurd (coherent.live_allocated name _ old) (by simp [Heap.allocate])
      · exact coherent.live_entries name other found old here
  · simp only [setStore, Heap.size_allocate]
    rcases Table.mem_write member with same | old
    · obtain ⟨rfl, rfl⟩ : name = node.name ∧ other = (workspace.heap.allocate node).1 := by
        simpa using same
      simp [Heap.allocate]
    · exact Nat.lt_succ_of_lt (coherent.live_allocated name other old)

/-- To drop the entries of freed nodes keeps a workspace coherent. -/
theorem Coherent.dropFreed (coherent : workspace.Coherent registry) :
    (workspace.setStore (workspace.store.dropFreed workspace.heap)).Coherent registry := by
  have kept {name id} (member : (name, id) ∈
      (workspace.store.dropFreed workspace.heap).live.entries) :
      (name, id) ∈ workspace.store.live.entries := (List.mem_filter.1 member).1
  exact
    { coherent with
      listed := fun id node found free =>
        Table.get?_filter_of_get? (coherent.listed id node found free)
          (Heap.isAlive_iff.2 ⟨node, found⟩)
      live_entries := fun name id node member =>
        coherent.live_entries name id node (kept member)
      live_allocated := fun name id member => coherent.live_allocated name id (kept member) }

/-- A sweep keeps a workspace coherent. -/
theorem Coherent.sweep (coherent : workspace.Coherent registry) :
    (workspace.setStore (workspace.store.sweep workspace.heap)).Coherent registry := by
  unfold NodeStore.sweep
  split
  · exact coherent
  · exact { coherent.dropFreed with }

/-- **To list a new node keeps a workspace coherent**, if no node in use has its name. -/
theorem Coherent.publish (coherent : workspace.Coherent registry)
    (free : registry.shape? node.name = none)
    (unlisted : ∀ id other, workspace.heap.get? id = some other → other.name ≠ node.name)
    (shape : ∃ shape, workspace.heap.Shows node shape ∧ registry.Allows node.name shape)
    (fresh : IsNew node) : (workspace.publish node).2.Coherent registry := by
  have allocated := coherent.allocate free unlisted shape fresh
  exact (Coherent.touch (allocated.noteUse node.name) Heap.get?_allocate_self).sweep

/-- A new node is in use once it is listed. -/
theorem Coherent.get?_publish (coherent : workspace.Coherent registry)
    (free : registry.shape? node.name = none)
    (unlisted : ∀ id other, workspace.heap.get? id = some other → other.name ≠ node.name)
    (shape : ∃ shape, workspace.heap.Shows node shape ∧ registry.Allows node.name shape)
    (fresh : IsNew node) :
    (workspace.publish node).2.heap.get? (workspace.publish node).1 = some node := by
  have allocated := coherent.allocate free unlisted shape fresh
  exact (allocated.noteUse node.name).get?_touch Heap.get?_allocate_self

/-- **A new node for a name that has none in use is listed**, and nothing else happens than that. -/
theorem Coherent.insert_eq_publish (coherent : workspace.Coherent registry)
    (free : registry.shape? node.name = none)
    (unlisted : ∀ id other, workspace.heap.get? id = some other → other.name ≠ node.name)
    (shape : ∃ shape, workspace.heap.Shows node shape ∧ registry.Allows node.name shape)
    (fresh : IsNew node) : workspace.insert node = workspace.publish node := by
  have unused : ∀ id, ¬ workspace.heap.Names id node.name := by
    rintro id ⟨other, found, same⟩
    exact unlisted id other found same
  have missing : listed? { workspace with heap := (workspace.heap.allocate node).2 } node.name =
      none := by
    apply Option.filter_eq_none_iff.2
    intro id entry alive
    obtain ⟨other, found⟩ := Heap.isAlive_iff.1 alive
    have entry := Table.mem_entries_of_get? entry
    rcases Heap.of_get?_allocate found with ⟨rfl, -⟩ | before
    · exact absurd (coherent.live_allocated node.name _ entry) (Nat.lt_irrefl _)
    · exact unlisted id other before (coherent.live_entries node.name id other entry before).1
  have allocated := coherent.allocate free unlisted shape fresh
  have retained := (allocated.noteUse node.name).retain_eq_touch Heap.get?_allocate_self
  unfold insert
  rw [noteClash_of_unused unused]
  dsimp only
  rw [missing]
  exact congrArg (fun used : Workspace => ((workspace.heap.allocate node).1,
    used.setStore (used.store.sweep used.heap))) retained

/-- What is in use when a node was listed is that node or was in use before. -/
theorem get?_of_get?_publish {found : Node}
    (h : (workspace.publish node).2.heap.get? id = some found) :
    id = (workspace.publish node).1 ∧ found = node ∨ workspace.heap.get? id = some found := by
  have allocated : (workspace.heap.allocate node).2.get? id = some found :=
    Heap.get?_of_get?_reclaim h
  exact Heap.of_get?_allocate allocated

/-! ## References from outside -/

/-- To hold a node keeps a workspace coherent. -/
theorem Coherent.hold (coherent : workspace.Coherent registry)
    (found : workspace.heap.get? id = some node) : (workspace.hold id).Coherent registry :=
  { coherent with
    held_alive := fun other member => by
      rcases List.mem_cons.1 member with rfl | rest
      · exact ⟨node, found⟩
      · exact coherent.held_alive other rest }

/-- To end a hold keeps a workspace coherent. -/
theorem Coherent.unhold (coherent : workspace.Coherent registry) :
    Coherent registry { workspace with held := workspace.held.erase id } :=
  { coherent with
    held_alive := fun other member =>
      coherent.held_alive other (List.mem_of_mem_erase member) }

/-- To let go of a node keeps a workspace coherent. -/
theorem Coherent.letGo (coherent : workspace.Coherent registry) :
    (workspace.letGo id).Coherent registry := coherent.unhold.reclaim _

end ClassLattice.Workspace
