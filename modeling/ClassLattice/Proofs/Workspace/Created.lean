import ClassLattice.Proofs.Query.Common

/-!
# New workspaces

A new workspace holds the pinned nodes and nothing else: the built-in types and the registered
markers, of two nodes of one name the first.  It is coherent, and as no reader was asked it is
faithful to every universe over its registry.
-/

set_option autoImplicit false

namespace ClassLattice

namespace NodeStore

variable {registry : Registry} {name : String} {node : Node}

/-- The nodes that are pinned, in the order in which they are. -/
def pinnedNodes (registry : Registry) : List Node := builtIns ++ markers registry

/-- The first node to be pinned under a name is the root, a primitive type or a marker. -/
theorem find?_pinnedNodes :
    (pinnedNodes registry).find? (·.name == name) =
      if name = rootName then some .ofRoot
      else
        match BaseType.ofName? name with
        | some base => some (.ofPrimitive base)
        | none => (registry.table.get? name).map (.ofSpecial name) := by
  have primitives : BaseType.all.find? (fun base => base.name == name) =
      BaseType.ofName? name := by
    cases denoted : BaseType.ofName? name with
    | some base =>
      obtain rfl := BaseType.name_of_ofName? denoted
      cases base <;> rfl
    | none =>
      rw [List.find?_eq_none]
      intro base _ same
      obtain rfl : base.name = name := by simpa using same
      rw [BaseType.ofName?_name] at denoted
      cases denoted
  have specials : (markers registry).find? (·.name == name) =
      (registry.table.get? name).map (.ofSpecial name) := by
    unfold markers Registry.toList Table.get?
    rw [List.map_map, List.find?_map, Option.map_map]
    show ((registry.table.entries.find? fun entry => entry.1 == name).map _) = _
    cases found : registry.table.entries.find? fun entry => entry.1 == name with
    | none => rfl
    | some entry =>
      obtain rfl : entry.1 = name := by simpa using List.find?_some found
      rfl
  show (Node.ofRoot :: (BaseType.all.map Node.ofPrimitive ++ markers registry)).find? _ = _
  rw [List.find?_cons]
  by_cases root : name = rootName
  · subst root
    rfl
  · have apart : (Node.ofRoot.name == name) = false := by
      rw [beq_eq_false_iff_ne]
      exact fun same => root same.symm
    rw [apart, if_neg root]
    dsimp only
    rw [List.find?_append, List.find?_map, specials]
    show ((BaseType.all.find? fun base => base.name == name).map Node.ofPrimitive).or _ = _
    rw [primitives]
    cases BaseType.ofName? name <;> rfl

/-- The first pinned node of a name shows the pinned shape of the name, and none of its edges to
named types is resolved. -/
theorem shape_of_find? (heap : Heap)
    (h : (pinnedNodes registry).find? (·.name == name) = some node) :
    (∃ shape, registry.shape? name = some shape ∧ heap.Shows node shape) ∧
      Workspace.IsNew node := by
  rw [find?_pinnedNodes] at h
  unfold Registry.shape?
  split at h
  · rename_i root
    obtain rfl := Option.some.inj h
    exact ⟨⟨.root, by simp [root], .root⟩, fun _ _ link => (nomatch link),
      fun _ _ link => (nomatch link)⟩
  · rename_i root
    rw [if_neg root]
    cases denoted : BaseType.ofName? name with
    | some base =>
      rw [denoted] at h
      obtain rfl := Option.some.inj h
      exact ⟨⟨.primitive base, rfl, .primitive base⟩, fun _ _ link => (nomatch link),
        fun _ _ link => (nomatch link)⟩
    | none =>
      rw [denoted] at h
      obtain ⟨interfaces, registered, rfl⟩ := Option.map_eq_some_iff.1 h
      have outline : (Node.ofSpecial name interfaces).outline =
          .declared (.ofMarker interfaces) := by
        cases interfaces <;> rfl
      refine ⟨⟨.declared (.ofMarker interfaces), by simp [registered], ?_⟩,
        fun _ _ link => (nomatch link), fun names targets link => ?_⟩
      · rw [Heap.Shows, outline]
        exact .declared _
      · have declared : (Node.ofSpecial name interfaces).interfaceLink? =
            some (if interfaces.isEmpty then .resolved [] [] else .pending interfaces) := rfl
        rw [declared] at link
        split at link
        · cases link
          exact ⟨rfl, rfl⟩
        · cases link

/-- What is registered has a node to be pinned. -/
theorem exists_of_shape? {shape : Shape String} (h : registry.shape? name = some shape) :
    ∃ node, (pinnedNodes registry).find? (·.name == name) = some node := by
  rw [find?_pinnedNodes]
  unfold Registry.shape? at h
  split at h
  · rename_i root
    exact ⟨_, if_pos root⟩
  · rename_i root
    rw [if_neg root]
    cases denoted : BaseType.ofName? name with
    | some base => exact ⟨.ofPrimitive base, rfl⟩
    | none =>
      rw [denoted] at h
      obtain ⟨interfaces, registered, -⟩ := Option.map_eq_some_iff.1 h
      exact ⟨.ofSpecial name interfaces, by rw [registered]; rfl⟩

/-- What pinning some nodes leads to: the heap holds the first node of each name, and the table
finds it. -/
structure Pinned (seen : List Node) (state : Table String NodeId × Heap) : Prop where
  nodes : ∀ id node, state.2.get? id = some node →
    seen.find? (·.name == node.name) = some node ∧ state.1.get? node.name = some id
  entries : ∀ name id, (name, id) ∈ state.1.entries → state.2.Names id name
  all : ∀ node ∈ seen, ∃ id, state.1.get? node.name = some id

/-- To pin a node lists it unless its name is taken. -/
theorem Pinned.pin {seen : List Node} {state : Table String NodeId × Heap}
    (pinned : Pinned seen state) (node : Node) : Pinned (seen ++ [node]) (pin state node) := by
  unfold NodeStore.pin
  have stays {found : Node} (h : seen.find? (·.name == found.name) = some found) :
      (seen ++ [node]).find? (·.name == found.name) = some found := by
    rw [List.find?_append, h, Option.some_or]
  by_cases taken : state.1.contains node.name = true
  · rw [if_pos taken]
    refine ⟨fun id found here => ?_, pinned.entries, fun found member => ?_⟩
    · obtain ⟨first, entry⟩ := pinned.nodes id found here
      exact ⟨stays first, entry⟩
    · rcases List.mem_append.1 member with before | last
      · exact pinned.all found before
      · rw [List.mem_singleton.1 last]
        exact Table.contains_iff_get?.1 taken
  · rw [if_neg taken]
    -- Every earlier node has an entry, so a name without one was not seen.
    have unseen : seen.find? (·.name == node.name) = none := by
      rw [List.find?_eq_none]
      intro other member same
      have same : other.name = node.name := by simpa using same
      obtain ⟨id, entry⟩ := pinned.all other member
      exact taken (Table.contains_iff_get?.2 ⟨id, same ▸ entry⟩)
    refine ⟨fun id found here => ?_, fun name id member => ?_, fun found member => ?_⟩
    · rcases Heap.of_get?_allocate here with ⟨rfl, rfl⟩ | old
      · refine ⟨?_, ?_⟩
        · rw [List.find?_append, unseen, Option.none_or]
          simp
        · show (state.1.insert found.name _).get? found.name = _
          rw [Table.get?_insert]
          simp
      · obtain ⟨first, entry⟩ := pinned.nodes id found old
        refine ⟨stays first, ?_⟩
        have apart : ¬ node.name = found.name := by
          intro same
          rw [same, first] at unseen
          cases unseen
        show (state.1.insert node.name _).get? found.name = _
        rw [Table.get?_insert]
        simpa [apart] using entry
    · rcases Table.mem_write member with same | old
      · obtain ⟨rfl, rfl⟩ := Prod.mk.inj same
        exact ⟨node, Heap.get?_allocate_self, rfl⟩
      · obtain ⟨found, alive, rfl⟩ := pinned.entries name id old
        exact ⟨found, Heap.get?_allocate_of_get? alive, rfl⟩
    · show ∃ id, (state.1.insert node.name _).get? found.name = some id
      rw [Table.get?_insert]
      rcases List.mem_append.1 member with before | last
      · obtain ⟨id, entry⟩ := pinned.all found before
        by_cases same : node.name = found.name
        · exact ⟨(state.2.allocate node).1, by simp [same]⟩
        · exact ⟨id, by simpa [same] using entry⟩
      · rw [List.mem_singleton.1 last]
        exact ⟨(state.2.allocate node).1, by simp⟩

/-- To pin nodes one after the other lists the first one of each name. -/
theorem Pinned.foldl {seen rest : List Node} {state : Table String NodeId × Heap}
    (pinned : Pinned seen state) : Pinned (seen ++ rest) (rest.foldl NodeStore.pin state) := by
  induction rest generalizing seen state with
  | nil => simpa using pinned
  | cons node rest ih =>
    have next := ih (pinned.pin node)
    rwa [List.append_assoc] at next

end NodeStore

namespace Workspace

variable {registry : Registry} {world : Universe} {capacity : Nat}

/-- In a new workspace the registered nodes are pinned. -/
theorem pinned_create (capacity : Nat) (registry : Registry) :
    NodeStore.Pinned (NodeStore.pinnedNodes registry)
      ((create capacity registry).store.pinned, (create capacity registry).heap) := by
  have start : NodeStore.Pinned [] (Table.empty, ({} : Heap)) := by
    refine ⟨fun id node here => ?_, fun _ _ member => (List.not_mem_nil member).elim,
      fun _ member => (List.not_mem_nil member).elim⟩
    simp [Heap.get?] at here
  exact start.foldl

/-- In a new workspace there are registered nodes only, each with its shape and no edge resolved. -/
theorem shape_of_create {id : NodeId} {node : Node}
    (found : (create capacity registry).heap.get? id = some node) :
    (∃ shape, registry.shape? node.name = some shape ∧
      (create capacity registry).heap.Shows node shape) ∧ IsNew node :=
  NodeStore.shape_of_find? _ ((pinned_create capacity registry).nodes id node found).1

/-- **A new workspace is coherent.** -/
theorem coherent_create (capacity : Nat) (registry : Registry) :
    (create capacity registry).Coherent registry := by
  have pinned := pinned_create capacity registry
  have none_of_free {id : NodeId} {node : Node}
      (found : (create capacity registry).heap.get? id = some node) :
      registry.shape? node.name ≠ none := by
    obtain ⟨⟨shape, shape?, -⟩, -⟩ := shape_of_create found
    rw [shape?]
    exact Option.some_ne_none shape
  exact
    { shapes := fun id node found => by
        obtain ⟨⟨shape, shape?, shows⟩, -⟩ := shape_of_create found
        exact ⟨shape, shows, .pinned shape?⟩
      superLinks := fun id node found name target link =>
        absurd link ((shape_of_create found).2.superLink name target)
      interfaceLinks := fun id node found names targets link => by
        obtain ⟨rfl, rfl⟩ := (shape_of_create found).2.interfaceLink names targets link
        exact .nil
      pinned := fun name shape shape? => by
        obtain ⟨node, first⟩ := NodeStore.exists_of_shape? shape?
        have same : node.name = name := by simpa using List.find?_some first
        exact same ▸ pinned.all node (List.mem_of_find?_eq_some first)
      pinned_entries := fun name id member => by
        have named : (create capacity registry).heap.Names id name := pinned.entries name id member
        obtain ⟨node, found, rfl⟩ := named
        obtain ⟨⟨shape, shape?, -⟩, -⟩ := shape_of_create found
        exact ⟨⟨node, found, rfl⟩, shape, shape?⟩
      pinned_unique := fun id node found _ _ => (pinned.nodes id node found).2
      listed := fun id node found free => absurd free (none_of_free found)
      live_entries := fun _ _ _ member => (List.not_mem_nil member).elim
      live_allocated := fun _ _ member => (List.not_mem_nil member).elim
      recent_alive := fun _ member => (List.not_mem_nil member).elim
      recent_nodup := List.nodup_nil
      recent_length := Nat.zero_le _
      held_alive := fun _ member => (List.not_mem_nil member).elim
      slots_alive := fun _ member => (List.not_mem_nil member).elim }

/-- A new workspace is faithful. -/
theorem faithful_create (capacity : Nat) (world : Universe) :
    (create capacity world.registry).Faithful world := by
  refine ⟨coherent_create capacity world.registry, fun id node found free => ?_⟩
  obtain ⟨⟨shape, shape?, -⟩, -⟩ := shape_of_create found
  rw [shape?] at free
  cases free

/-- A new workspace keeps no answer, so that it is sure. -/
theorem sure_create (capacity : Nat) (world : Universe) :
    (create capacity world.registry).Sure world := fun _ _ _ kept => nomatch kept

/-- In a new workspace all names are pristine. -/
theorem pristine_create (capacity : Nat) (registry : Registry) (name : String) :
    (create capacity registry).Pristine name := by
  intro id node found names targets link member
  rw [((shape_of_create found).2.interfaceLink names targets link).1] at member
  exact List.not_mem_nil member

end Workspace

end ClassLattice
