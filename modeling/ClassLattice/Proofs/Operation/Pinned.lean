import ClassLattice.Proofs.Query.Conduct
import ClassLattice.Proofs.Query.Edges
import ClassLattice.Proofs.Registry
import ClassLattice.Proofs.Workspace.Created
import ClassLattice.Proofs.Workspace.Passage

/-!
# Pinned nodes

The root, the primitive types and the registered markers have their nodes from the beginning.
However a registry was assembled, no marker takes the place of a built-in type, and of the
registrations for a name the last one counts.  Whatever is done later and whatever readers say about
these names, every way from a name to a node leads to the node that the name had at first, and no
reader is asked.
-/

set_option autoImplicit false

namespace ClassLattice

/-- The node that a store pins for a name: a built-in type, or a marker as it was last
registered. -/
def pinnedNode? (specials : List SpecialInterface) (name : String) : Option Node :=
  if name = rootName then some .ofRoot
  else
    match BaseType.ofName? name with
    | some base => some (.ofPrimitive base)
    | none => (lastRegistered? specials name).map (.ofSpecial name)

/-! ## New stores -/

namespace NodeStore

variable {seen : List Node} {state : Table String NodeId × Heap} {registry : Registry}
  {specials : List SpecialInterface} {name : String}

/-- A name leads to the first node that was pinned under it. -/
theorem Pinned.get?_bind (pinned : Pinned seen state) (name : String) :
    (state.1.get? name).bind state.2.get? = seen.find? (·.name == name) := by
  cases first : seen.find? (·.name == name) with
  | none =>
    cases entry : state.1.get? name with
    | none => rfl
    | some id =>
      obtain ⟨node, found, rfl⟩ := pinned.entries name id (Table.mem_entries_of_get? entry)
      have seen := (pinned.nodes id node found).1
      rw [first] at seen
      cases seen
  | some node =>
    obtain rfl : node.name = name := by simpa using List.find?_some first
    obtain ⟨id, entry⟩ := pinned.all node (List.mem_of_find?_eq_some first)
    obtain ⟨other, found, same⟩ := pinned.entries node.name id (Table.mem_entries_of_get? entry)
    have seen := (pinned.nodes id other found).1
    rw [same, first] at seen
    rw [entry, Option.bind_some, found, Option.some.inj seen]

/-- The first of the nodes to be pinned under a name is the one that the registrations lead to. -/
theorem find?_pinnedNodes_of_assembled (assembled : Registry.Assembled specials registry) :
    (pinnedNodes registry).find? (·.name == name) = pinnedNode? specials name := by
  rw [find?_pinnedNodes, pinnedNode?]
  by_cases root : name = rootName
  · rw [if_pos root, if_pos root]
  · rw [if_neg root, if_neg root]
    cases denoted : BaseType.ofName? name with
    | some base => rfl
    | none =>
      have ordinary : Registry.isBuiltIn name = false := by
        simp [Registry.isBuiltIn, root, denoted]
      rw [assembled.get? ordinary]

/-- Pinning keeps the names of pinned nodes apart. -/
theorem nodup_keys_pin (state : Table String NodeId × Heap) (nodes : List Node)
    (once : state.1.keys.Nodup) : (nodes.foldl pin state).1.keys.Nodup := by
  induction nodes generalizing state with
  | nil => exact once
  | cons node rest ih =>
    apply ih
    unfold pin
    split
    · exact once
    · exact Table.nodup_keys_insert once

end NodeStore

namespace Workspace

open Relation

variable {registry : Registry} {reader : Reader} {specials : List SpecialInterface}
  {old new workspace : Workspace} {id other : NodeId} {node : Node} {name : String}

/-- **A new store pins the root, the primitive types and the registered markers**, each once and
nothing else, and there are no other nodes. -/
structure PinsAll (specials : List SpecialInterface) (created : Workspace) : Prop where
  pins : ∀ name, (created.store.pinned.get? name).bind created.heap.get? =
    pinnedNode? specials name
  once : created.store.pinned.keys.Nodup
  all : ∀ id node, created.heap.get? id = some node →
    created.store.pinned.get? node.name = some id

/-- A new workspace has all pinned nodes in use, under their names. -/
theorem pinsAll_create (assembled : Registry.Assembled specials registry) (capacity : Nat) :
    PinsAll specials (create capacity registry) := by
  have pinned := pinned_create capacity registry
  constructor
  · intro name
    rw [← NodeStore.find?_pinnedNodes_of_assembled assembled]
    exact pinned.get?_bind name
  · have once := NodeStore.nodup_keys_pin (Table.empty, {}) (NodeStore.pinnedNodes registry)
      List.nodup_nil
    unfold NodeStore.pinnedNodes at once
    unfold create NodeStore.create
    generalize (NodeStore.builtIns ++ NodeStore.markers registry).foldl NodeStore.pin
      (Table.empty, {}) = state at once
    exact once
  · intro id node found
    exact (pinned.nodes id node found).2

/-! ## Every way to a pinned name -/

/-- Every way from a name to a node leads to one node: from the name itself, from the names on
edges, resolved or not, and from the names of arrays. -/
structure LeadsTo (workspace : Workspace) (name : String) (id : NodeId) : Prop where
  cached : workspace.cached name = (some id, workspace)
  typeNode : ∀ reader, Query.typeNode reader name workspace = .ok id workspace
  alone : ∀ other, workspace.heap.Names other name ↔ other = id
  root : name = rootName → workspace.store.root = id
  primitive : ∀ base : BaseType, name = base.name → workspace.store.primitive base = id
  elements : ∀ other node element, workspace.heap.get? other = some node →
    layout node.name = .ok (some name) → node.element? = some element → element = id
  superLinks : ∀ other node target, workspace.heap.get? other = some node →
    node.superLink? = some (.resolved name target) → target = id
  interfaceLinks : ∀ other node names targets, workspace.heap.get? other = some node →
    node.interfaceLink? = some (.resolved names targets) →
      List.Forall₂ (fun target declared => declared = name → target = id) targets names
  superclass : ∀ reader other node, workspace.heap.get? other = some node →
    workspace.Anchored other → node.outline.superName = some name →
      ∃ after, Query.superclass reader other workspace = .ok (some id) after
  interfaces : ∀ reader other node targets after, workspace.heap.get? other = some node →
    workspace.Anchored other → Query.interfaces reader other workspace = .ok targets after →
      List.Forall₂ (fun target declared => declared = name → target = id) targets
        node.outline.interfaceNames

/-- The reader is not needed for a pinned name. -/
theorem Coherent.not_fails_of_pinned (coherent : workspace.Coherent registry)
    (entry : workspace.store.pinned.get? name = some id) {error : HierarchyError} :
    ¬ reader.Fails registry name error := by
  obtain ⟨-, shape, told⟩ := coherent.pinned_entries name id (Table.mem_entries_of_get? entry)
  intro fails
  cases fails with
  | malformed free => cases told.symm.trans free
  | unread free => cases told.symm.trans free
  | element free => cases told.symm.trans free

/-- **Every way from a pinned name leads to the pinned node.** -/
theorem Coherent.leadsTo (coherent : workspace.Coherent registry)
    (entry : workspace.store.pinned.get? name = some id) : workspace.LeadsTo name id := by
  have named := coherent.names_of_pinned entry
  have only {other : NodeId} (h : workspace.heap.Names other name) : other = id :=
    coherent.id_unique h named
  have hit : workspace.cached name = (some id, workspace) := by
    unfold cached
    rw [entry]
  -- A look-up leaves the pinned nodes in their places, so what it leads to is pinned too.
  have later {reader : Reader} {scope : Scope} {after : Workspace} {other : NodeId}
      (looks : LooksUp registry reader scope workspace after)
      (h : after.heap.Names other name) : other = id := by
    have coherent' := looks.coherent coherent
    refine coherent'.id_unique h (coherent'.names_of_pinned ?_)
    rw [(looks.persists coherent).pinned]
    exact entry
  constructor
  · exact hit
  · intro reader
    exact Query.typeNode_of_cached reader hit
  · exact fun other => ⟨only, fun same => same ▸ named⟩
  · rintro rfl
    rw [NodeStore.root, entry]
    rfl
  · rintro base rfl
    rw [NodeStore.primitive, entry]
    rfl
  · intro other node element found laid isArray
    obtain ⟨inner, -, laid', below⟩ := coherent.names_element found isArray
    obtain rfl := Option.some.inj (Except.ok.inj (laid.symm.trans laid'))
    exact only below
  · intro other node target found link
    exact only (coherent.superLinks other node found name target link)
  · intro other node names targets found link
    refine (coherent.interfaceLinks other node found names targets link).imp ?_
    rintro target declared h rfl
    exact only h
  · intro reader other node found anchored declares
    have follows := Query.superclass_yields coherent reader anchored found
    rw [declares] at follows
    obtain ⟨parent, after, ran, looks, leads, -⟩ := (follows.imp (fun _ _ h => h)
      fun error after h => by
        obtain ⟨-, missing, same, fails⟩ := h
        obtain rfl := Option.some.inj same
        exact coherent.not_fails_of_pinned entry fails).exists_ok
    cases leads with
    | some has =>
      rw [later looks has.1] at ran
      exact ⟨after, ran⟩
  · intro reader other node targets after found anchored ran
    have follows := Query.interfaces_yields coherent reader anchored found
    unfold Query.Yields at follows
    rw [ran] at follows
    refine follows.2.imp ?_
    rintro target declared has rfl
    exact later follows.1 has.1

/-! ## Every state that is passed through -/

/-- No step changes what is pinned. -/
theorem Step.pinned_eq (h : Step registry reader old new) (coherent : old.Coherent registry) :
    new.store.pinned = old.store.pinned := by
  cases h with
  | turn turn => exact (turn.persists coherent).pinned
  | _ => rfl

/-- **Nothing that happens changes what is pinned.** -/
theorem Passes.pinned_eq (h : Passes registry old new) (coherent : old.Coherent registry) :
    new.store.pinned = old.store.pinned := by
  induction h with
  | refl => rfl
  | tail path step ih =>
    obtain ⟨reader, step⟩ := step
    exact (step.pinned_eq (Passes.coherent path coherent)).trans ih

/-- **No reader is asked for a pinned name.** -/
theorem Passes.unread (h : Passes registry old new) (coherent : old.Coherent registry)
    (entry : old.store.pinned.get? name = some id) (fresh : name ∉ old.reads.toList) :
    name ∉ new.reads.toList := by
  induction h with
  | refl => exact fresh
  | @tail mid new path step ih =>
    obtain ⟨reader, step⟩ := step
    rcases step.asks with still | ⟨asked, asks⟩
    · rw [still]
      exact ih
    · have named : mid.heap.Names id name := by
        apply (Passes.coherent path coherent).names_of_pinned
        rw [Passes.pinned_eq path coherent]
        exact entry
      have apart : name ≠ asked := fun same => asks.unused id (same ▸ named)
      rw [asks.reads, Array.toList_push, List.mem_append, List.mem_singleton]
      exact fun member => member.elim ih apart

end Workspace

namespace Operation

open Workspace

/-- **Built-in types are never replaced, and pinned names are never read.**  However a registry was
assembled, a new store pins the root, the primitive types and every other registered name with the
interfaces of its last registration.  In every state that an operation passes through after any
history with any readers, each pinned name still has the node that it had at first, every way from
the name to a node leads there, and no reader was asked for it. -/
theorem pinned_stays {specials : List SpecialInterface} {registry : Registry}
    (assembled : Registry.Assembled specials registry) (capacity : Nat) :
    let created := create capacity registry
    PinsAll specials created ∧
      ∀ history reader workspace, Steps registry reader (created.run history).2 workspace →
        workspace.store.pinned = created.store.pinned ∧
          ∀ name id, created.store.pinned.get? name = some id →
            workspace.LeadsTo name id ∧ name ∉ workspace.reads ∧
              ∃ node later, created.heap.get? id = some node ∧
                workspace.heap.get? id = some later ∧ node.Advances later := by
  intro created
  have coherent : created.Coherent registry := coherent_create capacity registry
  refine ⟨pinsAll_create assembled capacity, fun history reader workspace reached => ?_⟩
  have passes : Passes registry created workspace :=
    (coherent.passes_run history).trans reached.passes
  have coherent' := passes.coherent coherent
  have same : workspace.store.pinned = created.store.pinned := passes.pinned_eq coherent
  refine ⟨same, fun name id entry => ?_⟩
  have entry' : workspace.store.pinned.get? name = some id := same ▸ entry
  obtain ⟨node, found, -⟩ := coherent.names_of_pinned entry
  obtain ⟨later, found', -⟩ := coherent'.names_of_pinned entry'
  refine ⟨coherent'.leadsTo entry', ?_, node, later, found, found', passes.advances found found'⟩
  have unread := passes.unread coherent entry List.not_mem_nil
  simpa using unread

/-- Types in memory under the names of the root, of a primitive type and of a marker. -/
def impostorTypes : MetadataMap :=
  .ofTypes [.ofClass rootName "demo/A" [], .ofClass "I" rootName ["demo/I"],
    .ofInterface "demo/M" ["demo/I"]]

/-- A configuration names the root and a marker twice, and then a primitive type is registered; the
reader has types of all these names. -/
theorem pinned_stays_impostors :
    let registry := (Registry.ofConfig
      [⟨rootName, ["demo/I"]⟩, ⟨"demo/M", []⟩, ⟨"demo/M", ["demo/J"]⟩]).register ⟨"I", ["demo/I"]⟩
    let created := create 1 registry
    let workspace := (created.run [(impostorTypes.reader, keep "slot" "[Ldemo/M;"),
      (impostorTypes.reader, flatten (.named "demo/M"))]).2
    ∃ id later, created.heap.get? id = some (.ofSpecial "demo/M" ["demo/J"]) ∧
      workspace.LeadsTo "demo/M" id ∧ "demo/M" ∉ workspace.reads ∧
        workspace.heap.get? id = some later ∧
          (Node.ofSpecial "demo/M" ["demo/J"]).Advances later := by
  intro registry created workspace
  have assembled := (Registry.Assembled.ofConfig
    [⟨rootName, ["demo/I"]⟩, ⟨"demo/M", []⟩, ⟨"demo/M", ["demo/J"]⟩]).register ⟨"I", ["demo/I"]⟩
  obtain ⟨all, stays⟩ := pinned_stays assembled 1
  have last : (created.store.pinned.get? "demo/M").bind created.heap.get? =
      some (.ofSpecial "demo/M" ["demo/J"]) := (all.pins "demo/M").trans (by decide)
  obtain ⟨id, entry, first⟩ := Option.bind_eq_some_iff.1 last
  obtain ⟨-, kept⟩ := stays [(impostorTypes.reader, keep "slot" "[Ldemo/M;"),
    (impostorTypes.reader, flatten (.named "demo/M"))] impostorTypes.reader workspace .refl
  obtain ⟨leads, unread, node, later, found, found', advances⟩ := kept "demo/M" id entry
  obtain rfl := Option.some.inj (first.symm.trans found)
  exact ⟨id, later, first, leads, unread, found', advances⟩

end Operation

end ClassLattice
