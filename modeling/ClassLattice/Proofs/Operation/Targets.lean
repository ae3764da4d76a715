import ClassLattice.Proofs.Workspace.Valid
import ClassLattice.Proofs.Workspace.WalkLimit

/-!
# Operations on the node of a name

An operation looks up the node that it works on, or takes it from a slot, and holds it until it has
ended.  What it answers depends on the name of that node and on the universe.
-/

set_option autoImplicit false

namespace ClassLattice

namespace Workspace

variable {registry : Registry} {world : Universe} {reader : Reader} {before old new : Workspace}
  {id : NodeId} {node : Node}

/-- The name of the node that a target stands for; nothing for an empty slot. -/
def targetName (workspace : Workspace) : Target → Option String
  | .named name => some name
  | .kept slot => (workspace.slots.get? slot).map fun id => (workspace.heap.node id).name

/-- What is kept in a slot is in use under its name. -/
theorem Coherent.has_kept {workspace : Workspace} (coherent : workspace.Coherent registry)
    {slot : String} (kept : workspace.slots.get? slot = some id) :
    workspace.Has id (workspace.heap.node id).name := by
  have anchors : workspace.Anchors id := .inr (.inl (Table.mem_values_of_get? kept))
  obtain ⟨node, found⟩ := coherent.alive_of_anchors anchors
  rw [Heap.node_of_get? found]
  exact ⟨⟨node, found, rfl⟩, anchors.anchored⟩

/-- What stays of a workspace while an operation works on it. -/
structure Serving (world : Universe) (before workspace : Workspace) : Prop where
  valid : workspace.Valid world
  targets : ∀ target, workspace.targetName target = before.targetName target
  pristine : ∀ name, before.Pristine name → workspace.Pristine name
  resolved : ∀ name, before.ResolvedAbove world name → workspace.ResolvedAbove world name

namespace Serving

/-- A valid workspace serves from where it is. -/
theorem refl {workspace : Workspace} (valid : workspace.Valid world) :
    Serving world workspace workspace :=
  ⟨valid, fun _ => rfl, fun _ h => h, fun _ h => h⟩

/-- To hold a node keeps a workspace serving. -/
theorem hold (serving : Serving world before old) (found : old.heap.get? id = some node) :
    Serving world before (old.hold id) :=
  ⟨serving.valid.hold found, serving.targets, serving.pristine,
    fun name h => (serving.resolved name h).hold⟩

/-- Looking up names that resolves no edge to an interface leaves all of it. -/
theorem looksUp {scope : Scope} (serving : Serving world before old)
    (within : reader.Within world) (fixed : ∀ id, ¬ scope.interfaces id)
    (looks : LooksUp world.registry reader scope old new) : Serving world before new := by
  have coherent := serving.valid.faithful.coherent
  have persists := looks.persists coherent
  refine ⟨serving.valid.looksUp within looks, fun target => ?_, fun name pristine =>
    looks.pristine (fun id inside => absurd inside (fixed id)) (serving.pristine name pristine),
    fun name resolved => (serving.resolved name resolved).persists persists⟩
  rw [← serving.targets target]
  cases target with
  | named name => rfl
  | kept slot =>
    show (new.slots.get? slot).map _ = (old.slots.get? slot).map _
    rw [persists.slots]
    cases kept : old.slots.get? slot with
    | none => rfl
    | some id =>
      have has := coherent.has_kept kept
      obtain ⟨node, found, named⟩ := persists.names has.2 has.1
      rw [Option.map_some, Option.map_some, Heap.node_of_get? found, named]

end Serving

end Workspace

namespace Query

open Workspace

variable {world : Universe} {reader : Reader} {before workspace : Workspace} {id : NodeId}
  {name : String}

/-- An answer was given that is true, and the workspace is valid. -/
def Answered (world : Universe) (truth : Answer → Prop) (answer : Answer) (after : Workspace) :
    Prop := after.Valid world ∧ truth answer

/-- No answer was given, with an error that is accounted for, and the workspace is valid. -/
def Faulted (world : Universe) (fault : HierarchyError → Prop) (error : HierarchyError)
    (after : Workspace) : Prop := after.Valid world ∧ fault error

/-- No answer was given, for a cause other than a reader that fails, and the workspace is valid. -/
def Refused (world : Universe) (reader : Reader) (cause : Prop) (_ : HierarchyError)
    (after : Workspace) : Prop :=
  after.Valid world ∧ (reader.Serves world → reader.Bounded → cause)

/-- **An operation on a target** answers what the query on its node answers. -/
theorem withTarget_yields (within : reader.Within world)
    (serving : Serving world before workspace) (target : Target) {query : NodeId → Query Answer}
    {truth : Answer → Prop} {fault : HierarchyError → Prop}
    (run : ∀ id name mid, before.targetName target = some name → Serving world before mid →
      (∀ other known, workspace.Has other known → mid.Has other known) → mid.Has id name →
        (query id).Yields mid (Answered world truth) (Faulted world fault))
    (empty : before.targetName target = none → truth .nothing)
    (lost : ∀ name error, target = .named name → reader.Fails world.registry name error →
      fault error) :
    (withTarget reader target query).Yields workspace (Answered world truth)
      (Faulted world fault) := by
  unfold withTarget
  cases target with
  | named name =>
    refine (typeNode_yields serving.valid.faithful.coherent reader name).bind
      (fun id after h => ?_) fun error after h => ?_
    · obtain ⟨looks, node, found, rfl⟩ := h
      have serving' := serving.looksUp within (fun _ h => h) looks
      have stays (other known) (has : workspace.Has other known) :
          (after.hold id).Has other known :=
        have later := has.persists (looks.persists serving.valid.faithful.coherent)
        ⟨later.1, later.2.hold⟩
      refine Yields.holding ((run id node.name (after.hold id) rfl (serving'.hold found) stays
        ⟨⟨node, found, rfl⟩, anchored_hold⟩).imp (fun answer last h => ?_) fun error last h => ?_)
      · exact ⟨h.1.letGo, h.2⟩
      · exact ⟨h.1.letGo, h.2⟩
    · exact ⟨serving.valid.looksUp within h.1, lost name error rfl h.2⟩
  | kept slot =>
    refine Yields.get_bind ?_
    have same : (workspace.slots.get? slot).map (fun id => (workspace.heap.node id).name) =
        before.targetName (.kept slot) := serving.targets (.kept slot)
    cases kept : workspace.slots.get? slot with
    | none =>
      rw [kept] at same
      exact Yields.pure ⟨serving.valid, empty same.symm⟩
    | some id =>
      rw [kept] at same
      have has := serving.valid.faithful.coherent.has_kept kept
      obtain ⟨node, found, -⟩ := has.1
      refine Yields.holding ((run id _ (workspace.hold id) same.symm (serving.hold found)
        (fun _ _ has => ⟨has.1, has.2.hold⟩) ⟨has.1, has.2.hold⟩).imp
          (fun answer last h => ?_) fun error last h => ?_)
      · exact ⟨h.1.letGo, h.2⟩
      · exact ⟨h.1.letGo, h.2⟩

/-- An operation on a target is refused where the query on its node is, and for a name that cannot
be looked up. -/
theorem withTarget_refused (within : reader.Within world)
    (serving : Serving world before workspace) (target : Target) {query : NodeId → Query Answer}
    {truth : Answer → Prop} {cause : Prop}
    (run : ∀ id name mid, before.targetName target = some name → Serving world before mid →
      (∀ other known, workspace.Has other known → mid.Has other known) → mid.Has id name →
        (query id).Yields mid (Answered world truth) (Refused world reader cause))
    (empty : before.targetName target = none → truth .nothing)
    (lost : ∀ name, target = .named name → world.resolves name = false → cause) :
    (withTarget reader target query).Yields workspace (Answered world truth)
      (Refused world reader cause) := by
  have refused := withTarget_yields within serving target run empty
    fun name error same fails (serves : reader.Serves world) (_ : reader.Bounded) =>
      lost name same (serves.not_resolves fails)
  exact refused

/-- An operation on a target that can be looked up fails only where the query on its node does. -/
theorem withTarget_resolved (within : reader.Within world) (serves : reader.Serves world)
    {before : Workspace} (serving : Serving world before workspace) (target : Target)
    {query : NodeId → Query Answer} {truth : Answer → Prop} {fault : HierarchyError → Prop}
    (named : before.targetName target = some name) (resolves : world.resolves name = true)
    (run : ∀ id mid, Serving world before mid →
      (∀ other known, workspace.Has other known → mid.Has other known) → mid.Has id name →
        (query id).Yields mid (Answered world truth) (Faulted world fault)) :
    (withTarget reader target query).Yields workspace (Answered world truth)
      (Faulted world fault) := by
  apply withTarget_yields within serving target
  · intro id known mid named' serving' stays has
    obtain rfl := Option.some.inj (named.symm.trans named')
    exact run id mid serving' stays has
  · intro empty
    rw [named] at empty
    cases empty
  · intro known error same fails
    subst same
    obtain rfl := Option.some.inj named
    rw [serves.not_resolves fails] at resolves
    cases resolves

end Query

end ClassLattice
