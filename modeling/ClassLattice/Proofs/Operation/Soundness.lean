import ClassLattice.Proofs.Operation.Truths

/-!
# Every operation answers the truth

One case for each operation, and from them what holds after any sequence of operations: the
workspace stays valid, so the caches never make an answer untrue.
-/

set_option autoImplicit false

namespace ClassLattice

namespace Operation

open Workspace Query

variable {world : Universe} {reader : Reader} {workspace : Workspace}

/-- To fill a slot with a node keeps all valid and the node in use. -/
theorem names_fillSlot {id : NodeId} {name slot : String} (valid : workspace.Valid world)
    (named : workspace.heap.Names id name) :
    (workspace.fillSlot slot id).Valid world ∧
      (workspace.fillSlot slot id).heap.Names id name := by
  obtain ⟨node, found, rfl⟩ := named
  have filled := valid.fillSlot slot found
  have kept : (workspace.slots.insert slot id).get? slot = some id := by simp [Table.get?_insert]
  have kept : id ∈ (workspace.fillSlot slot id).slots.values := Table.mem_values_of_get? kept
  obtain ⟨later, alive⟩ := filled.faithful.coherent.alive_of_anchors (.inr (.inl kept))
  have same := Option.some.inj (found.symm.trans (Heap.get?_of_get?_reclaim alive))
  exact ⟨filled, later, alive, same ▸ rfl⟩

/-- What is kept in a slot looks as its name does. -/
theorem keep_yields (within : reader.Within world) (valid : workspace.Valid world)
    (slot name : String) : Tells world reader workspace (.keep slot name) := by
  refine tells_of_answered (world.About world.LooksLike name) (fun _ => rfl) ?_
  refine (typeNode_yields valid.faithful.coherent reader name).bind (fun id after h => ?_)
    fun error after h => ?_
  · obtain ⟨looks, named⟩ := h
    obtain ⟨filled, named⟩ := names_fillSlot (valid.looksUp within looks) named
    refine Yields.modify_bind ((viewOf_yields filled named _).imp (fun answer last h => ?_)
      fun error last h => h)
    exact ⟨h.1, filled.faithful.resolves named, h.2⟩
  · refine ⟨valid.looksUp within h.1, fun serves _ _ answer about => ?_⟩
    have lost := serves.not_resolves h.2
    rw [about.1] at lost
    cases lost

/-- What is found without reading looks as its name does. -/
theorem cached_tells (within : reader.Within world) (valid : workspace.Valid world)
    (name : String) : Tells world reader workspace (.cached name) := by
  refine tells_of_answered
    (fun answer => answer = .nothing ∨ world.About world.LooksLike name answer) (fun _ => rfl) ?_
  refine (cached_yields valid.faithful.coherent reader (Scope.ofName name) name).bind
    (fun found after h => ?_) fun _ _ h => h.elim
  cases found with
  | none =>
    obtain ⟨rfl, -⟩ := h.2 rfl
    exact Yields.pure ⟨valid, .inl rfl⟩
  | some id =>
    obtain ⟨looks, named⟩ := h.1 id rfl
    have valid' := valid.looksUp within looks
    refine (viewOf_yields valid' named _).imp (fun answer last h => ?_) fun error last h => h
    exact ⟨h.1, .inr ⟨valid'.faithful.resolves named, h.2⟩⟩

/-- Whatever shows a pinned node shows what its name looks like. -/
theorem pinned_tells (valid : workspace.Valid world) {id : NodeId} {name : String}
    (named : workspace.heap.Names id name) {operation : Operation}
    (same : ∀ meets, world.Admits meets workspace.targetName operation =
      world.About world.LooksLike name)
    (query : (operation.query reader).Yields workspace = (viewOf id).Yields workspace) :
    Tells world reader workspace operation := by
  refine tells_of_answered (world.About world.LooksLike name) same ?_
  rw [query]
  refine (viewOf_yields valid named _).imp (fun answer last h => ?_) fun error last h => h
  exact ⟨h.1, valid.faithful.resolves named, h.2⟩

/-- What is described is what the name of the target is described as. -/
theorem describe_tells (within : reader.Within world) (valid : workspace.Valid world)
    (target : Target) : Tells world reader workspace (.describe target) := by
  refine tells_of_answered (world.OfTarget world.Describes (workspace.targetName target))
    (fun _ => rfl) ?_
  refine ofTarget_yields within (.refl valid) target fun id name mid _ serving _ has => ?_
  obtain ⟨⟨node, found, rfl⟩, -⟩ := has
  obtain ⟨shape, shape?, shows⟩ := serving.valid.faithful.shape found
  refine Yields.node_bind found (Yields.pure ⟨serving.valid, shape, shape?, ?_⟩)
  rw [Node.describe_eq, shows.describe_eq]

/-- Whether a target descends from another is decided by their names. -/
theorem descends_tells (within : reader.Within world) (valid : workspace.Valid world)
    (self base : Target) : Tells world reader workspace (.descends self base) := by
  refine tells_of_answered (world.OfTarget (fun x => world.OfTarget (world.Decides x)
    (workspace.targetName base)) (workspace.targetName self)) (fun _ => rfl) ?_
  refine ofTarget_yields within (.refl valid) self fun id name mid _ serving _ has => ?_
  refine ofTarget_yields within serving base fun id' name' last _ serving' stays has' => ?_
  refine (descendsOf_yields within serving'.valid (stays id name has) has').imp
    (fun answer after h => h) fun error after h => ⟨h.1, fun serves bounded untouched => ?_⟩
  rintro answer ⟨found, finds, -⟩
  obtain ⟨-, inner, -, -, spoilt⟩ := h.2.2 serves bounded found finds
  exact spoilt (serving'.pristine inner (untouched.pristine inner))

/-- How two targets compare is told by their names. -/
theorem compare_tells (within : reader.Within world) (valid : workspace.Valid world)
    (first second : Target) : Tells world reader workspace (.compare first second) := by
  refine tells_of_answered (world.OfTarget (fun x => world.OfTarget (Universe.Compares x)
    (workspace.targetName second)) (workspace.targetName first)) (fun _ => rfl) ?_
  refine ofTarget_yields within (.refl valid) first fun id name mid _ serving _ has => ?_
  refine ofTarget_yields within serving second fun id' name' last _ serving' stays has' => ?_
  have named := (stays id name has).1
  have named' := has'.1
  have same : (id == id') = (name == name') := by
    rw [Bool.eq_iff_iff, beq_iff_eq, beq_iff_eq]
    constructor
    · rintro rfl
      exact named.unique named'
    · rintro rfl
      exact serving'.valid.faithful.coherent.id_unique named named'
  obtain ⟨node, found, rfl⟩ := named
  obtain ⟨node', found', rfl⟩ := named'
  refine Yields.nameOf_bind found (Yields.nameOf_bind found' (Yields.pure ⟨serving'.valid, ?_⟩))
  rw [same]
  exact rfl

/-- A question about a target is answered as one about its name. -/
theorem node_tells (within : reader.Within world) (valid : workspace.Valid world)
    (target : Target) {operation : Operation} {query : NodeId → Query Answer}
    {truth : String → Answer → Prop}
    (same : ∀ meets, world.Admits meets workspace.targetName operation =
      world.OfTarget truth (workspace.targetName target))
    (byNode : operation.query reader = withTarget reader target query)
    (run : ∀ id name mid, mid.Valid world → mid.Has id name →
      (query id).Yields mid (Answered world (truth name))
        (Refused world reader (∀ answer, ¬ truth name answer))) :
    Tells world reader workspace operation := by
  refine tells_of_answered (world.OfTarget truth (workspace.targetName target)) same ?_
  rw [byNode]
  refine ofTarget_yields within (.refl valid) target fun id name mid _ serving _ has => ?_
  refine (run id name mid serving.valid has).imp (fun _ _ h => h) fun _ _ h => ?_
  exact ⟨h.1, fun serves bounded _ => h.2 serves bounded⟩

/-- The operations that look neither at types nor at answers. -/
theorem quiet_tells {operation : Operation} {answer : Answer} {after : Workspace}
    (query : operation.query reader workspace = .ok answer after) (valid : after.Valid world)
    (admits : ∀ meets, world.Admits meets workspace.targetName operation answer) :
    Tells world reader workspace operation := by
  unfold Tells Query.Yields
  rw [query]
  exact ⟨valid, admits _, fun _ => admits _⟩

/-- A name is pinned exactly if it is registered. -/
theorem isPinned_eq (valid : workspace.Valid world) (name : String) :
    workspace.store.isPinned name = (world.registry.shape? name).isSome := by
  have coherent := valid.faithful.coherent
  unfold NodeStore.isPinned
  rw [Bool.eq_iff_iff, Table.contains_iff_get?, Option.isSome_iff_exists]
  constructor
  · rintro ⟨id, entry⟩
    exact (coherent.pinned_entries name id (Table.mem_entries_of_get? entry)).2
  · rintro ⟨shape, pinned⟩
    exact coherent.pinned name shape pinned

/-- An answer that is remembered is true. -/
theorem knownAnswer_tells (valid : workspace.Valid world) (a b : String) :
    Tells world reader workspace (.knownAnswer a b) := by
  refine Yields.knownAnswer_bind ?_
  cases known : workspace.caches.answers.answer? a b with
  | none => exact Yields.pure ⟨valid, .inl rfl, fun _ => .inl rfl⟩
  | some answer =>
    refine Yields.pure ⟨valid, .inr ⟨answer, valid.sure a b answer known, rfl⟩, fun untouched => ?_⟩
    rw [untouched.answers] at known
    cases known

/-- Whether a type is a subclass of another is told by what the two have in common. -/
theorem isSubclass_yields (within : reader.Within world) (valid : workspace.Valid world)
    (sub sup : String) {operation : Operation}
    (truth : ∀ meets answer, world.Admits meets workspace.targetName operation answer ↔
      ∃ c, meets sub sup c ∧ answer = .flag (c == sup)) :
    Yields (Query.isSubclass reader sub sup >>= fun found => pure (Answer.flag found)) workspace
      (Told world workspace operation) fun _ => Untold world reader workspace operation := by
  unfold Query.isSubclass
  rw [bind_assoc]
  exact fromCommon_yields within valid sub sup truth

/-- **Every operation answers the truth**, or fails where there is no answer, the reader fails or
something was asked before; in either case the workspace stays valid. -/
theorem tells (within : reader.Within world) (valid : workspace.Valid world)
    (operation : Operation) : Tells world reader workspace operation := by
  cases operation with
  | commonSuperclass a b => exact fromCommon_yields within valid a b fun _ _ => .rfl
  | isSubclass sub sup => exact isSubclass_yields within valid sub sup fun _ _ => .rfl
  | isSuperclass sup sub => exact isSubclass_yields within valid sub sup fun _ _ => .rfl
  | commonSupertype a b => exact commonSupertype_yields within valid a b
  | inspect target =>
    exact node_tells within valid target (fun _ => rfl) rfl fun id name mid valid has =>
      viewOf_yields valid has.1 _
  | superclass target =>
    exact node_tells within valid target (fun _ => rfl) rfl fun id name mid valid has =>
      superclassOf_yields within valid has
  | interfaces target =>
    exact node_tells within valid target (fun _ => rfl) rfl fun id name mid valid has =>
      interfacesOf_yields within valid has
  | flatten target =>
    exact node_tells within valid target (fun _ => rfl) rfl fun id name mid valid has =>
      (flattenOf_yields within valid has).imp (fun _ _ h => h) fun _ _ h => h.refused
  | describe target => exact describe_tells within valid target
  | descends self base => exact descends_tells within valid self base
  | compare first second => exact compare_tells within valid first second
  | keep slot name => exact keep_yields within valid slot name
  | drop slot => exact quiet_tells rfl (valid.clearSlot slot) fun _ => trivial
  | cached name => exact cached_tells within valid name
  | isPinned name =>
    exact quiet_tells rfl valid fun _ => congrArg Answer.flag (isPinned_eq valid name)
  | primitive base =>
    exact pinned_tells valid (valid.faithful.coherent.names_primitive base) (fun _ => rfl) rfl
  | root => exact pinned_tells valid valid.faithful.coherent.names_root (fun _ => rfl) rfl
  | releaseRetained => exact quiet_tells rfl valid.releaseRetained fun _ => trivial
  | retainedCount => exact quiet_tells rfl valid fun _ => trivial
  | answerCount => exact quiet_tells rfl valid fun _ => trivial
  | knownAnswer first second => exact knownAnswer_tells valid first second
  | clearAnswers => exact quiet_tells rfl valid.clearAnswers fun _ => trivial
  | statistics => exact quiet_tells rfl valid fun _ => trivial

end Operation

end ClassLattice
