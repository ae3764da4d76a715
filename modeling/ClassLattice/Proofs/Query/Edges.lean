import ClassLattice.Proofs.Query.Lookup

/-!
# What following an edge does

The superclass and the interfaces of an anchored node are given out as nodes of the declared names,
anchored by the node itself.  An edge that was pending is resolved by that, and no edge of another
node is.
-/

set_option autoImplicit false

namespace ClassLattice

/-- The scope in which the edge of a node to its superclass may be resolved. -/
def Scope.ofSuperclass (id : NodeId) : Scope := ⟨fun _ => True, (· = id), fun _ => False⟩

/-- The scope in which the edges of a node to its interfaces may be resolved. -/
def Scope.ofInterfaces (id : NodeId) : Scope := ⟨fun _ => True, fun _ => False, (· = id)⟩

/-- The scope in which no edge may be resolved. -/
def Scope.ofNames : Scope := ⟨fun _ => True, fun _ => False, fun _ => False⟩

/-- What a look-up of one name may do is what look-ups of names may do. -/
theorem Scope.ofName_within (name : String) : (Scope.ofName name).Within .ofNames :=
  ⟨fun _ _ => trivial, fun _ => id, fun _ => id⟩

/-- What resolves a superclass may look names up. -/
theorem Scope.ofNames_within_superclass (id : NodeId) :
    Scope.ofNames.Within (Scope.ofSuperclass id) :=
  ⟨fun _ _ => trivial, fun _ => False.elim, fun _ => False.elim⟩

/-- What resolves interfaces may look names up. -/
theorem Scope.ofNames_within_interfaces (id : NodeId) :
    Scope.ofNames.Within (Scope.ofInterfaces id) :=
  ⟨fun _ _ => trivial, fun _ => False.elim, fun _ => False.elim⟩

namespace Workspace

variable {registry : Registry} {old new workspace : Workspace} {id : NodeId} {node : Node}
  {name : String}

/-- An anchored node has a name. -/
def Has (workspace : Workspace) (id : NodeId) (name : String) : Prop :=
  workspace.heap.Names id name ∧ workspace.Anchored id

/-- A node in use stays in use under its name. -/
theorem Has.persists (persists : Persists old new) (h : old.Has id name) : new.Has id name :=
  ⟨persists.names h.2 h.1, persists.anchored h.2⟩

/-- A resolved superclass is in use under the name that was declared. -/
theorem Coherent.has_superclass (coherent : workspace.Coherent registry) {target : NodeId}
    (anchored : workspace.Anchored id) (found : workspace.heap.get? id = some node)
    (resolved : node.superLink? = some (.resolved name target)) : workspace.Has target name :=
  ⟨coherent.superLinks id node found name target resolved,
    anchored.tail ⟨node, found, Node.mem_references_iff.2 (.inr (.inl ⟨name, resolved⟩))⟩⟩

/-- **Resolved interfaces are in use under the names that were declared**, in their order. -/
theorem Coherent.has_interfaces (coherent : workspace.Coherent registry) {names : List String}
    {targets : List NodeId} (anchored : workspace.Anchored id)
    (found : workspace.heap.get? id = some node)
    (resolved : node.interfaceLink? = some (.resolved names targets)) :
    List.Forall₂ workspace.Has targets names := by
  refine (coherent.interfaceLinks id node found names targets resolved).imp_of_mem
    fun target member name named => ⟨named, ?_⟩
  exact anchored.tail ⟨node, found,
    Node.mem_references_iff.2 (.inr (.inr ⟨names, targets, resolved, member⟩))⟩

/-- The root is in use under its name. -/
theorem Coherent.has_root (coherent : workspace.Coherent registry) :
    workspace.Has workspace.store.root rootName := by
  refine ⟨coherent.names_root, Anchors.anchored (.inr (.inr ?_))⟩
  obtain ⟨id, entry⟩ := coherent.pinned rootName .root (by simp [Registry.shape?])
  rw [NodeStore.root, entry]
  exact Table.mem_values_of_get? entry

end Workspace

namespace Query

open Workspace

variable {registry : Registry} {reader : Reader} {workspace : Workspace} {id : NodeId}
  {node : Node}

/-- Looking up a pending superclass resolves the edge to it.  The node need not be in use any more
when the look-up has ended, and then it is left alone. -/
theorem resolveSuperclass_yields (coherent : workspace.Coherent registry) (reader : Reader)
    (found : workspace.heap.get? id = some node) {name : String}
    (pending : node.superLink? = some (.pending name)) :
    Yields (do
        let target ← typeNode reader name
        modifyNode id (·.resolveSuperclass target)
        return some target) workspace
      (fun parent after => LooksUp registry reader (Scope.ofSuperclass id) workspace after ∧
        ∃ target, parent = some target ∧ ∀ later, after.heap.get? id = some later →
          later.superLink? = some (.resolved name target))
      (fun error after => LooksUp registry reader .ofNames workspace after ∧
        reader.Fails registry name error) := by
  have within := Scope.ofNames_within_superclass id
  refine (typeNode_yields coherent reader name).bind (fun target after h => ?_)
    fun error after h => ⟨h.1.widen (Scope.ofName_within name), h.2⟩
  obtain ⟨looks, named⟩ := h
  have wide := (looks.widen (Scope.ofName_within name)).widen within
  cases found' : after.heap.get? id with
  | none =>
    have unused : after.heap.modify id (·.resolveSuperclass target) = after.heap :=
      Heap.modify_of_get?_eq_none found'
    show LooksUp _ _ _ _ { after with heap := after.heap.modify id _ } ∧ _
    rw [unused]
    refine ⟨wide, target, rfl, fun later here => ?_⟩
    rw [found'] at here
    cases here
  | some between =>
    -- The look-up resolves no edge, so the edge is still pending when it has ended.
    obtain rfl := looks.unchanged (Heap.index_lt_of_get? found)
      (fun before here => Option.some.inj (here.symm.trans found)) (fun h => h) (fun h => h) found'
    refine ⟨wide.trans (.move (.resolveSuperclass rfl found' pending named)), target, rfl,
      fun later here => ?_⟩
    rw [Heap.get?_modify, if_pos rfl, found'] at here
    obtain rfl := Option.some.inj here
    rw [Node.superLink?_resolveSuperclass, pending]
    rfl

/-- The type at the end of an edge to a superclass, looked up if it was not known. -/
def followSuperLink (reader : Reader) (id : NodeId) :
    Option (Link String NodeId) → Query (Option NodeId)
  | none => return none
  | some (.resolved _ target) => return some target
  | some (.pending name) => do
    let target ← typeNode reader name
    modifyNode id (·.resolveSuperclass target)
    return some target

/-- **Following the edge to the superclass** leads to the declared name, and the edge is not pending
any more. -/
theorem followSuperLink_yields (coherent : workspace.Coherent registry) (reader : Reader)
    (anchored : workspace.Anchored id) (found : workspace.heap.get? id = some node) :
    (followSuperLink reader id node.superLink?).Yields workspace
      (fun parent after => LooksUp registry reader (Scope.ofSuperclass id) workspace after ∧
        Option.Rel after.Has parent (node.superLink?.map Link.names) ∧
        ∃ later, after.heap.get? id = some later ∧ ∀ name, later.superLink? ≠ some (.pending name))
      (fun error after => LooksUp registry reader (Scope.ofSuperclass id) workspace after ∧
        ∃ name, node.superLink?.map Link.names = some name ∧ reader.Fails registry name error) := by
  have still : LooksUp registry reader (Scope.ofSuperclass id) workspace workspace :=
    .refl workspace
  cases link : node.superLink? with
  | none => exact Yields.pure ⟨still, .none, node, found, fun name => by simp [link]⟩
  | some edge =>
    cases edge with
    | resolved name target =>
      have has := coherent.has_superclass anchored found link
      exact Yields.pure ⟨still, .some has, node, found, fun name => by simp [link]⟩
    | pending name =>
      refine (resolveSuperclass_yields coherent reader found link).imp
        (fun parent after h => ?_) fun error after h => ?_
      · obtain ⟨looks, target, rfl, resolves⟩ := h
        have persists := looks.persists coherent
        have anchored' := persists.anchored anchored
        obtain ⟨later, found', -⟩ := persists.get? anchored found
        have resolved := resolves later found'
        have has := (looks.coherent coherent).has_superclass anchored' found' resolved
        exact ⟨looks, .some has, later, found', fun name => by simp [resolved]⟩
      · exact ⟨h.1.widen (Scope.ofNames_within_superclass id), name, rfl, h.2⟩

/-- **The superclass of an anchored node** is given out under its declared name, and the edge to it
is not pending any more. -/
theorem superclass_yields (coherent : workspace.Coherent registry) (reader : Reader)
    (anchored : workspace.Anchored id) (found : workspace.heap.get? id = some node) :
    (superclass reader id).Yields workspace
      (fun parent after => LooksUp registry reader (Scope.ofSuperclass id) workspace after ∧
        Option.Rel after.Has parent node.outline.superName ∧
        ∃ later, after.heap.get? id = some later ∧ ∀ name, later.superLink? ≠ some (.pending name))
      (fun error after => LooksUp registry reader (Scope.ofSuperclass id) workspace after ∧
        ∃ name, node.outline.superName = some name ∧ reader.Fails registry name error) := by
  have still : LooksUp registry reader (Scope.ofSuperclass id) workspace workspace :=
    .refl workspace
  have followed := followSuperLink_yields coherent reader anchored found
  unfold superclass
  refine Yields.node_bind found ?_
  obtain ⟨name, kind⟩ := node
  cases kind with
  | root => exact Yields.pure ⟨still, .none, _, found, fun _ h => nomatch h⟩
  | primitive base => exact Yields.pure ⟨still, .none, _, found, fun _ h => nomatch h⟩
  | array element =>
    refine Yields.get_bind (Yields.pure ⟨still, ?_, _, found, fun _ h => nomatch h⟩)
    exact Option.Rel.some coherent.has_root
  | declared supertypes => exact followed
  | special supertypes => exact followed

/-- The interfaces of a node are being looked up: some are done, and their nodes are anchored.  The
node itself need not be in use any more, and if it is, it is as it was. -/
structure Gathering (registry : Registry) (id : NodeId) (node : Node) (done : List NodeId)
    (behind : List String) (workspace : Workspace) : Prop where
  coherent : workspace.Coherent registry
  used : id.index < workspace.heap.cells.size
  same : ∀ before, workspace.heap.get? id = some before → before = node
  has : List.Forall₂ workspace.Has done behind

/-- Before the first interface is looked up nothing has been gathered. -/
theorem Gathering.start (coherent : workspace.Coherent registry)
    (found : workspace.heap.get? id = some node) :
    Gathering registry id node [] [] workspace where
  coherent := coherent
  used := Heap.index_lt_of_get? found
  same := fun _ here => Option.some.inj (here.symm.trans found)
  has := .nil

/-- A further interface is held once it was looked up. -/
theorem Gathering.next {done : List NodeId} {behind : List String} {name : String}
    {target : NodeId} {after : Workspace}
    (gathering : Gathering registry id node done behind workspace)
    (looks : LooksUp registry reader (Scope.ofName name) workspace after)
    (named : after.heap.Names target name) :
    Gathering registry id node (done ++ [target]) (behind ++ [name]) (after.hold target) := by
  have persists := looks.persists gathering.coherent
  have ⟨alive, found, _⟩ := named
  refine ⟨(looks.coherent gathering.coherent).hold found,
    Nat.lt_of_lt_of_le gathering.used looks.size_le, ?_, ?_⟩
  · exact fun later here =>
      looks.unchanged gathering.used gathering.same (fun h => h) (fun h => h) here
  · have before : List.Forall₂ (after.hold target).Has done behind :=
      gathering.has.imp fun _ _ h => ⟨(h.persists persists).1, (h.persists persists).2.hold⟩
    exact List.rel_append before (.cons ⟨named, anchored_hold⟩ .nil)

/-- Looking up pending interfaces holds each of them until the edges to all of them are resolved.
`done` are those that were looked up before. -/
theorem resolveInterfaces_yields (reader : Reader) (ahead : List String) {names : List String}
    (pending : node.interfaceLink? = some (.pending names)) {done : List NodeId}
    {behind : List String} (split : names = behind ++ ahead)
    (gathering : Gathering registry id node done behind workspace) :
    (holdingTypes reader ahead fun targets => do
        modifyNode id (·.resolveInterfaces (done ++ targets))
        return done ++ targets).Yields workspace
      (fun targets after => LooksUp registry reader (Scope.ofInterfaces id) workspace after ∧
        ∀ later, after.heap.get? id = some later →
          later.interfaceLink? = some (.resolved names targets))
      (fun error after => LooksUp registry reader .ofNames workspace after ∧
        ∃ name ∈ ahead, reader.Fails registry name error) := by
  induction ahead generalizing done behind workspace with
  | nil =>
    rw [List.append_nil] at split
    subst split
    cases found : workspace.heap.get? id with
    | none =>
      have unused : workspace.heap.modify id (·.resolveInterfaces (done ++ [])) = workspace.heap :=
        Heap.modify_of_get?_eq_none found
      show LooksUp _ _ _ _ { workspace with heap := workspace.heap.modify id _ } ∧ _
      rw [unused]
      refine ⟨.refl workspace, fun later here => ?_⟩
      rw [found] at here
      cases here
    | some before =>
      obtain rfl := gathering.same before found
      have named : List.Forall₂ workspace.heap.Names (done ++ []) names :=
        (List.append_nil done).symm ▸ gathering.has.imp fun _ _ h => h.1
      refine ⟨.move (.resolveInterfaces rfl found pending named), fun later here => ?_⟩
      rw [Heap.get?_modify, if_pos rfl, found] at here
      obtain rfl := Option.some.inj here
      rw [Node.interfaceLink?_resolveInterfaces, pending]
      rfl
  | cons name ahead ih =>
    have within := Scope.ofNames_within_interfaces id
    refine (typeNode_yields gathering.coherent reader name).bind (fun target after h => ?_)
      fun error after h => ⟨h.1.widen (Scope.ofName_within name), name, List.mem_cons_self, h.2⟩
    obtain ⟨looks, named⟩ := h
    have wide := looks.widen (Scope.ofName_within name)
    have rest := ih (by rw [split, List.append_assoc]; rfl) (gathering.next looks named)
    obtain ⟨node', alive, -⟩ := named
    simp only [List.append_assoc, List.singleton_append] at rest
    refine Yields.holding (rest.imp (fun targets last h => ?_) fun error last h => ?_)
    · obtain ⟨inner, resolves⟩ := h
      exact ⟨(wide.widen within).trans (.holding alive inner), fun later here =>
        resolves later (Heap.get?_of_get?_reclaim here)⟩
    · obtain ⟨inner, missing, member, fails⟩ := h
      exact ⟨wide.trans (.holding alive inner), missing, List.mem_cons_of_mem _ member, fails⟩

/-- The types at the end of the edges to interfaces, looked up if they were not known. -/
def followInterfaceLink (reader : Reader) (id : NodeId) :
    Link (List String) (List NodeId) → Query (List NodeId)
  | .resolved _ targets => return targets
  | .pending names =>
    holdingTypes reader names fun targets => do
      modifyNode id (·.resolveInterfaces targets)
      return targets

/-- To follow the edges to the interfaces of a node resolves them all, or none of them and fails. -/
theorem followInterfaceLink_yields (coherent : workspace.Coherent registry) (reader : Reader)
    (anchored : workspace.Anchored id) (found : workspace.heap.get? id = some node)
    {edges : Link (List String) (List NodeId)} (link : node.interfaceLink? = some edges) :
    (followInterfaceLink reader id edges).Yields workspace
      (fun targets after => LooksUp registry reader (Scope.ofInterfaces id) workspace after ∧
        List.Forall₂ after.Has targets edges.names)
      (fun error after => LooksUp registry reader (Scope.ofInterfaces id) workspace after ∧
        ∃ name ∈ edges.names, reader.Fails registry name error) := by
  cases edges with
  | resolved names targets =>
    exact Yields.pure ⟨.refl workspace, coherent.has_interfaces anchored found link⟩
  | pending names =>
    have resolves := resolveInterfaces_yields reader names link rfl (.start coherent found)
    refine resolves.imp (fun targets after h => ?_)
      fun error after h => ⟨h.1.widen (Scope.ofNames_within_interfaces id), h.2⟩
    obtain ⟨looks, resolved⟩ := h
    have persists := looks.persists coherent
    have anchored' := persists.anchored anchored
    obtain ⟨later, found', -⟩ := persists.get? anchored found
    exact ⟨looks, (looks.coherent coherent).has_interfaces anchored' found' (resolved later found')⟩

/-- **The interfaces of an anchored node** are given out under their declared names. -/
theorem interfaces_yields (coherent : workspace.Coherent registry) (reader : Reader)
    (anchored : workspace.Anchored id) (found : workspace.heap.get? id = some node) :
    (interfaces reader id).Yields workspace
      (fun targets after => LooksUp registry reader (Scope.ofInterfaces id) workspace after ∧
        List.Forall₂ after.Has targets node.outline.interfaceNames)
      (fun error after => LooksUp registry reader (Scope.ofInterfaces id) workspace after ∧
        ∃ name ∈ node.outline.interfaceNames, reader.Fails registry name error) := by
  have still : LooksUp registry reader (Scope.ofInterfaces id) workspace workspace :=
    .refl workspace
  have followed {edges : Link (List String) (List NodeId)}
      (link : node.interfaceLink? = some edges) :=
    followInterfaceLink_yields coherent reader anchored found link
  unfold interfaces
  refine Yields.node_bind found ?_
  obtain ⟨name, kind⟩ := node
  cases kind with
  | root => exact Yields.pure ⟨still, .nil⟩
  | primitive base => exact Yields.pure ⟨still, .nil⟩
  | array element => exact Yields.pure ⟨still, .nil⟩
  | declared supertypes => exact followed rfl
  | special supertypes => exact followed rfl

/-! ## Nodes that are not anchored

The edges of a node that nothing anchors can be followed too; it may then be freed on the way.  A
failure resolves no edge. -/

/-- To ask for a superclass looks up names and resolves the edge at most. -/
theorem superclass_looksUp (coherent : workspace.Coherent registry) (reader : Reader)
    (id : NodeId) :
    (superclass reader id).Yields workspace
      (fun _ after => LooksUp registry reader (Scope.ofSuperclass id) workspace after)
      (fun _ after => LooksUp registry reader .ofNames workspace after) := by
  have still : LooksUp registry reader (Scope.ofSuperclass id) workspace workspace :=
    .refl workspace
  unfold superclass
  cases found : workspace.heap.get? id with
  | none => exact Yields.node_bind_of_unused found (Yields.pure still)
  | some node =>
    have followed : (followSuperLink reader id node.superLink?).Yields workspace
        (fun _ after => LooksUp registry reader (Scope.ofSuperclass id) workspace after)
        (fun _ after => LooksUp registry reader .ofNames workspace after) := by
      cases link : node.superLink? with
      | none => exact Yields.pure still
      | some edge =>
        cases edge with
        | resolved name target => exact Yields.pure still
        | pending name =>
          exact (resolveSuperclass_yields coherent reader found link).imp (fun _ _ h => h.1)
            fun _ _ h => h.1
    refine Yields.node_bind found ?_
    obtain ⟨name, kind⟩ := node
    cases kind with
    | declared supertypes => exact followed
    | special supertypes => exact followed
    | _ => exact still

/-- To ask for interfaces looks up names and resolves the edges at most. -/
theorem interfaces_looksUp (coherent : workspace.Coherent registry) (reader : Reader)
    (id : NodeId) :
    (interfaces reader id).Yields workspace
      (fun _ after => LooksUp registry reader (Scope.ofInterfaces id) workspace after)
      (fun _ after => LooksUp registry reader .ofNames workspace after) := by
  have still : LooksUp registry reader (Scope.ofInterfaces id) workspace workspace :=
    .refl workspace
  unfold interfaces
  cases found : workspace.heap.get? id with
  | none => exact Yields.node_bind_of_unused found (Yields.pure still)
  | some node =>
    have followed {edges : Link (List String) (List NodeId)}
        (link : node.interfaceLink? = some edges) :
        (followInterfaceLink reader id edges).Yields workspace
          (fun _ after => LooksUp registry reader (Scope.ofInterfaces id) workspace after)
          (fun _ after => LooksUp registry reader .ofNames workspace after) := by
      cases edges with
      | resolved names targets => exact Yields.pure still
      | pending names =>
        have resolves := resolveInterfaces_yields reader names link rfl (.start coherent found)
        exact resolves.imp (fun _ _ h => h.1) fun _ _ h => h.1
    refine Yields.node_bind found ?_
    obtain ⟨name, kind⟩ := node
    cases kind with
    | declared supertypes => exact followed rfl
    | special supertypes => exact followed rfl
    | _ => exact still

/-! ## The edges of a class or interface -/

/-- What the superclass of a class or interface yields is what following its edge yields. -/
theorem Yields.superclass {ok : Option NodeId → Workspace → Prop}
    {failed : HierarchyError → Workspace → Prop} {supertypes : Supertypes}
    (found : workspace.heap.get? id = some node) (declares : node.supertypes? = some supertypes)
    (h : (followSuperLink reader id supertypes.superclass).Yields workspace ok failed) :
    (superclass reader id).Yields workspace ok failed := by
  unfold Query.superclass
  refine Yields.node_bind found ?_
  obtain ⟨name, kind⟩ := node
  cases kind with
  | declared _ => exact Option.some.inj declares ▸ h
  | special _ => exact Option.some.inj declares ▸ h
  | _ => cases declares

/-- What the interfaces of a class or interface yield is what following its edges yields. -/
theorem Yields.interfaces {ok : List NodeId → Workspace → Prop}
    {failed : HierarchyError → Workspace → Prop} {supertypes : Supertypes}
    (found : workspace.heap.get? id = some node) (declares : node.supertypes? = some supertypes)
    (h : (followInterfaceLink reader id supertypes.interfaces).Yields workspace ok failed) :
    (interfaces reader id).Yields workspace ok failed := by
  unfold Query.interfaces
  refine Yields.node_bind found ?_
  obtain ⟨name, kind⟩ := node
  cases kind with
  | declared _ => exact Option.some.inj declares ▸ h
  | special _ => exact Option.some.inj declares ▸ h
  | _ => cases declares

/-- **Resolved edges to the interfaces are followed without a look-up**, and nothing changes. -/
theorem interfaces_of_resolved {supertypes : Supertypes} (reader : Reader)
    (found : workspace.heap.get? id = some node) (declares : node.supertypes? = some supertypes)
    (resolved : node.areInterfacesResolved = true) :
    ∃ targets, node.interfaceTargets? = some targets ∧
      interfaces reader id workspace = .ok targets workspace := by
  rw [Node.areInterfacesResolved, declares] at resolved
  obtain ⟨targets, leads⟩ := Option.isSome_iff_exists.1 resolved
  have followed : (interfaces reader id).Yields workspace
      (fun given after => given = targets ∧ after = workspace) fun _ _ => False := by
    refine Yields.interfaces found declares ?_
    cases link : supertypes.interfaces with
    | pending names =>
      rw [link] at leads
      cases leads
    | resolved names given =>
      rw [link] at leads
      exact Yields.pure ⟨Option.some.inj leads, rfl⟩
  obtain ⟨given, after, ran, rfl, rfl⟩ := followed.exists_ok
  refine ⟨given, ?_, ran⟩
  rw [Node.interfaceTargets?, Node.interfaceLink?, declares]
  exact leads

/-! ## The element of an array -/

/-- **The element of an array of references** is anchored by the array, and has the name that the
name of the array lays out. -/
theorem referenceElement_anchors (coherent : workspace.Coherent registry) {name : String}
    (has : workspace.Has id name) :
    (referenceElement id).Yields workspace
      (fun found after => after = workspace ∧ ∀ element, found = some element →
        ∃ inner, workspace.Has element inner ∧ registry.shape? name = none ∧
          layout name = .ok (some inner))
      fun _ _ => False := by
  obtain ⟨⟨this, found, rfl⟩, anchored⟩ := has
  unfold referenceElement
  refine Yields.node_bind found ?_
  cases isArray : this.element? with
  | none => exact Yields.pure ⟨rfl, nofun⟩
  | some element =>
    obtain ⟨inner, free, laid, named⟩ := coherent.names_element found isArray
    have refers : workspace.heap.Refers id element :=
      ⟨this, found, Node.mem_references_iff.2 (.inl isArray)⟩
    have ⟨node, foundElement, _⟩ := named
    refine Yields.node_bind foundElement ?_
    split
    · exact Yields.pure ⟨rfl, nofun⟩
    · refine Yields.pure ⟨rfl, fun other same => ?_⟩
      obtain rfl := Option.some.inj same
      exact ⟨inner, ⟨named, anchored.tail refers⟩, free, laid⟩

end Query

end ClassLattice
