import ClassLattice.Proofs.Query.Conduct
import ClassLattice.Proofs.Query.Flatten
import ClassLattice.Proofs.Workspace.Ownership

/-!
# Queries own what they read

A walk from an anchored node owns all that it reads: what is read for an edge becomes reachable from
the node of the edge, and until then from the list of nodes that is held while the edge is resolved.
So no walk asks for a name twice, and finding what two types have in common, which holds the nodes
of both while it walks, does not either.
-/

set_option autoImplicit false

namespace ClassLattice.Query

open Workspace

variable {α β : Type} {registry : Registry} {reader : Reader} {workspace : Workspace}
  {id : NodeId} {node : Node} {name : String} {query : Query α} {next : α → Query β}

/-! ## Looking up names -/

/-- To look among the nodes that there are reads nothing. -/
theorem asked_cached {after : Workspace} {found : Option NodeId}
    (ran : workspace.cached name = (found, after)) : after.reads = workspace.reads := by
  have reads : (workspace.cached name).2.reads = workspace.reads := by
    unfold Workspace.cached
    split
    · rfl
    · split
      · split <;> rfl
      · rfl
  rwa [ran] at reads

/-- Inserting a node asks the reader for nothing. -/
theorem Yields.insert_reads {ok : NodeId → Workspace → Prop}
    {failed : HierarchyError → Workspace → Prop}
    (h : ∀ id after, after.reads = workspace.reads → ok id after) :
    (Query.insert node).Yields workspace ok failed := by
  have reads : (workspace.insert node).2.reads = workspace.reads := by
    unfold Workspace.insert Workspace.noteClash
    split <;> (dsimp only; split <;> rfl)
  exact h _ _ reads

/-- Looking up a name asks for at most one name, that of a class or interface that it goes on to. -/
theorem typeNode_asks (coherent : workspace.Coherent registry) (reader : Reader) (name : String) :
    (typeNode reader name).Yields workspace
      (fun _ after => AsksInto registry [name] workspace after)
      (fun _ after => Once workspace after) := by
  induction same : layers name using Nat.strongRecOn generalizing name with
  | _ depth ih =>
    refine Yields.typeNode coherent (fun id after hit => asksInto_of_reads (asked_cached hit))
      fun _ free unused => ?_
    cases laid : layout name with
    | error reason => exact Yields.throw ⟨[], asked_nil rfl, List.nodup_nil⟩
    | ok inner =>
      cases inner with
      | none =>
        have reads {after : Workspace} (same : after.reads = workspace.reads.push name) :
            Asked workspace after [name] := by
          rw [Asked, same, Array.toList_push]
        refine Yields.readMetadata_bind unused (fun metadata _ => ?_)
          fun error _ => ⟨[name], reads rfl, List.nodup_cons.2 ⟨List.not_mem_nil, List.nodup_nil⟩⟩
        refine Yields.insert_reads fun id after same => ?_
        refine ⟨[name], reads same, List.nodup_cons.2 ⟨List.not_mem_nil, List.nodup_nil⟩, ?_⟩
        exact fun inner member => ⟨inner, member, .self inner⟩
      | some inner =>
        have deeper := layers_of_layout laid
        refine (ih (layers inner) (by omega) inner rfl).bind (fun element after asks => ?_)
          fun _ _ once => once
        obtain ⟨asked, reads, nodup, below⟩ := asks
        refine Yields.insert_reads fun id last same => ?_
        refine ⟨asked, reads.of_reads same, nodup, fun core member => ?_⟩
        obtain ⟨_, listed, into⟩ := below core member
        refine ⟨name, List.mem_singleton_self name, .element free laid ?_⟩
        exact List.mem_singleton.1 listed ▸ into

/-! ## Following edges -/

/-- **A superclass is asked for by its name at most**, and once. -/
theorem superclass_asks (coherent : workspace.Coherent registry) (reader : Reader)
    (found : workspace.heap.get? id = some node) :
    (superclass reader id).Yields workspace
      (fun _ after => AsksInto registry node.outline.superName.toList workspace after)
      (fun _ after => Once workspace after) := by
  have still {names : List String} : AsksInto registry names workspace workspace :=
    asksInto_of_reads rfl
  have followed : (followSuperLink reader id node.superLink?).Yields workspace
      (fun _ after => AsksInto registry (node.superLink?.map Link.names).toList workspace after)
      (fun _ after => Once workspace after) := by
    cases link : node.superLink? with
    | none => exact Yields.pure still
    | some edge =>
      cases edge with
      | resolved name target => exact Yields.pure still
      | pending name =>
        exact (typeNode_asks coherent reader name).bind (fun target after asks => asks)
          fun _ _ once => once
  unfold superclass
  refine Yields.node_bind found ?_
  obtain ⟨name, kind⟩ := node
  cases kind with
  | root => exact Yields.pure still
  | primitive base => exact Yields.pure still
  | array element => exact Yields.get_bind (Yields.pure still)
  | declared supertypes => exact followed
  | special supertypes => exact followed

/-- While interfaces are looked up one after the other, those that were looked up are held, so that
none of them is asked for again. -/
theorem resolveInterfaces_asks (reader : Reader) (ahead : List String) {names : List String}
    (pending : node.interfaceLink? = some (.pending names)) {done : List NodeId}
    {behind : List String} (split : names = behind ++ ahead)
    (gathering : Gathering registry id node done behind workspace) :
    (holdingTypes reader ahead fun targets => do
        modifyNode id (·.resolveInterfaces (done ++ targets))
        return done ++ targets).Yields workspace
      (fun _ after => AsksInto registry ahead workspace after)
      (fun _ after => Once workspace after) := by
  induction ahead generalizing done behind workspace with
  | nil => exact asksInto_of_reads rfl
  | cons name ahead ih =>
    refine ((typeNode_yields gathering.coherent reader name).and
      (typeNode_asks gathering.coherent reader name)).bind (fun target after h => ?_)
      fun _ _ h => h.2
    obtain ⟨⟨looks, named⟩, asked, reads, nodup, below⟩ := h
    have into (inner : String) (member : inner ∈ asked) : registry.LooksInto name inner := by
      obtain ⟨_, listed, into⟩ := below inner member
      exact List.mem_singleton.1 listed ▸ into
    have split' : names = (behind ++ [name]) ++ ahead := by rw [split, List.append_assoc]; rfl
    have next := gathering.next looks named
    have rest := (resolveInterfaces_yields reader ahead pending split' next).and (ih split' next)
    simp only [List.append_assoc, List.singleton_append] at rest
    have held : (after.hold target).Has target name := ⟨named, anchored_hold⟩
    have owned (inner : String) (member : inner ∈ asked) :
        ∃ x, (after.hold target).Has x inner :=
      next.coherent.exists_has held (into inner member)
    refine Yields.holding (rest.imp (fun targets last h => ?_) fun error last h => ?_)
    · obtain ⟨⟨looks', -⟩, later, reads', nodup', into'⟩ := h
      refine ⟨asked ++ later, reads.trans reads',
        Owns.nodup_append looks'.proceeds next.coherent nodup owned reads' nodup', ?_⟩
      intro inner member
      rcases List.mem_append.1 member with before | here
      · exact ⟨name, List.mem_cons_self, into inner before⟩
      · obtain ⟨other, listed, into⟩ := into' inner here
        exact ⟨other, List.mem_cons_of_mem _ listed, into⟩
    · obtain ⟨⟨looks', -⟩, later, reads', nodup'⟩ := h
      exact ⟨asked ++ later, reads.trans reads',
        Owns.nodup_append looks'.proceeds next.coherent nodup owned reads' nodup'⟩

/-- **Interfaces are asked for by their names at most**, and once each. -/
theorem interfaces_asks (coherent : workspace.Coherent registry) (reader : Reader)
    (found : workspace.heap.get? id = some node) :
    (interfaces reader id).Yields workspace
      (fun _ after => AsksInto registry node.outline.interfaceNames workspace after)
      (fun _ after => Once workspace after) := by
  have still {names : List String} : AsksInto registry names workspace workspace :=
    asksInto_of_reads rfl
  have followed {edges : Link (List String) (List NodeId)}
      (link : node.interfaceLink? = some edges) :
      (followInterfaceLink reader id edges).Yields workspace
        (fun _ after => AsksInto registry edges.names workspace after)
        (fun _ after => Once workspace after) := by
    cases edges with
    | resolved names targets => exact Yields.pure still
    | pending names =>
      exact resolveInterfaces_asks reader names link rfl (.start coherent found)
  unfold interfaces
  refine Yields.node_bind found ?_
  obtain ⟨name, kind⟩ := node
  cases kind with
  | declared supertypes => exact followed rfl
  | special supertypes => exact followed rfl
  | _ => exact Yields.pure still

/-! ## Walks -/

/-- **A query owns what it reads**: it looks up names and follows edges, and in the end, unless it
fails, all that it asked for is the name of an anchored node.  Nothing is asked for twice.  `gives`
is what the answer is good for. -/
def Frugal (registry : Registry) (reader : Reader) (query : Query α) (workspace : Workspace)
    (gives : α → Workspace → Prop) : Prop :=
  query.Yields workspace
    (fun value after => LooksUp registry reader .everything workspace after ∧
      Owns workspace after ∧ gives value after)
    (fun _ after => LooksUp registry reader .everything workspace after ∧ Once workspace after)

namespace Frugal

variable {gives : α → Workspace → Prop} {gives' : β → Workspace → Prop}

/-- To give a value is frugal. -/
theorem pure {value : α} (h : gives value workspace) :
    Frugal registry reader (Pure.pure value : Query α) workspace gives :=
  Yields.pure ⟨.refl workspace, owns_of_reads rfl, h⟩

/-- To fail is frugal. -/
theorem throw {error : HierarchyError} :
    Frugal registry reader (MonadExcept.throw error : Query α) workspace gives :=
  Yields.throw ⟨.refl workspace, (owns_of_reads rfl).once⟩

/-- What follows owns what it reads, and what was read before stays owned. -/
theorem bind (coherent : workspace.Coherent registry)
    (first : Frugal registry reader query workspace gives)
    (rest : ∀ value mid, LooksUp registry reader .everything workspace mid →
      mid.Coherent registry → gives value mid → Frugal registry reader (next value) mid gives') :
    Frugal registry reader (query >>= next) workspace gives' := by
  refine Yields.bind first (fun value mid h => ?_) fun _ _ h => h
  obtain ⟨looks, owns, given⟩ := h
  have coherent' := looks.coherent coherent
  refine (rest value mid looks coherent' given).imp (fun value after h => ?_) fun error after h => ?_
  · exact ⟨looks.trans h.1, owns.trans h.1.proceeds coherent' h.2.1, h.2.2⟩
  · exact ⟨looks.trans h.1, owns.once_trans h.1.proceeds coherent' h.2⟩

/-- A function behind a frugal query keeps it frugal. -/
theorem map (h : Frugal registry reader query workspace fun _ _ => True) (change : α → β) :
    Frugal registry reader (change <$> query) workspace fun _ _ => True :=
  Yields.map h

/-- What follows a look at a node is frugal if it is so for the node as it is. -/
theorem node_bind {id : NodeId} {next : Node → Query α}
    (h : Frugal registry reader (next (workspace.heap.node id)) workspace gives) :
    Frugal registry reader (Query.node id >>= next) workspace gives := h

/-- What follows a look at the workspace is frugal if it is so for the workspace as it is. -/
theorem get_bind {next : Workspace → Query α}
    (h : Frugal registry reader (next workspace) workspace gives) :
    Frugal registry reader (MonadStateOf.get >>= next) workspace gives := h

/-- To take the name of a node is frugal. -/
theorem nameOf (id : NodeId) :
    Frugal registry reader (nameOf id) workspace fun _ _ => True :=
  node_bind (.pure trivial)

/-- To take the names of nodes is frugal. -/
theorem mapM_nameOf (coherent : workspace.Coherent registry) (ids : List NodeId) :
    Frugal registry reader (ids.mapM Query.nameOf) workspace fun _ _ => True := by
  induction ids generalizing workspace with
  | nil => exact .pure trivial
  | cons id rest ih =>
    rw [List.mapM_cons]
    refine (nameOf id).bind coherent fun name mid _ coherent' _ => ?_
    exact (ih coherent').bind coherent' fun _ _ _ _ _ => .pure trivial

/-- The superclass of an anchored node is anchored by it, and so is what was read for it. -/
theorem superclass (coherent : workspace.Coherent registry) (anchored : workspace.Anchored id) :
    Frugal registry reader (superclass reader id) workspace
      fun parent after => ∀ target, parent = some target → after.Anchored target := by
  obtain ⟨node, found⟩ := coherent.alive_of_anchored anchored
  have asks := superclass_asks coherent reader found
  have wide := Scope.within_everything (Scope.ofSuperclass id)
  refine ((superclass_yields coherent reader anchored found).and asks).imp ?_ ?_
  · rintro parent after ⟨⟨looks, related, -⟩, asks⟩
    have coherent' := looks.coherent coherent
    generalize node.outline.superName = declared at related asks
    cases related with
    | none => exact ⟨looks.widen wide, asks.owns coherent' (by simp), fun _ same => nomatch same⟩
    | @some parent name has =>
      refine ⟨looks.widen wide, asks.owns coherent' ?_, fun target same => ?_⟩
      · exact fun other member => ⟨parent, by simpa using List.mem_singleton.1 member ▸ has⟩
      · exact Option.some.inj same ▸ has.2
  · rintro error after ⟨⟨looks, -⟩, once⟩
    exact ⟨looks.widen wide, once⟩

/-- The interfaces of an anchored node are anchored by it, and so is what was read for them. -/
theorem interfaces (coherent : workspace.Coherent registry) (anchored : workspace.Anchored id) :
    Frugal registry reader (interfaces reader id) workspace
      fun targets after => ∀ target ∈ targets, after.Anchored target := by
  obtain ⟨node, found⟩ := coherent.alive_of_anchored anchored
  have asks := interfaces_asks coherent reader found
  have wide := Scope.within_everything (Scope.ofInterfaces id)
  refine ((interfaces_yields coherent reader anchored found).and asks).imp ?_ ?_
  · rintro targets after ⟨⟨looks, related⟩, asks⟩
    refine ⟨looks.widen wide, asks.owns (looks.coherent coherent) fun name member => ?_,
      fun target member => ?_⟩
    · obtain ⟨target, -, has⟩ := related.exists_left member
      exact ⟨target, has⟩
    · obtain ⟨name, -, has⟩ := related.exists_right member
      exact has.2
  · rintro error after ⟨⟨looks, -⟩, once⟩
    exact ⟨looks.widen wide, once⟩

/-- A walk owns what it reads, from wherever it starts as long as that is anchored. -/
abbrev Walks (registry : Registry) (reader : Reader) (walk : NodeId → Query α) : Prop :=
  ∀ id workspace, workspace.Coherent registry → workspace.Anchored id →
    Frugal registry reader (walk id) workspace fun _ _ => True

/-- **A search among targets is frugal if the walks from them are.** -/
theorem anyM {walk : NodeId → Query Bool} (walks : Walks registry reader walk)
    (coherent : workspace.Coherent registry) (targets : List NodeId)
    (anchored : ∀ target ∈ targets, workspace.Anchored target) :
    Frugal registry reader (targets.anyM walk) workspace fun _ _ => True := by
  induction targets generalizing workspace with
  | nil => exact .pure trivial
  | cons target rest ih =>
    rw [List.anyM_cons]
    refine (walks target workspace coherent (anchored target List.mem_cons_self)).bind coherent
      fun found mid looks coherent' _ => ?_
    cases found with
    | true => exact .pure trivial
    | false =>
      exact ih coherent' fun other member =>
        (looks.persists coherent).anchored (anchored other (List.mem_cons_of_mem _ member))

/-- A walk above an anchored class or interface. -/
theorem ascend {walk : NodeId → Query Bool} (walks : Walks registry reader walk)
    (coherent : workspace.Coherent registry) (anchored : workspace.Anchored id) (deep : Bool) :
    Frugal registry reader (ascend reader walk id deep) workspace fun _ _ => True := by
  unfold Query.ascend
  refine (superclass coherent anchored).bind coherent fun parent mid looks coherent' above => ?_
  have anchored' := (looks.persists coherent).anchored anchored
  have beside {mid : Workspace} (coherent : mid.Coherent registry) (anchored : mid.Anchored id) :
      Frugal registry reader (do
        if deep then (← Query.interfaces reader id).reverse.anyM walk else return false) mid
        fun _ _ => True := by
    split
    · refine (interfaces coherent anchored).bind coherent fun targets last _ coherent' above => ?_
      exact anyM walks coherent' _ fun target member => above target (List.mem_reverse.1 member)
    · exact .pure trivial
  cases parent with
  | none => exact beside coherent' anchored'
  | some parent =>
    refine (walks parent mid coherent' (above parent rfl)).bind coherent'
      fun found last looks' coherent'' _ => ?_
    cases found with
    | true => exact .pure trivial
    | false => exact beside coherent'' ((looks'.persists coherent').anchored anchored')

/-- **The subtype test owns what it reads.** -/
theorem reaches (depth : Nat) (path : List String) (base : NodeId) :
    Walks registry reader (reaches reader depth path · base) := by
  induction depth generalizing path base with
  | zero => exact fun id workspace coherent _ => (nameOf id).bind coherent fun _ _ _ _ _ => .throw
  | succ depth ih =>
    intro self workspace coherent anchored
    obtain ⟨this, found⟩ := coherent.alive_of_anchored anchored
    unfold Query.reaches
    refine node_bind (node_bind ?_)
    rw [Heap.node_of_get? found]
    generalize workspace.heap.node base = that
    split
    · exact .pure trivial
    have above : Frugal registry reader (if this.namesDirectly that then return true
        else if path.contains this.name then MonadExcept.throw (.cyclic this.name)
        else Query.ascend reader (Query.reaches reader depth (this.name :: path) · base) self
          that.isInterface) workspace fun _ _ => True := by
      split
      · exact .pure trivial
      split
      · exact .throw
      · exact ascend (ih (this.name :: path) base) coherent anchored _
    obtain ⟨name, kind⟩ := this
    cases kind with
    | root => exact .pure trivial
    | primitive => exact .pure trivial
    | array element =>
      obtain ⟨nameBase, kindBase⟩ := that
      cases kindBase with
      | array elementBase =>
        exact ih path elementBase element workspace coherent
          (anchored.tail ⟨_, found, List.mem_cons_self⟩)
      | _ => exact .pure trivial
    | declared supertypes => exact above
    | special supertypes => exact above

/-- **A sum over targets is frugal if the walks from them are.** -/
theorem foldlM {walk : NodeId → Ancestors → Query (Nat × Ancestors)}
    (walks : ∀ met, Walks registry reader (walk · met)) (coherent : workspace.Coherent registry)
    (targets : List NodeId) (anchored : ∀ target ∈ targets, workspace.Anchored target)
    (start : Nat × Ancestors) :
    Frugal registry reader (targets.foldlM (fun (strength, met) parent => do
      let (more, met) ← walk parent met
      return (addStrength strength more, met)) start) workspace fun _ _ => True := by
  induction targets generalizing workspace start with
  | nil => exact .pure trivial
  | cons target rest ih =>
    rw [List.foldlM_cons]
    have here := walks start.2 target workspace coherent (anchored target List.mem_cons_self)
    have step : Frugal registry reader (do
        let (more, met) ← walk target start.2
        return (addStrength start.1 more, met)) workspace fun _ _ => True :=
      here.bind coherent fun _ _ _ _ _ => .pure trivial
    refine step.bind coherent fun found mid looks coherent' _ => ?_
    exact ih coherent' (fun other member => (looks.persists coherent).anchored
      (anchored other (List.mem_cons_of_mem _ member))) found

/-- To collect what is beside a type is frugal. -/
theorem collectBeside {walk : NodeId → Ancestors → Query (Nat × Ancestors)}
    (walks : ∀ met, Walks registry reader (walk · met)) (coherent : workspace.Coherent registry)
    (anchored : workspace.Anchored id) (this : Node) (depth : Nat) (withChain : Ancestors) :
    Frugal registry reader (collectBeside reader walk id this depth withChain) workspace
      fun _ _ => True := by
  unfold Query.collectBeside
  refine (interfaces coherent anchored).bind coherent fun targets mid _ coherent' above => ?_
  have each (target) (member : target ∈ targets.reverse) := above target (List.mem_reverse.1 member)
  refine (foldlM walks coherent' _ each _).bind coherent' fun found last _ _ _ => ?_
  split
  split
  · exact .pure trivial
  · exact .pure trivial

/-- To collect what is above a type is frugal. -/
theorem collectAbove {chain beside : NodeId → Ancestors → Query (Nat × Ancestors)}
    (chains : ∀ met, Walks registry reader (chain · met))
    (besides : ∀ met, Walks registry reader (beside · met))
    (coherent : workspace.Coherent registry) (anchored : workspace.Anchored id) (this : Node)
    (depth : Nat) (withSelf : Ancestors) :
    Frugal registry reader (collectAbove reader chain beside id this depth withSelf) workspace
      fun _ _ => True := by
  unfold Query.collectAbove
  refine (superclass coherent anchored).bind coherent fun parent mid looks coherent' above => ?_
  have anchored' := (looks.persists coherent).anchored anchored
  cases parent with
  | none => exact collectBeside besides coherent' anchored' this depth withSelf
  | some parent =>
    refine (((chains withSelf parent mid coherent' (above parent rfl)).map Prod.snd).bind coherent'
      fun withChain last looks' coherent'' _ => ?_)
    exact collectBeside besides coherent'' ((looks'.persists coherent').anchored anchored') this
      depth withChain

/-- **The walk over all ancestors owns what it reads.** -/
theorem collect (limit : Nat) (path : List String) (onChain : Bool) (depth : Nat)
    (ancestors : Ancestors) :
    Walks registry reader (collect reader limit path onChain depth · ancestors) := by
  induction limit generalizing path onChain depth ancestors with
  | zero => exact fun id workspace coherent _ => (nameOf id).bind coherent fun _ _ _ _ _ => .throw
  | succ limit ih =>
    intro self workspace coherent anchored
    obtain ⟨this, found⟩ := coherent.alive_of_anchored anchored
    unfold Query.collect
    refine node_bind ?_
    rw [Heap.node_of_get? found]
    have above : Frugal registry reader (if path.contains this.name then
          MonadExcept.throw (.cyclic this.name)
        else Query.collectAbove reader
          (Query.collect reader limit (this.name :: path) onChain (depth + 1))
          (Query.collect reader limit (this.name :: path) false (depth + 1)) self this depth
          (if onChain && !this.isInterface then ancestors.addClass self else ancestors)) workspace
        fun _ _ => True := by
      split
      · exact .throw
      · exact collectAbove (ih _ _ _) (ih _ _ _) coherent anchored this depth _
    obtain ⟨name, kind⟩ := this
    cases kind with
    | declared supertypes => exact above
    | special supertypes => exact above
    | _ => exact .pure trivial

/-- To flatten a type is frugal. -/
theorem flatten (limit : Nat) : Walks registry reader (flatten reader limit) := by
  intro id workspace coherent anchored
  have collected : Frugal registry reader (Query.collect reader limit [] true 0 id {}) workspace
      fun _ _ => True := collect limit [] true 0 {} id workspace coherent anchored
  have listed (root : NodeId) : Frugal registry reader (do
      let (_, ancestors) ← Query.collect reader limit [] true 0 id {}
      return ancestors.toList ++ [root]) workspace fun _ _ => True :=
    collected.bind coherent fun _ _ _ _ _ => .pure trivial
  unfold Query.flatten
  refine get_bind (node_bind ?_)
  split
  · exact .pure trivial
  · exact .pure trivial
  · exact .pure trivial
  · exact listed _
  · exact listed _

/-- The search for a shared ancestor is frugal. -/
theorem sharedAncestor (limit : Nat) (coherent : workspace.Coherent registry) {a b : NodeId}
    (anchored : workspace.Anchored a) (anchored' : workspace.Anchored b) :
    Frugal registry reader (sharedAncestor reader limit a b) workspace fun _ _ => True := by
  refine (flatten limit a workspace coherent anchored).bind coherent
    fun ids mid looks coherent₁ _ => ?_
  refine (mapM_nameOf coherent₁ ids).bind coherent₁ fun above mid' looks' coherent₂ _ => ?_
  have still := (looks'.persists coherent₁).anchored ((looks.persists coherent).anchored anchored')
  refine (flatten limit b mid' coherent₂ still).bind coherent₂ fun ids last _ coherent₃ _ => ?_
  exact (mapM_nameOf coherent₃ ids).bind coherent₃ fun _ _ _ _ _ => .pure trivial

/-- To take the element of an array is frugal. -/
theorem referenceElement (id : NodeId) :
    Frugal registry reader (referenceElement id) workspace fun _ _ => True := by
  unfold Query.referenceElement
  refine node_bind ?_
  split
  · exact .pure trivial
  · refine node_bind ?_
    split
    · exact .pure trivial
    · exact .pure trivial

end Frugal

/-! ## What two types have in common -/

/-- A query asks for nothing twice.  What it read may be gone when it has ended. -/
def Spares (registry : Registry) (reader : Reader) (query : Query α) (workspace : Workspace) :
    Prop :=
  query.Yields workspace
    (fun _ after => Proceeds registry reader workspace after ∧ Once workspace after)
    (fun _ after => Proceeds registry reader workspace after ∧ Once workspace after)

/-- What is frugal spares readings. -/
theorem Frugal.spares {gives : α → Workspace → Prop}
    (h : Frugal registry reader query workspace gives) :
    Spares registry reader query workspace :=
  Yields.imp h (fun _ _ h => ⟨h.1.proceeds, h.2.1.once⟩) fun _ _ h => ⟨h.1.proceeds, h.2⟩

/-- A part that owns what it reads may be followed by one that does not. -/
theorem Frugal.bind_spares {gives : α → Workspace → Prop} (coherent : workspace.Coherent registry)
    (first : Frugal registry reader query workspace gives)
    (rest : ∀ value mid, LooksUp registry reader .everything workspace mid →
      mid.Coherent registry → Spares registry reader (next value) mid) :
    Spares registry reader (query >>= next) workspace := by
  refine Yields.bind first (fun value mid h => ?_) fun _ _ h => ⟨h.1.proceeds, h.2⟩
  obtain ⟨looks, owns, -⟩ := h
  have coherent' := looks.coherent coherent
  have onwards {after} (h : Proceeds registry reader mid after ∧ Once mid after) :
      Proceeds registry reader workspace after ∧ Once workspace after :=
    ⟨looks.proceeds.trans h.1, owns.once_trans h.1 coherent' h.2⟩
  exact (rest value mid looks coherent').imp (fun _ _ => onwards) fun _ _ => onwards

namespace Spares

/-- A function behind a sparing query keeps it sparing. -/
theorem map_bind {change : α → β} (h : Spares registry reader query workspace) :
    Spares registry reader (query >>= fun value => pure (change value)) workspace :=
  Yields.bind h (fun _ _ h => Yields.pure h) fun _ _ h => h

/-- To keep the answer of a sparing query is sparing. -/
theorem keep {query : Query String} (h : Spares registry reader query workspace)
    (first second : String) :
    Spares registry reader (query >>= keepAnswer first second) workspace := by
  refine Yields.bind h (fun answer after h => ?_) fun _ _ h => h
  exact ⟨h.1.trans (.move (.keep after first second answer)), h.2⟩

/-- **What is read for a name is owned by its node once that is held.** -/
theorem holding {next : NodeId → Query α} (coherent : workspace.Coherent registry) (name : String)
    (rest : ∀ id mid, LooksUp registry reader .everything workspace mid →
      (mid.hold id).Coherent registry → Spares registry reader (next id) (mid.hold id)) :
    Spares registry reader (typeNode reader name >>= fun id => Query.holding id (next id))
      workspace := by
  have everything := Scope.within_everything (Scope.ofName name)
  refine ((typeNode_yields coherent reader name).and (typeNode_asks coherent reader name)).bind
    (fun id mid h => ?_) fun _ _ h => ⟨(h.1.1.widen everything).proceeds, h.2⟩
  obtain ⟨⟨looks, named⟩, asks⟩ := h
  have ⟨node, found, _⟩ := named
  have wide := looks.widen everything
  have held := (looks.coherent coherent).hold found
  have into : AsksInto registry [name] workspace (mid.hold id) := asks
  have owns : Owns workspace (mid.hold id) := by
    refine into.owns held fun other member => ⟨id, ?_⟩
    exact List.mem_singleton.1 member ▸ ⟨named, anchored_hold⟩
  have onwards {after}
      (h : Proceeds registry reader (mid.hold id) after ∧ Once (mid.hold id) after) :
      Proceeds registry reader workspace (after.letGo id) ∧ Once workspace (after.letGo id) := by
    have once : Once workspace after := owns.once_trans h.1 held h.2
    exact ⟨wide.proceeds.trans (.holding found h.1), once⟩
  exact Yields.holding ((rest id mid wide held).imp (fun _ _ => onwards) fun _ _ => onwards)

/-- **Two nodes meet sparingly** if their elements do. -/
theorem meet {limit : Nat} {ofElements : String → String → Query String} {a b : NodeId}
    (coherent : workspace.Coherent registry) (anchored : workspace.Anchored a)
    (anchored' : workspace.Anchored b)
    (elements : ∀ x y mid, mid.Coherent registry → Spares registry reader (ofElements x y) mid) :
    Spares registry reader (meet reader limit ofElements a b) workspace := by
  unfold Query.meet
  refine (Frugal.reaches limit [] b a workspace coherent anchored).bind_spares coherent
    fun up first looks coherent₁ => ?_
  have keeps := looks.persists coherent
  split
  · exact (Frugal.nameOf b).spares
  refine (Frugal.reaches limit [] a b first coherent₁ (keeps.anchored anchored')).bind_spares
    coherent₁ fun down second looks' coherent₂ => ?_
  have keeps' := keeps.trans (looks'.persists coherent₁)
  split
  · exact (Frugal.nameOf a).spares
  refine (Frugal.referenceElement a).bind_spares coherent₂ fun x third looks'' coherent₃ => ?_
  have keeps'' := keeps'.trans (looks''.persists coherent₂)
  refine (Frugal.referenceElement b).bind_spares coherent₃ fun y fourth looks₃ coherent₄ => ?_
  have keeps₃ := keeps''.trans (looks₃.persists coherent₃)
  split
  · rename_i x y
    refine (Frugal.nameOf x).bind_spares coherent₄ fun nameX fifth _ coherent₅ => ?_
    refine (Frugal.nameOf y).bind_spares coherent₅ fun nameY last _ coherent₆ => ?_
    exact (elements nameX nameY last coherent₆).map_bind
  · exact (Frugal.sharedAncestor limit coherent₄ (keeps₃.anchored anchored)
      (keeps₃.anchored anchored')).spares

/-- **Finding what two types have in common asks for nothing twice.** -/
theorem common (coherent : workspace.Coherent registry) (limit layers : Nat)
    (first second : String) :
    Spares registry reader (common reader limit layers first second) workspace := by
  induction layers generalizing first second workspace with
  | zero =>
    have stops : Frugal registry reader (MonadExcept.throw (.tooDeep first) : Query String)
        workspace fun _ _ => True := .throw
    exact stops.spares
  | succ layers ih =>
    unfold Query.common
    have known : Frugal registry reader (knownAnswer first second) workspace fun _ _ => True :=
      Frugal.get_bind (.pure trivial)
    refine known.bind_spares coherent fun answer mid _ coherent' => ?_
    cases answer with
    | some answer =>
      have given : Frugal registry reader (Pure.pure answer) mid fun _ _ => True := .pure trivial
      exact given.spares
    | none =>
      refine holding coherent' first fun a held _ coherent₁ => ?_
      refine holding coherent₁ second fun b last looks coherent₂ => ?_
      have anchored : last.Anchored a := (looks.persists coherent₁).anchored anchored_hold
      refine keep (meet coherent₂ anchored.hold anchored_hold fun x y mid coherent₃ => ?_) first
        second
      exact ih coherent₃ x y

end Spares

/-- **No question about two types asks the reader for a name twice**, whether it is answered or
fails. -/
theorem commonSuperclass_once (coherent : workspace.Coherent registry) (first second : String) :
    (commonSuperclass reader first second).Yields workspace (fun _ after => Once workspace after)
      fun _ after => Once workspace after := by
  have spares (limit : Nat) :
      Spares registry reader (common reader limit limit first second) workspace :=
    Spares.common coherent limit limit first second
  exact Yields.get_bind (Yields.imp (spares _) (fun _ _ h => h.2) fun _ _ h => h.2)

end ClassLattice.Query
