import ClassLattice.Proofs.Query.Conduct
import ClassLattice.Proofs.Query.Flatten
import ClassLattice.Proofs.Workspace.Pool

/-!
# Walks that end by themselves

Where no walk on names can go as deep as a limit, no query fails for want of depth, and a higher
limit makes no difference to it.  The universe that the walk on names is in holds whatever the nodes
and the reader say about supertypes, so nothing is assumed about what is said: the supertypes of a
name may change when its node is freed and made again in the middle of a walk.

The subtype test is compared with one that has an eye on the nodes whose supertypes it is in the
middle of searching.  As none of them has the name of another, there is no difference either.
-/

set_option autoImplicit false

namespace ClassLattice.Query

open Workspace

variable {α β : Type} {world : Universe} {reader : Reader} {workspace : Workspace}
  {query other : Query α} {next next' : α → Query β} {path : List String} {frames : List NodeId}
  {id self base : NodeId} {x : String} {this : Node} {depth more limit : Nat}

/-! ## Queries that do the same -/

/-- A query does not fail for want of depth, and another does just what it does. -/
structure Halts (query other : Query α) (workspace : Workspace) : Prop where
  same : other workspace = query workspace
  measured : ∀ name after, query workspace ≠ .error (.tooDeep name) after

namespace Halts

/-- A query halts if none of its failures is for want of depth. -/
theorem of_yields {ok : α → Workspace → Prop} {failed : HierarchyError → Workspace → Prop}
    (h : query.Yields workspace ok failed)
    (measured : ∀ error after, failed error after → ∀ name, error ≠ .tooDeep name) :
    Halts query query workspace :=
  ⟨rfl, fun name after ran => measured _ after (h.of_error ran) name rfl⟩

/-- To give a value halts. -/
theorem pure (value : α) : Halts (Pure.pure value) (Pure.pure value) workspace := ⟨rfl, nofun⟩

/-- To fail for another reason than depth halts. -/
theorem throw {error : HierarchyError} (h : ∀ name, error ≠ .tooDeep name) :
    Halts (MonadExcept.throw error : Query α) (MonadExcept.throw error) workspace := by
  refine ⟨rfl, fun name after ran => h name ?_⟩
  exact (EStateM.Result.error.inj ran).1

/-- To fail at a cycle halts. -/
theorem cyclic (name : String) :
    Halts (MonadExcept.throw (.cyclic name) : Query α) (MonadExcept.throw (.cyclic name))
      workspace :=
  .throw fun _ same => HierarchyError.noConfusion same

/-- To keep an answer halts. -/
theorem keepAnswer (first second answer : String) :
    Halts (keepAnswer first second answer) (keepAnswer first second answer) workspace :=
  ⟨rfl, nofun⟩

/-- Two queries that do what a third does do the same. -/
theorem meet {third : Query α} (h : Halts query third workspace)
    (h' : Halts other third workspace) : Halts query other workspace :=
  ⟨h'.same.symm.trans h.same, h.measured⟩

/-- What follows is compared only for the answers that there are. -/
theorem bind (first : Halts query other workspace)
    (rest : ∀ value mid, query workspace = .ok value mid → Halts (next value) (next' value) mid) :
    Halts (query >>= next) (other >>= next') workspace := by
  cases ran : query workspace with
  | ok value mid =>
    have ran' : other workspace = .ok value mid := first.same.trans ran
    obtain ⟨same, measured⟩ := rest value mid ran
    constructor
    · rw [bind_of_ok ran, bind_of_ok ran', same]
    · rw [bind_of_ok ran]
      exact measured
  | error error mid =>
    have ran' : other workspace = .error error mid := first.same.trans ran
    constructor
    · rw [bind_of_error ran, bind_of_error ran']
    · intro name after failed
      obtain ⟨rfl, -⟩ := EStateM.Result.error.inj ((bind_of_error ran).symm.trans failed)
      exact first.measured name mid ran

/-- **A query halts if its first part does and the rest from wherever that leads.** -/
theorem bind_yields {ok : α → Workspace → Prop} {failed : HierarchyError → Workspace → Prop}
    (h : query.Yields workspace ok failed)
    (measured : ∀ error after, failed error after → ∀ name, error ≠ .tooDeep name)
    (rest : ∀ value mid, ok value mid → Halts (next value) (next' value) mid) :
    Halts (query >>= next) (query >>= next') workspace := by
  refine (of_yields h measured).bind fun value mid ran => rest value mid ?_
  unfold Yields at h
  rwa [ran] at h

/-- What follows an exploration finds what was pooled. -/
theorem bind_explores (explores : Explores reader query) (pooled : workspace.Pooled world reader)
    (first : Halts query other workspace)
    (rest : ∀ value mid, LooksUp world.registry reader .everything workspace mid →
      mid.Pooled world reader → Halts (next value) (next' value) mid) :
    Halts (query >>= next) (other >>= next') workspace := by
  refine first.bind fun value mid ran => ?_
  have looks := explores.yields pooled.coherent
  unfold Yields at looks
  rw [ran] at looks
  exact rest value mid looks (looks.pooled pooled)

/-- A function behind a query changes nothing in whether it halts. -/
theorem map (change : α → β) (h : Halts query other workspace) :
    Halts (change <$> query) (change <$> other) workspace := by
  rw [← bind_pure_comp, ← bind_pure_comp]
  exact h.bind fun value _ _ => .pure (change value)

/-- What follows a look at the workspace halts if it does so for the workspace as it is. -/
theorem get_bind {next next' : Workspace → Query α}
    (h : Halts (next workspace) (next' workspace) workspace) :
    Halts (MonadStateOf.get >>= next) (MonadStateOf.get >>= next') workspace := ⟨h.same, h.measured⟩

/-- What follows a change halts if it does so in the changed workspace. -/
theorem modify_bind {change : Workspace → Workspace} {next next' : Unit → Query α}
    (h : Halts (next ()) (next' ()) (change workspace)) :
    Halts ((MonadStateOf.modifyGet fun state => ((), change state)) >>= next)
      ((MonadStateOf.modifyGet fun state => ((), change state)) >>= next') workspace :=
  ⟨h.same, h.measured⟩

/-- What follows a look at a node halts if it does so for the node as it is. -/
theorem node_bind {next next' : Node → Query α}
    (h : Halts (next (workspace.heap.node id)) (next' (workspace.heap.node id)) workspace) :
    Halts (Query.node id >>= next) (Query.node id >>= next') workspace := ⟨h.same, h.measured⟩

/-- What follows a look at the name of a node halts if it does so for the name. -/
theorem nameOf_bind {next next' : String → Query α} (found : workspace.heap.get? id = some this)
    (h : Halts (next this.name) (next' this.name) workspace) :
    Halts (Query.nameOf id >>= next) (Query.nameOf id >>= next') workspace := by
  have ran : Query.nameOf id workspace = .ok this.name workspace := by
    rw [← Heap.node_of_get? found]
    rfl
  constructor
  · rw [bind_of_ok ran, bind_of_ok ran, h.same]
  · rw [bind_of_ok ran]
    exact h.measured

/-- To take the name of a node halts. -/
theorem nameOf (id : NodeId) : Halts (nameOf id) (nameOf id) workspace := node_bind (.pure _)

/-- To take the names of nodes halts. -/
theorem mapM_nameOf (ids : List NodeId) :
    Halts (ids.mapM Query.nameOf) (ids.mapM Query.nameOf) workspace := by
  induction ids generalizing workspace with
  | nil => exact .pure []
  | cons id rest ih =>
    rw [List.mapM_cons]
    exact (nameOf id).bind fun _ _ _ => ih.bind fun _ _ _ => .pure _

/-- A query halts with a node held if it does so in the workspace that holds it. -/
theorem holding (h : Halts query other (workspace.hold id)) :
    Halts (holding id query) (holding id other) workspace := by
  unfold Query.holding
  refine ⟨by simp only [h.same], fun name after failed => ?_⟩
  cases ran : query (workspace.hold id) with
  | ok value mid => simp [ran] at failed
  | error error mid =>
    simp only [ran] at failed
    obtain ⟨rfl, -⟩ := EStateM.Result.error.inj failed
    exact h.measured name mid ran

/-! ## Edges and names -/

/-- **Looking up a name** does not go too deep, and what follows may hold the node, beside what was
held before. -/
theorem typeNode_holding (measured : reader.Measured) (pooled : workspace.Pooled world reader)
    (name : String) {next next' : NodeId → Query α}
    (rest : ∀ id mid, mid.Pooled world reader →
      (∀ other y, workspace.Has other y → mid.Has other y) → mid.Has id name →
        Halts (next id) (next' id) mid) :
    Halts (typeNode reader name >>= fun id => Query.holding id (next id))
      (typeNode reader name >>= fun id => Query.holding id (next' id)) workspace := by
  refine bind_yields (typeNode_yields pooled.coherent reader name)
    (fun error after h => h.2.ne_tooDeep measured) fun id mid h => holding ?_
  obtain ⟨looks, node, found, named⟩ := h
  refine rest id (mid.hold id) ((looks.pooled pooled).hold found) (fun other y has => ?_)
    ⟨⟨node, found, named⟩, anchored_hold⟩
  have still := has.persists (looks.persists pooled.coherent)
  exact ⟨still.1, still.2.hold⟩

/-- The superclass of a class or interface is looked up, and leads on from it. -/
theorem superclass_bind (measured : reader.Measured) (pooled : workspace.Pooled world reader)
    {declaration : Declaration} (anchored : workspace.Anchored id)
    (found : workspace.heap.get? id = some this) (outline : this.outline = .declared declaration)
    {next next' : Option NodeId → Query α}
    (rest : ∀ parent mid, LooksUp world.registry reader .everything workspace mid →
      (∀ target, parent = some target → ∃ p, mid.Has target p ∧ world.Extends this.name p) →
        Halts (next parent) (next' parent) mid) :
    Halts (superclass reader id >>= next) (superclass reader id >>= next') workspace := by
  refine bind_yields (superclass_yields pooled.coherent reader anchored found)
    (fun error after h => ?_) fun parent mid h => ?_
  · obtain ⟨-, name, -, fails⟩ := h
    exact fails.ne_tooDeep measured
  · obtain ⟨looks, related, -⟩ := h
    refine rest parent mid (looks.widen (Scope.within_everything _)) fun target same => ?_
    subst same
    rw [outline] at related
    generalize superName : (Shape.declared declaration : Shape NodeId).superName = declared
      at related
    cases related with
    | @some _ p has =>
      have superName : declaration.superName = some p := superName
      refine ⟨p, has, pooled.declared id this declaration found outline p ?_⟩
      exact List.mem_append_left _ (by simp [superName])

/-- The interfaces of a node are looked up, and lead on from it. -/
theorem interfaces_bind (measured : reader.Measured) (pooled : workspace.Pooled world reader)
    (has : workspace.Has id x) {next next' : List NodeId → Query α}
    (rest : ∀ targets mid, LooksUp world.registry reader .everything workspace mid →
      (∀ target ∈ targets, ∃ p, mid.Has target p ∧ world.Extends x p) →
        Halts (next targets) (next' targets) mid) :
    Halts (interfaces reader id >>= next) (interfaces reader id >>= next') workspace := by
  obtain ⟨⟨node, found, rfl⟩, anchored⟩ := has
  refine bind_yields (interfaces_yields pooled.coherent reader anchored found)
    (fun error after h => ?_) fun targets mid h => ?_
  · obtain ⟨-, name, -, fails⟩ := h
    exact fails.ne_tooDeep measured
  · obtain ⟨looks, related⟩ := h
    refine rest targets mid (looks.widen (Scope.within_everything _)) fun target member => ?_
    obtain ⟨p, listed, has⟩ := related.exists_right member
    cases outline : node.outline with
    | declared declaration =>
      rw [outline] at listed
      exact ⟨p, has, pooled.declared id node declaration found outline p
        (List.mem_append_right _ listed)⟩
    | _ => simp [outline, Shape.interfaceNames] at listed

end Halts

/-! ## The subtype test -/

/-- The subtype test with an eye on the nodes whose supertypes it is in the middle of searching: it
reads their names, and if one of them occurs twice it does something else instead. -/
def watched (reader : Reader) (instead : Query Bool) :
    Nat → (path : List String) → (frames : List NodeId) → (self base : NodeId) → Query Bool
  | 0, _, _, self, _ => do throw (.tooDeep (← nameOf self))
  | depth + 1, path, frames, self, base => do
    let this ← node self
    let that ← node base
    if this.name == that.name then return true
    match this.kind with
    | .root | .primitive _ => return false
    | .array element =>
      match that.kind with
      | .root => return true
      | .array baseElement => watched reader instead depth path frames element baseElement
      | _ => return false
    | .declared _ | .special _ =>
      if this.namesDirectly that then return true
      if path.contains this.name then throw (.cyclic this.name)
      let names ← (self :: frames).mapM nameOf
      if names.Nodup then
        ascend reader (watched reader instead depth (this.name :: path) (self :: frames) · base)
          self that.isInterface
      else instead

/-- The types that a walk is in the middle of are those of anchored nodes. -/
structure Framed (world : Universe) (reader : Reader) (path : List String) (frames : List NodeId)
    (workspace : Workspace) : Prop where
  pooled : workspace.Pooled world reader
  has : List.Forall₂ workspace.Has frames path

/-- Frames that were entered stay entered when names are looked up. -/
theorem Framed.looksUp {scope : Scope} {old new : Workspace}
    (framed : Framed world reader path frames old)
    (looks : LooksUp world.registry reader scope old new) :
    Framed world reader path frames new :=
  ⟨looks.pooled framed.pooled,
    framed.has.imp fun _ _ has => has.persists (looks.persists framed.pooled.coherent)⟩

/-- A walk ends by itself from wherever no walk on names goes too deep. -/
abbrev WalkHalts (world : Universe) (reader : Reader) (depth : Nat) (path : List String)
    (frames : List NodeId) (walk other : NodeId → Query Bool) : Prop :=
  ∀ id x workspace, Framed world reader path frames workspace → workspace.Has id x →
    ¬ world.Deep depth path x → Halts (walk id) (other id) workspace

variable {walk walk' : NodeId → Query Bool}

/-- **A search among targets halts if the walk from each one does.** -/
theorem anyM_halts (explores : ∀ id, Explores reader (walk id))
    (walks : WalkHalts world reader depth path frames walk walk')
    (framed : Framed world reader path frames workspace) (targets : List NodeId)
    (each : ∀ target ∈ targets, ∃ p, workspace.Has target p ∧ ¬ world.Deep depth path p) :
    Halts (targets.anyM walk) (targets.anyM walk') workspace := by
  induction targets generalizing workspace with
  | nil => exact .pure false
  | cons target rest ih =>
    rw [List.anyM_cons, List.anyM_cons]
    obtain ⟨p, has, shallow⟩ := each target List.mem_cons_self
    refine (walks target p workspace framed has shallow).bind_explores (explores target)
      framed.pooled fun found mid looks _ => ?_
    cases found with
    | true => exact .pure true
    | false =>
      refine ih (framed.looksUp looks) fun target member => ?_
      obtain ⟨p, has, shallow⟩ := each target (List.mem_cons_of_mem _ member)
      exact ⟨p, has.persists (looks.persists framed.pooled.coherent), shallow⟩

/-- A walk above a class or interface ends by itself if the walks from its supertypes do. -/
theorem ascend_halts (measured : reader.Measured) (explores : ∀ id, Explores reader (walk id))
    (walks : WalkHalts world reader depth (this.name :: path) (self :: frames) walk walk')
    (framed : Framed world reader (this.name :: path) (self :: frames) workspace)
    {declaration : Declaration} (found : workspace.heap.get? self = some this)
    (outline : this.outline = .declared declaration) (new : this.name ∉ path)
    (shallow : ¬ world.Deep (depth + 1) path this.name) (deep : Bool) :
    Halts (ascend reader walk self deep) (ascend reader walk' self deep) workspace := by
  have below {p : String} (extended : world.Extends this.name p) :
      ¬ world.Deep depth (this.name :: path) p := fun further =>
    shallow (.above extended new further)
  have self_has {mid : Workspace}
      (framed : Framed world reader (this.name :: path) (self :: frames) mid) :
      mid.Has self this.name := (List.forall₂_cons.1 framed.has).1
  have beside {mid : Workspace}
      (framed : Framed world reader (this.name :: path) (self :: frames) mid) :
      Halts (do if deep then (← interfaces reader self).reverse.anyM walk else return false)
        (do if deep then (← interfaces reader self).reverse.anyM walk' else return false) mid := by
    split
    · refine .interfaces_bind measured framed.pooled (self_has framed)
        fun targets last looks above => ?_
      refine anyM_halts explores walks (framed.looksUp looks) _ fun target member => ?_
      obtain ⟨p, has, extended⟩ := above target (List.mem_reverse.1 member)
      exact ⟨p, has, below extended⟩
    · exact .pure false
  unfold ascend
  refine .superclass_bind measured framed.pooled (self_has framed).2 found outline
    fun parent mid looks above => ?_
  have framed' := framed.looksUp looks
  cases parent with
  | none => exact beside framed'
  | some parent =>
    obtain ⟨p, has, extended⟩ := above parent rfl
    refine (walks parent p mid framed' has (below extended)).bind_explores (explores parent)
      framed'.pooled fun found last looks' _ => ?_
    cases found with
    | true => exact .pure true
    | false => exact beside (framed'.looksUp looks')

/-- **The subtype test ends by itself** where no walk on names goes too deep, a higher limit makes
no difference, and no type occurs twice among those whose supertypes it is in the middle of
searching. -/
theorem reaches_halts (measured : reader.Measured) (instead : Query Bool) (le : depth ≤ more)
    (nodup : path.Nodup) (base : NodeId) :
    WalkHalts world reader depth path frames (reaches reader depth path · base)
      (watched reader instead more path frames · base) := by
  induction depth generalizing more path frames base with
  | zero => exact fun self x workspace _ _ shallow => absurd (.spent path x) shallow
  | succ depth ih =>
    obtain ⟨more, rfl⟩ : ∃ less, more = less + 1 := ⟨more - 1, by omega⟩
    have le := Nat.le_of_succ_le_succ le
    intro self x workspace framed has shallow
    obtain ⟨⟨this, found, rfl⟩, anchored⟩ := has
    unfold reaches watched
    refine .node_bind ?_
    refine .node_bind ?_
    rw [Heap.node_of_get? found]
    generalize workspace.heap.node base = that
    have above (declaration) (outline : this.outline = .declared declaration) :
        Halts (if this.namesDirectly that then return true
          else if path.contains this.name then throw (.cyclic this.name)
          else ascend reader (reaches reader depth (this.name :: path) · base) self
            that.isInterface)
          (if this.namesDirectly that then return true
          else if path.contains this.name then throw (.cyclic this.name)
          else do
            let names ← (self :: frames).mapM nameOf
            if names.Nodup then
              ascend reader
                (watched reader instead more (this.name :: path) (self :: frames) · base) self
                that.isInterface
            else instead) workspace := by
      split
      · exact .pure true
      split
      · exact .cyclic this.name
      rename_i new
      have new : this.name ∉ path := by simpa using new
      have nodup' : (this.name :: path).Nodup := List.nodup_cons.2 ⟨new, nodup⟩
      have framed' : Framed world reader (this.name :: path) (self :: frames) workspace :=
        ⟨framed.pooled, .cons ⟨⟨this, found, rfl⟩, anchored⟩ framed.has⟩
      have names : (self :: frames).mapM nameOf workspace = .ok (this.name :: path) workspace := by
        obtain ⟨_, _, ran, rfl, rfl⟩ := (mapM_nameOf_yields framed'.has).exists_ok
        exact ran
      have halts := ascend_halts measured (fun id => .reaches depth (this.name :: path) id base)
        (ih le nodup' base) framed' found outline new shallow that.isInterface
      refine ⟨?_, halts.measured⟩
      rw [← halts.same, bind_of_ok names, if_pos nodup']
    split
    · exact .pure true
    obtain ⟨name, kind⟩ := this
    cases kind with
    | root => exact .pure false
    | primitive => exact .pure false
    | array element =>
      obtain ⟨nameBase, kindBase⟩ := that
      cases kindBase with
      | array elementBase =>
        obtain ⟨inner, shape, named⟩ := framed.pooled.exists_element found rfl
        refine ih le nodup elementBase element inner workspace framed
          ⟨named, anchored.tail ⟨_, found, List.mem_cons_self⟩⟩ fun further => ?_
        exact shallow (.element shape further)
      | _ => exact .pure _
    | declared supertypes => exact above _ rfl
    | special supertypes => exact above _ rfl

/-- A higher limit makes no difference to the subtype test. -/
theorem isSubclassOf_halts (measured : reader.Measured) (pooled : workspace.Pooled world reader)
    (le : depth ≤ more) (has : workspace.Has self x) (shallow : ¬ world.Deep depth [] x)
    (base : NodeId) :
    Halts (isSubclassOf reader depth self base) (isSubclassOf reader more self base) workspace := by
  have framed : Framed world reader [] [] workspace := ⟨pooled, .nil⟩
  have halts {less more : Nat} (le : less ≤ more) (shallow : ¬ world.Deep less [] x) :=
    reaches_halts measured (pure true) le List.nodup_nil base self x workspace framed has shallow
  exact (halts le shallow).meet (halts (Nat.le_refl more) fun deep => shallow (deep.mono le))

/-! ## The list of ancestors -/

/-- A walk that gathers ends by itself from wherever no walk on names goes too deep. -/
abbrev CollectHalts (world : Universe) (reader : Reader) (limit : Nat) (path : List String)
    (walk other : NodeId → Ancestors → Query (Nat × Ancestors)) : Prop :=
  ∀ id x ancestors workspace, workspace.Pooled world reader → workspace.Has id x →
    ¬ world.Deep limit path x → Halts (walk id ancestors) (other id ancestors) workspace

variable {chain beside chain' beside' : NodeId → Ancestors → Query (Nat × Ancestors)}

/-- **A sum over targets halts if the walk from each one does.** -/
theorem foldlM_halts (explores : ∀ id ancestors, Explores reader (beside id ancestors))
    (walks : CollectHalts world reader limit path beside beside')
    (pooled : workspace.Pooled world reader) (targets : List NodeId)
    (each : ∀ target ∈ targets, ∃ p, workspace.Has target p ∧ ¬ world.Deep limit path p)
    (start : Nat × Ancestors) :
    Halts (targets.foldlM (fun (strength, met) parent => do
        let (more, met) ← beside parent met
        return (addStrength strength more, met)) start)
      (targets.foldlM (fun (strength, met) parent => do
        let (more, met) ← beside' parent met
        return (addStrength strength more, met)) start) workspace := by
  induction targets generalizing workspace start with
  | nil => exact .pure start
  | cons target rest ih =>
    rw [List.foldlM_cons, List.foldlM_cons]
    obtain ⟨p, has, shallow⟩ := each target List.mem_cons_self
    have step : Explores reader (do
        let (more, met) ← beside target start.2
        return (addStrength start.1 more, met)) :=
      (explores target start.2).bind fun found => .pure _
    refine Halts.bind_explores step pooled ?_ fun found mid looks pooled' => ?_
    · exact (walks target p start.2 workspace pooled has shallow).bind fun _ _ _ => .pure _
    · refine ih pooled' (fun target member => ?_) found
      obtain ⟨p, has, shallow⟩ := each target (List.mem_cons_of_mem _ member)
      exact ⟨p, has.persists (looks.persists pooled.coherent), shallow⟩

/-- To collect what is beside a type halts if the walks from its interfaces do. -/
theorem collectBeside_halts (measured : reader.Measured)
    (explores : ∀ id ancestors, Explores reader (beside id ancestors))
    (walks : CollectHalts world reader limit (x :: path) beside beside')
    (pooled : workspace.Pooled world reader) (has : workspace.Has self x) (new : x ∉ path)
    (shallow : ¬ world.Deep (limit + 1) path x) (this : Node) (depth : Nat)
    (withChain : Ancestors) :
    Halts (collectBeside reader beside self this depth withChain)
      (collectBeside reader beside' self this depth withChain) workspace := by
  unfold collectBeside
  refine .interfaces_bind measured pooled has fun targets mid looks above => ?_
  refine (foldlM_halts explores walks (looks.pooled pooled) _ (fun target member => ?_) _).bind
    fun found _ _ => ?_
  · obtain ⟨p, has, extended⟩ := above target (List.mem_reverse.1 member)
    exact ⟨p, has, fun further => shallow (.above extended new further)⟩
  · split
    split
    · exact .pure _
    · exact .pure _

/-- To collect what is above a type halts if the walks from its supertypes do. -/
theorem collectAbove_halts (measured : reader.Measured)
    (explores : ∀ id ancestors, Explores reader (chain id ancestors))
    (explores' : ∀ id ancestors, Explores reader (beside id ancestors))
    (chains : CollectHalts world reader limit (this.name :: path) chain chain')
    (besides : CollectHalts world reader limit (this.name :: path) beside beside')
    (pooled : workspace.Pooled world reader) (anchored : workspace.Anchored self)
    {declaration : Declaration} (found : workspace.heap.get? self = some this)
    (outline : this.outline = .declared declaration) (new : this.name ∉ path)
    (shallow : ¬ world.Deep (limit + 1) path this.name) (withSelf : Ancestors) :
    Halts (collectAbove reader chain beside self this depth withSelf)
      (collectAbove reader chain' beside' self this depth withSelf) workspace := by
  have has : workspace.Has self this.name := ⟨⟨this, found, rfl⟩, anchored⟩
  unfold collectAbove
  refine .superclass_bind measured pooled anchored found outline fun parent mid looks above => ?_
  have pooled' := looks.pooled pooled
  have has' := has.persists (looks.persists pooled.coherent)
  cases parent with
  | none =>
    exact collectBeside_halts measured explores' besides pooled' has' new shallow this depth
      withSelf
  | some parent =>
    obtain ⟨p, hasParent, extended⟩ := above parent rfl
    have halts := chains parent p withSelf mid pooled' hasParent fun further =>
      shallow (.above extended new further)
    refine (halts.map Prod.snd).bind_explores ((explores parent withSelf).map Prod.snd) pooled'
      fun withChain last looks' pooled'' => ?_
    exact collectBeside_halts measured explores' besides pooled''
      (has'.persists (looks'.persists pooled'.coherent)) new shallow this depth withChain

/-- **The walk over all ancestors ends by itself** where no walk on names goes too deep. -/
theorem collect_halts (measured : reader.Measured) (le : limit ≤ more) (onChain : Bool) :
    CollectHalts world reader limit path (collect reader limit path onChain depth)
      (collect reader more path onChain depth) := by
  induction limit generalizing more path onChain depth with
  | zero => exact fun id x _ workspace _ _ shallow => absurd (.spent path x) shallow
  | succ limit ih =>
    obtain ⟨more, rfl⟩ : ∃ less, more = less + 1 := ⟨more - 1, by omega⟩
    have le := Nat.le_of_succ_le_succ le
    intro self x ancestors workspace pooled has shallow
    obtain ⟨⟨this, found, rfl⟩, anchored⟩ := has
    unfold collect
    refine .node_bind ?_
    rw [Heap.node_of_get? found]
    have above (declaration) (outline : this.outline = .declared declaration) :
        Halts (if path.contains this.name then throw (.cyclic this.name)
          else collectAbove reader (collect reader limit (this.name :: path) onChain (depth + 1))
            (collect reader limit (this.name :: path) false (depth + 1)) self this depth
            (if onChain && !this.isInterface then ancestors.addClass self else ancestors))
          (if path.contains this.name then throw (.cyclic this.name)
          else collectAbove reader (collect reader more (this.name :: path) onChain (depth + 1))
            (collect reader more (this.name :: path) false (depth + 1)) self this depth
            (if onChain && !this.isInterface then ancestors.addClass self else ancestors))
          workspace := by
      split
      · exact .cyclic this.name
      · rename_i new
        exact collectAbove_halts measured (.collect limit _ _ _) (.collect limit _ _ _) (ih le _)
          (ih le _) pooled anchored found outline (by simpa using new) shallow _
    obtain ⟨name, kind⟩ := this
    cases kind with
    | declared supertypes => exact above _ rfl
    | special supertypes => exact above _ rfl
    | _ => exact .pure _

/-- To flatten a type halts if the limit is above the depth of its name. -/
theorem flatten_halts (measured : reader.Measured) (pooled : workspace.Pooled world reader)
    (le : limit ≤ more) (has : workspace.Has self x) (shallow : ¬ world.Deep limit [] x) :
    Halts (flatten reader limit self) (flatten reader more self) workspace := by
  have gathers : CollectHalts world reader limit [] (collect reader limit [] true 0)
      (collect reader more [] true 0) := collect_halts measured le true
  have listed (root : NodeId) : Halts (do
      let (_, ancestors) ← collect reader limit [] true 0 self {}
      return ancestors.toList ++ [root]) (do
      let (_, ancestors) ← collect reader more [] true 0 self {}
      return ancestors.toList ++ [root]) workspace :=
    (gathers self x {} workspace pooled has shallow).bind fun _ _ _ => .pure _
  unfold flatten
  refine .get_bind ?_
  refine .node_bind ?_
  split
  · exact .pure _
  · exact .pure _
  · exact .pure _
  · exact listed _
  · exact listed _

/-- The search for a shared ancestor halts if the limit is above the depth of both names. -/
theorem sharedAncestor_halts (measured : reader.Measured) (pooled : workspace.Pooled world reader)
    (le : limit ≤ more) {a b : String} {idA idB : NodeId} (hasA : workspace.Has idA a)
    (hasB : workspace.Has idB b) (shallowA : ¬ world.Deep limit [] a)
    (shallowB : ¬ world.Deep limit [] b) :
    Halts (sharedAncestor reader limit idA idB) (sharedAncestor reader more idA idB) workspace := by
  unfold sharedAncestor
  refine (flatten_halts measured pooled le hasA shallowA).bind_explores (.flatten limit idA) pooled
    fun ids mid looks pooled₁ => ?_
  refine (Halts.mapM_nameOf ids).bind_explores (.mapM .nameOf) pooled₁
    fun above last looks' pooled₂ => ?_
  have hasB' := (hasB.persists (looks.persists pooled.coherent)).persists
    (looks'.persists pooled₁.coherent)
  refine (flatten_halts measured pooled₂ le hasB' shallowB).bind fun ids _ _ => ?_
  exact (Halts.mapM_nameOf ids).bind fun _ _ _ => .pure _

/-! ## What two types have in common -/

/-- The element of an array of references is one of the name that the array says. -/
theorem referenceElement_yields_names (pooled : workspace.Pooled world reader)
    (has : workspace.Has id x) :
    (referenceElement id).Yields workspace
      (fun found after => after = workspace ∧ ∀ element, found = some element →
        ∃ inner, workspace.Has element inner ∧ world.shape? x = some (.array inner))
      fun _ _ => False := by
  refine (referenceElement_anchors pooled.coherent has).imp (fun found after h => ?_)
    fun _ _ absurd => absurd
  refine ⟨h.1, fun element same => ?_⟩
  obtain ⟨inner, hasInner, free, laid⟩ := h.2 element same
  exact ⟨inner, hasInner, Universe.shape?_array_iff.2 ⟨free, laid⟩⟩

/-- Finding what two types have in common ends by itself where no walk on names goes too deep. -/
abbrev CommonHalts (world : Universe) (reader : Reader) (limit layers : Nat)
    (ofElements other : String → String → Query String) : Prop :=
  ∀ x y workspace, workspace.Pooled world reader → ¬ world.DeepFor limit layers x y →
    Halts (ofElements x y) (other x y) workspace

/-- **Two nodes meet without want of depth** if their elements do and the limit is above the depth
of both names. -/
theorem meet_halts (measured : reader.Measured) (pooled : workspace.Pooled world reader)
    (le : limit ≤ more) {layers : Nat} {ofElements other : String → String → Query String}
    (elements : CommonHalts world reader limit layers ofElements other) {a b : String}
    {idA idB : NodeId} (hasA : workspace.Has idA a) (hasB : workspace.Has idB b)
    (shallow : ¬ world.DeepFor limit (layers + 1) a b) :
    Halts (meet reader limit ofElements idA idB) (meet reader more other idA idB) workspace := by
  have shallowA : ¬ world.Deep limit [] a := fun deep => shallow (.inl ⟨a, .inl (.self a), deep⟩)
  have shallowB : ¬ world.Deep limit [] b := fun deep => shallow (.inl ⟨b, .inr (.self b), deep⟩)
  unfold meet
  refine (isSubclassOf_halts measured pooled le hasA shallowA idB).bind_explores
    (.reaches limit [] idA idB) pooled fun up mid looks pooled₁ => ?_
  have hasA₁ := hasA.persists (looks.persists pooled.coherent)
  have hasB₁ := hasB.persists (looks.persists pooled.coherent)
  split
  · exact .nameOf idB
  refine (isSubclassOf_halts measured pooled₁ le hasB₁ shallowB idA).bind_explores
    (.reaches limit [] idB idA) pooled₁ fun down last looks' pooled₂ => ?_
  have hasA₂ := hasA₁.persists (looks'.persists pooled₁.coherent)
  have hasB₂ := hasB₁.persists (looks'.persists pooled₁.coherent)
  split
  · exact .nameOf idA
  refine Halts.bind_yields (referenceElement_yields_names pooled₂ hasA₂)
    (fun _ _ absurd => absurd.elim) ?_
  rintro first _ ⟨rfl, ofA⟩
  refine Halts.bind_yields (referenceElement_yields_names pooled₂ hasB₂)
    (fun _ _ absurd => absurd.elim) ?_
  rintro second _ ⟨rfl, ofB⟩
  split
  · rename_i x y
    obtain ⟨innerA, ⟨⟨nodeA, foundA, rfl⟩, -⟩, shapeA⟩ := ofA x rfl
    obtain ⟨innerB, ⟨⟨nodeB, foundB, rfl⟩, -⟩, shapeB⟩ := ofB y rfl
    refine .nameOf_bind foundA (.nameOf_bind foundB ?_)
    refine (elements nodeA.name nodeB.name _ pooled₂ fun deep => shallow ?_).bind
      fun _ _ _ => .pure _
    rcases deep with ⟨z, nested | nested, deep⟩ | deep
    · exact .inl ⟨z, .inl (.element shapeA nested), deep⟩
    · exact .inl ⟨z, .inr (.element shapeB nested), deep⟩
    · exact .inr (.element shapeA deep)
  · exact sharedAncestor_halts measured pooled₂ le hasA₂ hasB₂ shallowA shallowB

/-- **Finding what two types have in common ends by itself** where no walk on names goes too deep,
and higher limits make no difference. -/
theorem common_halts (measured : reader.Measured) (le : limit ≤ more) {layers further : Nat}
    (le' : layers ≤ further) :
    CommonHalts world reader limit layers (common reader limit layers)
      (common reader more further) := by
  induction layers generalizing further with
  | zero => exact fun a b _ _ shallow => absurd (.inr (.spent [] a)) shallow
  | succ layers ih =>
    obtain ⟨further, rfl⟩ : ∃ less, further = less + 1 := ⟨further - 1, by omega⟩
    have finds := ih (Nat.le_of_succ_le_succ le')
    intro a b workspace pooled shallow
    unfold common
    have known : Halts (knownAnswer a b) (knownAnswer a b) workspace := .get_bind (.pure _)
    refine known.bind_explores (.knownAnswer a b) pooled fun answer mid _ pooled₁ => ?_
    cases answer with
    | some answer => exact .pure answer
    | none =>
      refine .typeNode_holding measured pooled₁ a fun idA held pooled₂ _ hasA => ?_
      refine .typeNode_holding measured pooled₂ b fun idB last pooled₃ keeps hasB => ?_
      have meets := meet_halts measured pooled₃ le finds (keeps idA a hasA) hasB shallow
      exact meets.bind fun answer _ _ => .keepAnswer a b answer

end ClassLattice.Query
