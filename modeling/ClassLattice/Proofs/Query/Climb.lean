import ClassLattice.Proofs.Universe.Plain
import ClassLattice.Proofs.Workspace.Created
import ClassLattice.Proofs.Workspace.WalkLimit

/-!
# Climbing a chain of superclasses

Where superclasses lead from one class to another, the subtype test finds that by their names: it
follows the edges below the upper class one by one, and stops when one of them names it.  So it
reads the classes in between in order, and leaves the upper class as it is.  What was read since a
workspace was new is kept in a ledger, so that the reads are known exactly, whatever the capacity of
the caches.
-/

set_option autoImplicit false

namespace ClassLattice

/-- Superclasses lead from a name to another: `chain` holds the names on the way without the last.
They can be read and none is pinned. -/
inductive SuperChain (registry : Registry) (reader : Reader) (last : String) :
    String → List String → Prop
  | arrives : SuperChain registry reader last last []
  | step {name parent : String} {metadata : TypeMetadata} {chain : List String}
      (free : registry.shape? name = none) (nonempty : name ≠ "")
      (noBracket : name.toList.head? ≠ some '[') (answer : reader.read name = .ok metadata)
      (extended : metadata.superName = some parent)
      (rest : SuperChain registry reader last parent chain) :
      SuperChain registry reader last name (name :: chain)

/-- The names on the way but for the first are supertypes in what the reader answers. -/
theorem SuperChain.answered {registry : Registry} {reader : Reader} {last first : String}
    {chain : List String} (h : SuperChain registry reader last first chain) :
    ∀ name ∈ chain.tail, ∃ type metadata, reader.read type = .ok metadata ∧
      name ∈ metadata.superTypeNames := by
  induction h with
  | arrives => exact fun _ member => (List.not_mem_nil member).elim
  | @step below parent metadata chain free nonempty noBracket answer extended rest ih =>
    intro name member
    cases rest with
    | arrives => exact (List.not_mem_nil member).elim
    | step =>
      rcases List.mem_cons.1 member with rfl | further
      · refine ⟨below, metadata, answer, List.mem_append_left _ ?_⟩
        rw [extended]
        exact List.mem_singleton_self _
      · exact ih name further

/-- The limit on walks is above the length of a chain. -/
theorem SuperChain.length_lt_walkLimit {registry : Registry} {reader : Reader}
    {last first : String} {between : List String} (bounded : reader.Bounded)
    (h : SuperChain registry reader last first (first :: between)) (distinct : between.Nodup)
    (workspace : Workspace) (names : List String) :
    between.length < workspace.walkLimit reader.extent names := by
  have weight := length_le_namesWeight between
  have answered := bounded between distinct h.answered
  refine Nat.lt_of_lt_of_le ?_ (Nat.le_mul_self _)
  omega

/-- A class that can be looked up: it is pinned, or its metadata can be read. -/
inductive ClassAt (registry : Registry) (reader : Reader) : String → Prop
  | pinned {name : String} {shape : Shape String} (shape? : registry.shape? name = some shape)
      (notInterface : shape.isInterface = false) : ClassAt registry reader name
  | read {name : String} {metadata : TypeMetadata} (free : registry.shape? name = none)
      (nonempty : name ≠ "") (noBracket : name.toList.head? ≠ some '[')
      (answer : reader.read name = .ok metadata) (notInterface : metadata.isInterface = false) :
      ClassAt registry reader name

/-- The superclass of a node that was just read is pending. -/
theorem Node.superLink?_ofMetadata (name : String) {metadata : TypeMetadata} {parent : String}
    (extended : metadata.superName = some parent) :
    (ofMetadata name metadata).superLink? = some (.pending parent) := by
  show metadata.superName.map _ = _
  rw [extended]
  rfl

/-- While the superclass is pending, a node names a class directly if that is the superclass. -/
theorem Node.namesDirectly_of_pending {node goal : Node} {parent : String}
    (pending : node.superLink? = some (.pending parent)) (notInterface : goal.isInterface = false) :
    node.namesDirectly goal = (parent == goal.name) := by
  obtain ⟨name, kind⟩ := node
  cases kind with
  | declared supertypes =>
    have edge : supertypes.superclass = some (.pending parent) := pending
    simp [namesDirectly, supertypes?, edge, notInterface]
  | special supertypes =>
    have edge : supertypes.superclass = some (.pending parent) := pending
    simp [namesDirectly, supertypes?, edge, notInterface]
  | _ => cases pending

namespace Workspace

variable {registry : Registry} {reader : Reader} {workspace : Workspace} {capacity : Nat}
  {asked : List (String × NodeId)} {id : NodeId} {node : Node} {name : String}

/-- **What was read since a workspace was new**, the latest first, with the node that was made for
each name.  No other nodes are in use but the pinned ones, and the latest are retained. -/
structure Ledger (registry : Registry) (capacity : Nat) (asked : List (String × NodeId))
    (workspace : Workspace) : Prop where
  reads : workspace.reads.toList = (asked.map Prod.fst).reverse
  used : ∀ id node, workspace.heap.get? id = some node → registry.shape? node.name = none →
    node.name ∈ asked.map Prod.fst
  recent : workspace.store.recent = (asked.map Prod.snd).take capacity
  capacity : workspace.store.capacity = capacity

namespace Ledger

/-- A new workspace has nothing in its ledger. -/
theorem create (capacity : Nat) (registry : Registry) :
    Ledger registry capacity [] (create capacity registry) where
  reads := rfl
  used := fun id node found free => by
    obtain ⟨⟨shape, pinned, -⟩, -⟩ := shape_of_create found
    exact absurd (free.symm.trans pinned) (by simp)
  recent := List.take_nil.symm
  capacity := rfl

/-- To hold a node asks for nothing. -/
theorem hold (ledger : Ledger registry capacity asked workspace) (id : NodeId) :
    Ledger registry capacity asked (workspace.hold id) := { ledger with }

/-- To let go of a node asks for nothing. -/
theorem letGo (ledger : Ledger registry capacity asked workspace) (id : NodeId) :
    Ledger registry capacity asked (workspace.letGo id) :=
  { ledger with
    used := fun other node found => ledger.used other node (Heap.get?_of_get?_reclaim found) }

/-- To resolve a superclass asks for nothing. -/
theorem resolveSuperclass (ledger : Ledger registry capacity asked workspace)
    (id target : NodeId) :
    Ledger registry capacity asked
      { workspace with heap := workspace.heap.modify id (·.resolveSuperclass target) } :=
  { ledger with
    used := fun other node found free => by
      rw [Heap.get?_modify] at found
      split at found
      · obtain ⟨before, here, rfl⟩ := Option.map_eq_some_iff.1 found
        rw [Node.name_resolveSuperclass] at free ⊢
        exact ledger.used _ before here free
      · exact ledger.used other node found free }

/-- A name for which the reader was not asked has no node. -/
theorem unused (ledger : Ledger registry capacity asked workspace)
    (free : registry.shape? name = none) (new : name ∉ asked.map Prod.fst) (id : NodeId) :
    ¬ workspace.heap.Names id name := by
  rintro ⟨node, found, rfl⟩
  exact new (ledger.used id node found free)

/-- The node that is made from what was read for a name goes in front. -/
theorem publish (ledger : Ledger registry capacity asked workspace)
    (coherent : workspace.Coherent registry) (node : Node) :
    let noted := { workspace with reads := workspace.reads.push node.name }
    Ledger registry capacity ((node.name, (noted.publish node).1) :: asked)
      (noted.publish node).2 := by
  intro noted
  have unseen : (noted.publish node).1 ∉ workspace.store.recent := by
    intro member
    obtain ⟨old, found⟩ := coherent.recent_alive _ member
    exact absurd (Heap.index_lt_of_get? found) (Nat.lt_irrefl _)
  have swept (store : NodeStore) (heap : Heap) : (store.sweep heap).recent = store.recent ∧
      (store.sweep heap).capacity = store.capacity := by
    unfold NodeStore.sweep
    split <;> exact ⟨rfl, rfl⟩
  refine ⟨?_, fun id found here free => ?_, ?_, ?_⟩
  · show (workspace.reads.push node.name).toList = _
    rw [Array.toList_push, ledger.reads, List.map_cons, List.reverse_cons]
  · rcases get?_of_get?_publish here with ⟨-, rfl⟩ | before
    · exact List.mem_cons_self
    · exact List.mem_cons_of_mem _ (ledger.used id found before free)
  · refine (swept _ _).1.trans ?_
    show ((noted.publish node).1 :: workspace.store.recent.erase (noted.publish node).1).take
      workspace.store.capacity = _
    rw [List.erase_of_not_mem unseen, ledger.capacity, ledger.recent, List.map_cons]
    cases capacity with
    | zero => rfl
    | succ room =>
      rw [List.take_succ_cons, List.take_succ_cons, List.take_take, Nat.min_eq_left room.le_succ]
  · exact (swept _ _).2.trans ledger.capacity

end Ledger

/-- A pinned class has no edges to resolve. -/
theorem Coherent.of_pinned_class (coherent : workspace.Coherent registry)
    (found : workspace.heap.get? id = some node) {shape : Shape String}
    (shape? : registry.shape? node.name = some shape) (notInterface : shape.isInterface = false) :
    node.isInterface = false ∧ IsNew node := by
  have undeclared (declaration : Declaration) : shape ≠ .declared declaration := by
    rintro rfl
    obtain ⟨interfaces, -, rfl⟩ := Registry.of_shape?_declared shape?
    cases notInterface
  obtain ⟨shown, shows, allowed⟩ := coherent.shapes id node found
  cases allowed with
  | array free => exact nomatch free.symm.trans shape?
  | declared free => exact nomatch free.symm.trans shape?
  | pinned pinned =>
    obtain rfl := Option.some.inj (pinned.symm.trans shape?)
    obtain ⟨name, kind⟩ := node
    cases kind with
    | declared supertypes =>
      cases shows
      exact absurd rfl (undeclared _)
    | special supertypes =>
      cases shows
      exact absurd rfl (undeclared _)
    | _ => exact ⟨rfl, fun _ _ link => (nomatch link), fun _ _ link => (nomatch link)⟩

/-- What was read once a class and one above it are looked up, the latter last. -/
def lookedUp (registry : Registry) (first last : String) (below top : NodeId) :
    List (String × NodeId) :=
  if (registry.shape? last).isSome then [(first, below)] else [(last, top), (first, below)]

/-- A walk up to a node is on its way: what was read is known, the node is anchored and as it was,
and no answer is kept yet. -/
structure Climbing (registry : Registry) (capacity : Nat) (top : NodeId) (goal : Node)
    (asked : List (String × NodeId)) (workspace : Workspace) : Prop where
  coherent : workspace.Coherent registry
  ledger : Ledger registry capacity asked workspace
  anchored : workspace.Anchored top
  found : workspace.heap.get? top = some goal
  empty : workspace.caches.answers = Table.empty

/-- A walk up to a node has ended: what was read is known, and as long as the node is in use it is
as it was and the only one of its name. -/
structure Climbed (registry : Registry) (capacity : Nat) (top : NodeId) (goal : Node)
    (asked : List (String × NodeId)) (workspace : Workspace) : Prop where
  coherent : workspace.Coherent registry
  ledger : Ledger registry capacity asked workspace
  same : ∀ node, workspace.heap.get? top = some node → node = goal
  only : ∀ id node, workspace.heap.get? id = some node → node.name = goal.name → id = top

variable {top : NodeId} {goal : Node}

/-- A climb may end at any point. -/
theorem Climbing.climbed (climbing : Climbing registry capacity top goal asked workspace) :
    Climbed registry capacity top goal asked workspace where
  coherent := climbing.coherent
  ledger := climbing.ledger
  same := fun _ found => Option.some.inj (found.symm.trans climbing.found)
  only := fun _ node found named =>
    climbing.coherent.id_unique ⟨node, found, named⟩ ⟨goal, climbing.found, rfl⟩

/-- To let go of a node leaves the climb where it was. -/
theorem Climbed.letGo (climbed : Climbed registry capacity top goal asked workspace)
    (id : NodeId) : Climbed registry capacity top goal asked (workspace.letGo id) where
  coherent := climbed.coherent.letGo
  ledger := climbed.ledger.letGo id
  same := fun node found => climbed.same node (Heap.get?_of_get?_reclaim found)
  only := fun other node found => climbed.only other node (Heap.get?_of_get?_reclaim found)

/-- The node that was looked up is retained if there is room for it and all that was read after
it. -/
theorem Climbed.mem_recent {first last : String} {below : NodeId} {more : List (String × NodeId)}
    (climbed : Climbed registry capacity top goal (more ++ lookedUp registry first last below top)
      workspace)
    (free : registry.shape? last = none) (fits : more.length < capacity) :
    top ∈ workspace.store.recent := by
  rw [climbed.ledger.recent, lookedUp, free]
  refine List.mem_iff_getElem?.2 ⟨more.length, ?_⟩
  rw [List.getElem?_take_of_lt fits]
  simp

end Workspace

namespace Query

open Workspace

variable {registry : Registry} {reader : Reader} {workspace : Workspace} {capacity : Nat}
  {asked : List (String × NodeId)} {id top : NodeId} {node goal : Node} {name : String}
  {metadata : TypeMetadata}

/-- **A name for which the reader was not asked yet is read**, and its node is the one that is
declared by the answer. -/
theorem typeNode_reads (ledger : Ledger registry capacity asked workspace)
    (coherent : workspace.Coherent registry) (free : registry.shape? name = none)
    (plain : layout name = .ok none) (new : name ∉ asked.map Prod.fst)
    (answer : reader.read name = .ok metadata) :
    (typeNode reader name).Yields workspace
      (fun id after => Ledger registry capacity ((name, id) :: asked) after ∧
        after.heap.get? id = some (.ofMetadata name metadata)) fun _ _ => False := by
  have unused := ledger.unused free new
  refine Yields.typeNode coherent (fun id after hit => ?_) fun _ _ _ => ?_
  · exact absurd (coherent.names_of_cached (congrArg Prod.fst hit)) (unused id)
  rw [plain]
  refine Yields.readMetadata_bind unused (fun told same => ?_) fun error unread => ?_
  · obtain rfl := Except.ok.inj (answer.symm.trans same)
    have makes : workspace.heap.Makes reader (.ofMetadata name metadata) := .declared plain answer
    have noted : Coherent registry { workspace with reads := workspace.reads.push name } :=
      { coherent with }
    have unlisted (id other) (found : workspace.heap.get? id = some other) : other.name ≠ name :=
      fun same => unused id ⟨other, found, same⟩
    apply Yields.insert noted free unused makes
    exact ⟨ledger.publish coherent (.ofMetadata name metadata),
      noted.get?_publish free unlisted (makes.shape free) makes.isNew⟩
  · exact nomatch answer.symm.trans unread

/-- **A class is looked up as it was declared**, and it is read unless it is pinned. -/
theorem typeNode_class (ledger : Ledger registry capacity asked workspace)
    (coherent : workspace.Coherent registry) (class' : ClassAt registry reader name)
    (new : name ∉ asked.map Prod.fst) :
    (typeNode reader name).Yields workspace
      (fun id after => ∃ goal, after.heap.get? id = some goal ∧ goal.name = name ∧
        goal.isInterface = false ∧ IsNew goal ∧ Ledger registry capacity
          (if (registry.shape? name).isSome then asked else (name, id) :: asked) after)
      fun _ _ => False := by
  cases class' with
  | pinned shape? notInterface =>
    obtain ⟨id, entry⟩ := coherent.pinned name _ shape?
    obtain ⟨goal, found, rfl⟩ := coherent.names_of_pinned entry
    have hit : workspace.cached goal.name = (some id, workspace) := by
      unfold Workspace.cached
      rw [entry]
    refine Yields.typeNode coherent (fun other after ran => ?_) fun missed =>
      nomatch hit.symm.trans missed
    obtain ⟨same, rfl⟩ := Prod.mk.inj (hit.symm.trans ran)
    obtain rfl := Option.some.inj same
    obtain ⟨notInterface, new⟩ := coherent.of_pinned_class found shape? notInterface
    refine ⟨goal, found, rfl, notInterface, new, ?_⟩
    rw [shape?]
    exact ledger
  | @read metadata free nonempty noBracket answer notInterface =>
    have plain := layout_of_bare nonempty noBracket
    refine (typeNode_reads ledger coherent free plain new answer).imp (fun id after h => ?_)
      fun _ _ h => h
    have makes : workspace.heap.Makes reader (.ofMetadata name metadata) := .declared plain answer
    refine ⟨_, h.2, rfl, notInterface, makes.isNew, ?_⟩
    rw [free]
    exact h.1

/-- **A step up reads the superclass**, and leaves the node above as it is. -/
theorem superclass_reads (climbing : Climbing registry capacity top goal asked workspace)
    (anchored : workspace.Anchored id) (found : workspace.heap.get? id = some node)
    (pending : node.superLink? = some (.pending name)) (below : node.name ≠ goal.name)
    (free : registry.shape? name = none) (plain : layout name = .ok none)
    (new : name ∉ asked.map Prod.fst) (answer : reader.read name = .ok metadata) :
    (superclass reader id).Yields workspace
      (fun parent after => ∃ target, parent = some target ∧ after.Anchored target ∧
        after.heap.get? target = some (.ofMetadata name metadata) ∧
        Climbing registry capacity top goal ((name, target) :: asked) after) fun _ _ => False := by
  obtain ⟨coherent, ledger, anchoredTop, foundTop, empty⟩ := climbing
  obtain ⟨supertypes, declares, link⟩ := Option.bind_eq_some_iff.1 pending
  refine Yields.superclass found declares ?_
  rw [link]
  refine ((typeNode_yields coherent reader name).and
    (typeNode_reads ledger coherent free plain new answer)).bind ?_ fun _ _ h => h.2
  rintro target after ⟨⟨looks, named⟩, ledger', made⟩
  -- The look-up resolves no edge, so what is anchored is as it was.
  have persists := looks.persists coherent
  have stays {other : NodeId} {before : Node} (anchored : workspace.Anchored other)
      (found : workspace.heap.get? other = some before) :
      after.heap.get? other = some before :=
    looks.get?_of_anchored coherent anchored (fun h => h) (fun h => h) found
  have here := stays anchored found
  have apart : target ≠ id := by
    rintro rfl
    have same : node = .ofMetadata name metadata := Option.some.inj (here.symm.trans made)
    exact ledger.unused free new target ⟨node, found, same ▸ rfl⟩
  have apartTop : top ≠ id := by
    rintro rfl
    exact below (congrArg Node.name (Option.some.inj (found.symm.trans foundTop)))
  have coherent' := (looks.coherent coherent).resolveSuperclass here pending named
  have persists' : Persists workspace
      { after with heap := after.heap.modify id (·.resolveSuperclass target) } :=
    persists.trans (persists_modify fun node => (Node.Advances.refl node).superclass target)
  have resolved : (after.heap.modify id (·.resolveSuperclass target)).get? id =
      some (node.resolveSuperclass target) := by
    rw [Heap.get?_modify, if_pos rfl, here]
    rfl
  have link : (node.resolveSuperclass target).superLink? = some (.resolved name target) := by
    rw [Node.superLink?_resolveSuperclass, pending]
    rfl
  have has := coherent'.has_superclass (persists'.anchored anchored) resolved link
  refine ⟨target, rfl, has.2, ?_, coherent', ledger'.resolveSuperclass id target,
    persists'.anchored anchoredTop, ?_, looks.answers.trans empty⟩
  · exact (Heap.get?_modify.trans (if_neg apart)).trans made
  · exact (Heap.get?_modify.trans (if_neg apartTop)).trans (stays anchoredTop foundTop)

/-- **A walk to a class from a node whose superclass is not looked up yet** ends there if the edge
names the class, and goes on with the superclass otherwise. -/
theorem Yields.reaches_of_pending {ok : Bool → Workspace → Prop}
    {failed : HierarchyError → Workspace → Prop} {depth : Nat} {path : List String}
    (found : workspace.heap.get? id = some node) (foundTop : workspace.heap.get? top = some goal)
    (notInterface : goal.isInterface = false) (below : node.name ≠ goal.name)
    (unpassed : node.name ∉ path) (pending : node.superLink? = some (.pending name))
    (arrived : name = goal.name → ok true workspace)
    (onwards : name ≠ goal.name →
      (ascend reader (Query.reaches reader depth (node.name :: path) · top) id false).Yields
        workspace ok failed) :
    (reaches reader (depth + 1) path id top).Yields workspace ok failed := by
  have apart : (node.name == goal.name) = false := by simpa using below
  have unpassed : path.contains node.name = false := by simpa using unpassed
  have searched : Yields (if node.namesDirectly goal then return true
      else if path.contains node.name then MonadExcept.throw (.cyclic node.name)
      else ascend reader (Query.reaches reader depth (node.name :: path) · top) id
        goal.isInterface) workspace ok failed := by
    rw [Node.namesDirectly_of_pending pending notInterface, unpassed, notInterface]
    by_cases direct : name = goal.name
    · rw [if_pos (beq_iff_eq.2 direct)]
      exact Yields.pure (arrived direct)
    · rw [if_neg (mt beq_iff_eq.1 direct), if_neg Bool.false_ne_true]
      exact onwards direct
  unfold Query.reaches
  refine Yields.node_bind found (Yields.node_bind foundTop ?_)
  rw [apart, if_neg Bool.false_ne_true]
  obtain ⟨this, kind⟩ := node
  cases kind with
  | declared supertypes => exact searched
  | special supertypes => exact searched
  | _ => cases pending

/-- **A walk up a chain of superclasses** arrives, and reads the classes in between in order.  It
stops at the edge that names the goal, which stays as it is. -/
theorem reaches_climbs {parent : String} {between path : List String} {depth : Nat}
    (chain : SuperChain registry reader goal.name parent between)
    (climbing : Climbing registry capacity top goal asked workspace)
    (notInterface : goal.isInterface = false)
    (anchored : workspace.Anchored id) (found : workspace.heap.get? id = some node)
    (pending : node.superLink? = some (.pending parent))
    (distinct : (node.name :: between ++ [goal.name]).Nodup)
    (unpassed : ∀ name ∈ path, name ∉ node.name :: between)
    (new : ∀ name ∈ between, name ∉ asked.map Prod.fst) (deep : between.length < depth) :
    (reaches reader depth path id top).Yields workspace
      (fun reached after => reached = true ∧ ∃ more, more.map Prod.fst = between.reverse ∧
        Climbing registry capacity top goal (more ++ asked) after) fun _ _ => False := by
  -- The induction is on the chain; what was read and the path grow by one name with each step.
  induction chain generalizing id node asked path depth workspace with
  | arrives =>
    obtain ⟨depth, rfl⟩ := Nat.exists_eq_add_one_of_ne_zero (Nat.ne_zero_of_lt deep)
    have below : node.name ≠ goal.name := by simpa using distinct
    exact Yields.reaches_of_pending found climbing.found notInterface below
      (fun member => unpassed _ member List.mem_cons_self) pending
      (fun _ => ⟨rfl, [], rfl, climbing⟩) fun apart => absurd rfl apart
  | @step name parent metadata between free nonempty noBracket answer extended rest ih =>
    obtain ⟨depth, rfl⟩ := Nat.exists_eq_add_one_of_ne_zero (Nat.ne_zero_of_lt deep)
    have plain := layout_of_bare nonempty noBracket
    obtain ⟨first, distinct⟩ := List.nodup_cons.1 distinct
    have below : node.name ≠ goal.name := fun same => first (by simp [same])
    have onTheWay : name ≠ goal.name := fun same => by simp [same] at distinct
    refine Yields.reaches_of_pending found climbing.found notInterface below
      (fun member => unpassed _ member List.mem_cons_self) pending
      (fun same => absurd same onTheWay) fun _ => ?_
    unfold ascend
    refine (superclass_reads climbing anchored found pending below free plain
      (new name List.mem_cons_self) answer).bind ?_ fun _ _ h => h
    rintro - after ⟨target, rfl, anchored', made, climbing'⟩
    have pending' := Node.superLink?_ofMetadata name extended
    have unpassed' : ∀ passed ∈ node.name :: path, passed ∉ name :: between := by
      intro passed member ahead
      rcases List.mem_cons.1 member with rfl | earlier
      · exact first (List.mem_append_left _ ahead)
      · exact unpassed passed earlier (List.mem_cons_of_mem _ ahead)
    have new' : ∀ ahead ∈ between, ahead ∉ ((name, target) :: asked).map Prod.fst := by
      intro ahead member known
      rcases List.mem_cons.1 known with rfl | earlier
      · exact (List.nodup_cons.1 distinct).1 (List.mem_append_left _ member)
      · exact new ahead (List.mem_cons_of_mem _ member) earlier
    refine (ih climbing' anchored' made pending' distinct unpassed' new'
      (Nat.lt_of_succ_lt_succ deep)).bind ?_ fun _ _ h => h
    rintro - last ⟨rfl, more, names, arrived⟩
    refine Yields.pure ⟨rfl, more ++ [(name, target)], ?_, ?_⟩
    · rw [List.map_append, names, List.reverse_cons]
      rfl
    · rw [List.append_assoc]
      exact arrived

/-- The answer is kept and given out where no answer was kept before. -/
theorem keepAnswer_climbed (climbing : Climbing registry capacity top goal asked workspace)
    (first second : String) :
    (keepAnswer first second goal.name).Yields workspace
      (fun kept after => kept = goal.name ∧ Climbed registry capacity top goal asked after)
      fun _ _ => False := by
  have new : workspace.caches.answers.answer? first second = none := climbing.empty ▸ rfl
  exact ⟨PairMemo.settle_fst_of_new new,
    { climbing.climbed with
      coherent := climbing.coherent.keeping first second goal.name
      ledger := { climbing.ledger with } }⟩

section Common

variable {first last parent : String} {between : List String} {limit layers : Nat}
  {ofElements : String → String → Query String}

/-- **A class and its ancestor meet in the ancestor**, and the classes between them are read one by
one. -/
theorem meet_climbs (chain : SuperChain registry reader goal.name parent between)
    (climbing : Climbing registry capacity top goal asked workspace)
    (notInterface : goal.isInterface = false)
    (anchored : workspace.Anchored id) (found : workspace.heap.get? id = some node)
    (pending : node.superLink? = some (.pending parent))
    (distinct : (node.name :: between ++ [goal.name]).Nodup)
    (new : ∀ name ∈ between, name ∉ asked.map Prod.fst) (limited : between.length < limit) :
    (meet reader limit ofElements id top).Yields workspace
      (fun answer after => answer = goal.name ∧ ∃ more, more.map Prod.fst = between.reverse ∧
        Climbing registry capacity top goal (more ++ asked) after) fun _ _ => False := by
  have unpassed : ∀ name ∈ ([] : List String), name ∉ node.name :: between :=
    fun _ member => (List.not_mem_nil member).elim
  have climbs := reaches_climbs chain climbing notInterface anchored found pending distinct unpassed
    new limited
  unfold meet
  refine climbs.bind ?_ fun _ _ h => h
  rintro - after ⟨rfl, more, names, climbing'⟩
  exact Yields.nameOf climbing'.found ⟨rfl, more, names, climbing'⟩

/-- **A class and its ancestor are found to share the ancestor** in a new workspace, with one
reading for each class on the way. -/
theorem common_climbs (chain : SuperChain registry reader last first (first :: between))
    (above : ClassAt registry reader last) (distinct : (first :: between ++ [last]).Nodup)
    (limited : between.length < limit) (capacity layers : Nat) :
    (common reader limit (layers + 1) first last).Yields (create capacity registry)
      (fun answer after => answer = last ∧ ∃ goal : Node, goal.name = last ∧ IsNew goal ∧
        ∃ below top more, more.map Prod.fst = between.reverse ∧
          Climbed registry capacity top goal (more ++ lookedUp registry first last below top)
            after) fun _ _ => False := by
  have coherent := coherent_create capacity registry
  have unlike : first ∉ between ++ [last] := (List.nodup_cons.1 distinct).1
  have apart : last ≠ first := fun same => unlike (by simp [same])
  have ahead : last ∉ between := fun member =>
    (List.nodup_append.1 (List.nodup_cons.1 distinct).2).2.2 last member last (by simp) rfl
  cases chain with
  | @step _ parent metadata _ free nonempty noBracket answer extended rest =>
  have plain := layout_of_bare nonempty noBracket
  unfold common
  refine Yields.knownAnswer_bind ?_
  refine ((typeNode_yields coherent reader first).and (typeNode_reads (.create capacity registry)
    coherent free plain List.not_mem_nil answer)).bind ?_ fun _ _ h => h.2
  rintro below mid ⟨⟨looks, -⟩, ledger, found⟩
  have held := (looks.coherent coherent).hold found
  refine Yields.holding (Yields.bind ((typeNode_yields held reader last).and
    (typeNode_class (ledger.hold below) held above (by simpa using apart))) ?_ fun _ _ h => h.2)
  rintro top after ⟨⟨looks', -⟩, goal, foundTop, rfl, notInterface, isNew, ledger'⟩
  have anchored : after.Anchored below := (looks'.persists held).anchored anchored_hold
  have found' := looks'.get?_of_anchored held anchored_hold (fun h => h) (fun h => h) found
  have climbing : Climbing registry capacity top goal
      (lookedUp registry first goal.name below top) (after.hold top) :=
    ⟨(looks'.coherent held).hold foundTop, ledger'.hold top, anchored_hold, foundTop,
      looks'.answers.trans looks.answers⟩
  have new : ∀ name ∈ between,
      name ∉ (lookedUp registry first goal.name below top).map Prod.fst := by
    intro name member known
    unfold lookedUp at known
    have unlikeFirst : name ≠ first := fun same => unlike (List.mem_append_left _ (same ▸ member))
    have unlikeLast : name ≠ goal.name := fun same => ahead (same ▸ member)
    split at known <;> simp [unlikeFirst, unlikeLast] at known
  refine Yields.holding (Yields.bind (meet_climbs rest climbing notInterface anchored.hold found'
    (Node.superLink?_ofMetadata first extended) distinct new limited) ?_ fun _ _ h => h)
  rintro - last ⟨rfl, more, names, climbing'⟩
  refine (keepAnswer_climbed climbing' first goal.name).imp (fun kept final h => ?_) fun _ _ h => h
  exact ⟨h.1, goal, rfl, isNew, below, top, more, names, (h.2.letGo top).letGo below⟩

/-- **A class and one that superclasses lead to** have the latter in common in a new workspace.  The
reader is asked for the two and the classes in between, in order. -/
theorem commonSuperclass_climbs (bounded : reader.Bounded)
    (chain : SuperChain registry reader last first (first :: between))
    (above : ClassAt registry reader last) (distinct : (first :: between ++ [last]).Nodup)
    (capacity : Nat) :
    (commonSuperclass reader first last).Yields (create capacity registry)
      (fun answer after => answer = last ∧ ∃ goal : Node, goal.name = last ∧ IsNew goal ∧
        ∃ below top more, more.map Prod.fst = between.reverse ∧
          Climbed registry capacity top goal (more ++ lookedUp registry first last below top)
            after) fun _ _ => False := by
  have limited := chain.length_lt_walkLimit bounded
    (List.nodup_append.1 (List.nodup_cons.1 distinct).2).1 (create capacity registry) [first, last]
  obtain ⟨layers, same⟩ := Nat.exists_eq_add_one_of_ne_zero (Nat.ne_zero_of_lt limited)
  have climbs := common_climbs chain above distinct limited capacity layers
  rw [← same] at climbs
  exact Yields.get_bind climbs

end Common

end Query

end ClassLattice
