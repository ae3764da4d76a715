import ClassLattice.Hierarchy.Subtype
import ClassLattice.Proofs.Query.Blame
import ClassLattice.Proofs.Universe.Follow

/-!
# The subtype test in any workspace

In a faithful workspace the subtype test finds what the test on names finds, whatever edges are
resolved already, and if it fails its error says why.  Where the test on names has an answer, it
fails only for want of depth, with one exception: a name on a resolved edge is not compared before
the edge is followed, so an answer that is found by such a comparison may be missed behind an
obstacle.
-/

set_option autoImplicit false

namespace ClassLattice

/-- The names of the interfaces are those of their link. -/
theorem Node.interfaceNames_outline {node : Node} {link : Link (List String) (List NodeId)}
    (h : node.interfaceLink? = some link) : node.outline.interfaceNames = link.names := by
  obtain ⟨name, kind⟩ := node
  cases kind with
  | declared supertypes => exact congrArg Link.names (Option.some.inj h)
  | special supertypes => exact congrArg Link.names (Option.some.inj h)
  | _ => cases h

/-- The name of the superclass is that of its link. -/
theorem Node.superName_outline {node : Node} {link : Link String NodeId}
    (h : node.superLink? = some link) : node.outline.superName = some link.names := by
  obtain ⟨name, kind⟩ := node
  cases kind with
  | declared supertypes => exact congrArg (Option.map Link.names) h
  | special supertypes => exact congrArg (Option.map Link.names) h
  | _ => cases h

/-- A node names another directly only by an edge that is pending. -/
theorem Node.of_namesDirectly {node base : Node} (h : node.namesDirectly base = true) :
    (base.isInterface = true ∧
        ∃ names, node.interfaceLink? = some (.pending names) ∧ base.name ∈ names) ∨
      base.isInterface = false ∧ node.superLink? = some (.pending base.name) := by
  obtain ⟨name, kind⟩ := node
  unfold namesDirectly at h
  split at h
  · cases h
  · rename_i supertypes declared
    by_cases interface : base.isInterface = true
    · left
      rw [if_pos interface] at h
      split at h
      · rename_i names pending
        refine ⟨interface, names, ?_, by simpa using h⟩
        rw [interfaceLink?, declared, Option.map_some, pending]
      · cases h
    · right
      rw [if_neg interface] at h
      split at h
      · rename_i parent pending
        obtain rfl : parent = base.name := by simpa using h
        exact ⟨by simpa using interface, by rw [superLink?, declared]; exact pending⟩
      · cases h

/-- An interface that is listed but not named directly is on a resolved edge. -/
theorem Node.resolved_of_listed {node base : Node} (h : node.namesDirectly base = false)
    (interface : base.isInterface = true) (listed : base.name ∈ node.outline.interfaceNames) :
    ∃ names targets, node.interfaceLink? = some (.resolved names targets) ∧ base.name ∈ names := by
  cases link : node.interfaceLink? with
  | none =>
    obtain ⟨name, kind⟩ := node
    cases kind with
    | declared supertypes => cases link
    | special supertypes => cases link
    | _ => exact (List.not_mem_nil listed).elim
  | some edges =>
    rw [interfaceNames_outline link] at listed
    cases edges with
    | resolved names targets => exact ⟨names, targets, rfl, listed⟩
    | pending names =>
      obtain ⟨supertypes, declared, pending⟩ := Option.map_eq_some_iff.1 link
      rw [namesDirectly, declared] at h
      simp only [interface, if_true, pending] at h
      have listed : base.name ∈ names := listed
      simp [listed] at h

namespace Workspace

variable {registry : Registry} {world : Universe} {reader : Reader} {scope : Scope}
  {old new workspace : Workspace} {id : NodeId} {name : String} {path : List String}

/-- No edge to an interface of the name is resolved. -/
def Pristine (workspace : Workspace) (name : String) : Prop :=
  ∀ id node, workspace.heap.get? id = some node → ∀ names targets,
    node.interfaceLink? = some (.resolved names targets) → name ∉ names

/-- Looking up names resolves no edge to an interface that the nodes in scope do not list. -/
theorem LooksUp.pristine (h : LooksUp registry reader scope old new)
    (unlisted : ∀ id, scope.interfaces id →
      ∃ node, old.heap.get? id = some node ∧ name ∉ node.outline.interfaceNames)
    (pristine : old.Pristine name) : new.Pristine name := by
  have keeps : Scope.Keeps registry reader scope old.heap.cells.size fun id node =>
      (scope.interfaces id → name ∉ node.outline.interfaceNames) ∧
        ∀ names targets, node.interfaceLink? = some (.resolved names targets) → name ∉ names := by
    refine ⟨fun heap id node new _ _ makes => ⟨fun inside => ?_, fun names targets link => ?_⟩,
      fun id node target _ holds => ?_, fun id node targets inside holds =>
        ⟨?_, fun names targets link => ?_⟩⟩
    · obtain ⟨node, found, -⟩ := unlisted id inside
      exact absurd (Heap.index_lt_of_get? found) (by omega)
    · rw [(makes.isNew.interfaceLink names targets link).1]
      exact List.not_mem_nil
    · simpa using holds
    · simpa using holds.1
    · have declared := Node.interfaceNames_outline link
      rw [Node.outline_resolveInterfaces] at declared
      exact fun member => holds.1 inside (declared ▸ member)
  refine fun id node found => (h.all_nodes keeps (Nat.le_refl _) (fun id node found =>
    ⟨fun inside => ?_, pristine id node found⟩) id node found).2
  obtain ⟨node', found', unlisted⟩ := unlisted id inside
  rwa [Option.some.inj (found.symm.trans found')]

/-- A name and the names above it are those of anchored nodes, as far as they can be looked up, and
no edges to interfaces are pending there that can be resolved. -/
def ResolvedAbove (workspace : Workspace) (world : Universe) (name : String) : Prop :=
  ∀ other, Relation.ReflTransGen world.Uses name other → world.resolves other = true →
    ∃ id node, workspace.heap.get? id = some node ∧ node.name = other ∧ workspace.Anchored id ∧
      ∀ names, node.interfaceLink? = some (.pending names) → ¬ names.all world.resolves = true

/-- Where all edges above a name are resolved, so are those above every name that it uses. -/
theorem ResolvedAbove.uses {other : String} (h : workspace.ResolvedAbove world name)
    (uses : world.Uses name other) : workspace.ResolvedAbove world other :=
  fun last path => h last (.head uses path)

/-- Edges that are resolved above a name stay so. -/
theorem ResolvedAbove.persists (persists : Persists old new) (h : old.ResolvedAbove world name) :
    new.ResolvedAbove world name := by
  intro other path resolves
  obtain ⟨id, node, found, named, anchored, fixed⟩ := h other path resolves
  obtain ⟨later, found', step⟩ := persists.get? anchored found
  exact ⟨id, later, found', step.name_eq.trans named, persists.anchored anchored,
    fun names pending => fixed names (step.interfaceLink?_stays.of_pending pending)⟩

/-- To hold a node leaves the edges above a name as they are. -/
theorem ResolvedAbove.hold (h : workspace.ResolvedAbove world name) :
    (workspace.hold id).ResolvedAbove world name := by
  intro other path resolves
  obtain ⟨first, node, found, named, anchored, fixed⟩ := h other path resolves
  exact ⟨first, node, found, named, anchored.hold, fixed⟩

/-- Where edges are resolved above, those to interfaces are pending only where they cannot be. -/
theorem ResolvedAbove.not_all_resolve {node : Node} {names : List String}
    (h : workspace.ResolvedAbove world node.name) (faithful : workspace.Faithful world)
    (found : workspace.heap.get? id = some node) (has : workspace.Has id node.name)
    (pending : node.interfaceLink? = some (.pending names)) :
    ¬ names.all world.resolves = true := by
  obtain ⟨other, node', found', named, -, fixed⟩ := h node.name .refl (faithful.resolves has.1)
  obtain rfl := faithful.coherent.id_unique ⟨node', found', named⟩ has.1
  obtain rfl := Option.some.inj (found.symm.trans found')
  exact fixed names pending

/-- The types that a walk is in the middle of are anchored, and the edges to their superclasses are
not pending. -/
def Settled (workspace : Workspace) (path : List String) : Prop :=
  ∀ name ∈ path, ∃ id node, workspace.heap.get? id = some node ∧ node.name = name ∧
    workspace.Anchored id ∧ ∀ parent, node.superLink? ≠ some (.pending parent)

/-- A path that is settled stays so. -/
theorem Settled.persists (persists : Persists old new) (h : old.Settled path) :
    new.Settled path := by
  intro name member
  obtain ⟨id, node, found, rfl, anchored, settled⟩ := h name member
  obtain ⟨later, found', step⟩ := persists.get? anchored found
  exact ⟨id, later, found', step.name_eq, persists.anchored anchored,
    fun name pending => settled name (step.superLink?_stays.of_pending pending)⟩

/-- A path is settled further by a node with a superclass that is not pending. -/
theorem Settled.cons {node : Node} (h : workspace.Settled path) (anchored : workspace.Anchored id)
    (found : workspace.heap.get? id = some node)
    (settled : ∀ parent, node.superLink? ≠ some (.pending parent)) :
    workspace.Settled (node.name :: path) := by
  intro name member
  rcases List.mem_cons.1 member with rfl | rest
  · exact ⟨id, node, found, rfl, anchored, settled⟩
  · exact h name rest

/-- Nodes in use under names have these names. -/
theorem Has.map_name {ids : List NodeId} {names : List String}
    (h : List.Forall₂ workspace.Has ids names) :
    names = ids.map (fun id => (workspace.heap.node id).name) ∧
      ∀ id ∈ ids, workspace.Has id (workspace.heap.node id).name := by
  induction h with
  | nil => exact ⟨rfl, fun _ member => (List.not_mem_nil member).elim⟩
  | @cons id name ids names has _ ih =>
    obtain ⟨node, found, rfl⟩ := has.1
    have named : (workspace.heap.node id).name = node.name := by rw [Heap.node_of_get? found]
    refine ⟨by rw [List.map_cons, named, ← ih.1], fun other member => ?_⟩
    rcases List.mem_cons.1 member with rfl | rest
    · exact named ▸ has
    · exact ih.2 other rest

end Workspace

namespace Query

open Workspace

variable {world : Universe} {reader : Reader} {workspace : Workspace} {path : List String}
  {self base : NodeId} {x y : String} {depth : Nat}

/-! ## What the test leaves behind -/

/-- A workspace in which a walk to a type may go on. -/
structure Ready (world : Universe) (path : List String) (base : NodeId) (y : String)
    (workspace : Workspace) : Prop where
  faithful : workspace.Faithful world
  base : workspace.Has base y
  settled : workspace.Settled path

/-- A search stays ready when names are looked up. -/
theorem Ready.looksUp {scope : Scope} {old new : Workspace} (ready : Ready world path base y old)
    (within : reader.Within world) (looks : LooksUp world.registry reader scope old new) :
    Ready world path base y new :=
  have persists := looks.persists ready.faithful.coherent
  ⟨looks.faithful within ready.faithful, ready.base.persists persists,
    ready.settled.persists persists⟩

/-- A node names another type directly on pending edges, as its declaration does.  A pending edge to
a superclass shows that the walk is not in the middle of the type. -/
theorem Ready.of_namesDirectly {this that : Node} {declaration : Declaration}
    (ready : Ready world path base y workspace) (found : workspace.heap.get? self = some this)
    (foundBase : workspace.heap.get? base = some that)
    (shape : world.shape? this.name = some (.declared declaration))
    (direct : this.namesDirectly that = true) :
    (world.lists declaration that.name = true ∧
        this.interfaceLink? = some (.pending declaration.interfaceNames)) ∨
      (world.lists declaration that.name = false ∧ this.name ∉ path ∧
        declaration.superName = some that.name) := by
  have outline := ready.faithful.outline found shape
  have interface := ready.faithful.isInterface_eq foundBase
  rcases Node.of_namesDirectly direct with ⟨isInterface, names, pending, member⟩ |
    ⟨isClass, pending⟩
  · have declared := Node.interfaceNames_outline pending
    rw [outline] at declared
    obtain rfl : declaration.interfaceNames = names := declared
    exact .inl ⟨by simp [Universe.lists, interface, isInterface, member], pending⟩
  · have declared := Node.superName_outline pending
    rw [outline] at declared
    refine .inr ⟨by simp [Universe.lists, interface, isClass], fun seen => ?_, declared⟩
    obtain ⟨id, node, here, same, -, settled⟩ := ready.settled this.name seen
    obtain rfl := ready.faithful.coherent.id_unique ⟨node, here, same⟩ ⟨this, found, rfl⟩
    obtain rfl := Option.some.inj (here.symm.trans found)
    exact settled _ pending

/-- The test found what the test on names finds. -/
structure Searched (world : Universe) (reader : Reader) (before : Workspace) (depth : Nat)
    (path : List String) (x y : String) (found : Bool) (after : Workspace) : Prop where
  looksUp : LooksUp world.registry reader .everything before after
  answer : world.search depth path x y = some found
  /-- A walk that found nothing leaves the interfaces that it guards as they were. -/
  pristine : found = false → ∀ inner, world.Guards path x y inner → before.Pristine inner →
    after.Pristine inner

/-- A walk that found something need not say what it leaves as it was. -/
theorem Searched.of_true {before after : Workspace}
    (looksUp : LooksUp world.registry reader .everything before after)
    (answer : world.search depth path x y = some true) :
    Searched world reader before depth path x y true after :=
  ⟨looksUp, answer, fun found => by cases found⟩

/-- The test failed with an error.  Unless it went too deep, the test on names fails there too, or
it compares a name that is on a resolved edge here. -/
structure Stopped (world : Universe) (reader : Reader) (before : Workspace) (depth : Nat)
    (path : List String) (x y : String) (error : HierarchyError) (after : Workspace) : Prop where
  looksUp : LooksUp world.registry reader .everything before after
  blame : world.Blames reader depth path x error
  missed : reader.Serves world → world.Deep depth path x ∨
    ∀ found, world.Finds path x y found → found = true ∧
      ∃ inner, world.Nests y inner ∧ world.isInterface inner = true ∧ ¬ before.Pristine inner

/-- The specification of a walk from a node. -/
abbrev WalkYields (world : Universe) (reader : Reader) (depth : Nat) (path : List String)
    (base : NodeId) (y : String) (walk : NodeId → Query Bool) : Prop :=
  ∀ parent p before, Ready world path base y before → before.Has parent p →
    (walk parent).Yields before (Searched world reader before depth path p y)
      (Stopped world reader before depth path p y)

/-- The part of the test that looks above a class or interface. -/
def ascend (reader : Reader) (walk : NodeId → Query Bool) (self : NodeId) (deep : Bool) :
    Query Bool := do
  if let some parent ← superclass reader self then
    if ← walk parent then return true
  if deep then (← interfaces reader self).reverse.anyM walk
  else return false

/-- What is known of a class or interface when the test looks above it. -/
structure Above (world : Universe) (before : Workspace) (path : List String) (x y : String)
    (declaration : Declaration) : Prop where
  shape : world.shape? x = some (.declared declaration)
  apart : x ≠ y
  new : x ∉ path
  /-- The name would have been compared if the edge to it were pending. -/
  listed : world.lists declaration y = true → ¬ before.Pristine y

namespace Above

variable {before after : Workspace} {declaration : Declaration} {found : Bool} {p : String}

/-- Above a declared type the search goes on one level up, unless the type lists what is looked for.
-/
theorem search_eq (above : Above world before path x y declaration) :
    world.search (depth + 1) path x y =
      if world.lists declaration y then some true
      else world.climb (world.search depth (x :: path) · y) y declaration := by
  have new : path.contains x = false := by simpa using above.new
  rw [Universe.search, if_neg above.apart, above.shape]
  simp only [new, Bool.false_eq_true, if_false]

/-- A walk above a type ends at what is listed there, or climbs on. -/
theorem climbs (above : Above world before path x y declaration)
    (finds : world.Finds path x y found) :
    world.lists declaration y = true ∧ found = true ∨ world.lists declaration y = false ∧
      ∃ more, ∀ least, more ≤ least →
        world.climb (world.search least (x :: path) · y) y declaration = some found := by
  obtain ⟨more, answer⟩ := finds
  cases more with
  | zero => cases answer
  | succ more =>
    rw [above.search_eq] at answer
    split_ifs at answer with lists
    · exact .inl ⟨lists, (Option.some.inj answer).symm⟩
    · exact .inr ⟨Bool.not_eq_true _ ▸ lists, more, fun least le => Universe.climb_mono
        (fun parent found => Universe.search_mono le) answer⟩

/-- An interface that is listed and yet passed over is not pristine. -/
theorem spoilt (above : Above world before path x y declaration)
    (lists : world.lists declaration y = true) :
    ∃ inner, world.Nests y inner ∧ world.isInterface inner = true ∧ ¬ before.Pristine inner :=
  ⟨y, .self y, (Bool.and_eq_true _ _ ▸ lists).1, above.listed lists⟩

/-- Where nothing is found by the superclass, a walk ends at what is listed or goes on along the
interfaces. -/
theorem climbs_beside (above : Above world before path x y declaration)
    (nothing : world.findAbove (world.search depth (x :: path) · y) y declaration = some false)
    (finds : world.Finds path x y found) :
    world.lists declaration y = true ∧ found = true ∨ world.lists declaration y = false ∧
      ∃ least, depth ≤ least ∧
        world.findBeside (world.search least (x :: path) · y) y declaration = some found := by
  refine (above.climbs finds).imp_right fun ⟨unlisted, more, climbs⟩ => ?_
  refine ⟨unlisted, max more depth, Nat.le_max_right _ _, ?_⟩
  have still := Universe.findAbove_mono
    (fun parent found => Universe.search_mono (Nat.le_max_right more depth)) nothing
  rcases Universe.climb_eq_some.1 (climbs _ (Nat.le_max_left _ _)) with ⟨something, -⟩ | ⟨-, beside⟩
  · rw [still] at something
    cases something
  · exact beside

/-- What the walk from the superclass misses, the walk from the type misses. -/
theorem missed_superclass (above : Above world before path x y declaration)
    (superName : declaration.superName = some p) (resolves : world.resolves p = true)
    (missed : ∀ found, world.Finds (x :: path) p y found → found = true ∧
      ∃ inner, world.Nests y inner ∧ world.isInterface inner = true ∧ ¬ after.Pristine inner)
    (pristine : ∀ inner, before.Pristine inner → after.Pristine inner) (found : Bool)
    (finds : world.Finds path x y found) : found = true ∧
      ∃ inner, world.Nests y inner ∧ world.isInterface inner = true ∧ ¬ before.Pristine inner := by
  rcases above.climbs finds with ⟨lists, rfl⟩ | ⟨-, more, climbs⟩
  · exact ⟨rfl, above.spoilt lists⟩
  · have reached {result} (h : world.findAbove (world.search (more + 1) (x :: path) · y) y
        declaration = some result) : world.Finds (x :: path) p y result := by
      refine ⟨more + 1, ?_⟩
      rw [Universe.findAbove_of_superName superName resolves] at h
      split_ifs at h with same
      · rw [← h, Universe.search, if_pos same]
      · exact h
    rcases Universe.climb_eq_some.1 (climbs (more + 1) (Nat.le_succ _)) with ⟨up, rfl⟩ | ⟨up, -⟩
    · obtain ⟨-, inner, nested, interface, spoilt⟩ := missed true (reached up)
      exact ⟨rfl, inner, nested, interface, fun before => spoilt (pristine inner before)⟩
    · exact absurd (missed false (reached up)).1 (by simp)

/-- Where the superclass cannot be looked up, the walk finds only what is listed. -/
theorem missed_unread (above : Above world before path x y declaration)
    (superName : declaration.superName = some p) (lost : world.resolves p = false)
    (resolves : world.resolves y = true) (found : Bool) (finds : world.Finds path x y found) :
    found = true ∧
      ∃ inner, world.Nests y inner ∧ world.isInterface inner = true ∧ ¬ before.Pristine inner := by
  rcases above.climbs finds with ⟨lists, rfl⟩ | ⟨-, more, climbs⟩
  · exact ⟨rfl, above.spoilt lists⟩
  · have apart : p ≠ y := by
      rintro rfl
      rw [resolves] at lost
      cases lost
    have climbs := climbs more (Nat.le_refl _)
    simp [Universe.climb, Universe.findAbove, superName, apart, lost] at climbs

end Above

/-- What holds between two interfaces of a type while a walk goes along them: those that were
passed lead nowhere, and unlisted interfaces that the walk guards are as they were. -/
structure Passing (world : Universe) (reader : Reader) (before : Workspace) (depth : Nat)
    (path : List String) (x y : String) (declaration : Declaration) (base : NodeId)
    (targets : List NodeId) (nameAt : NodeId → String) (passed : List NodeId)
    (workspace : Workspace) : Prop where
  ready : Ready world (x :: path) base y workspace
  looksUp : LooksUp world.registry reader .everything before workspace
  has : ∀ target ∈ targets, workspace.Has target (nameAt target)
  failed : ∀ target ∈ passed, world.search depth (x :: path) (nameAt target) y = some false
  pristine : ∀ inner, world.Guards path x y inner → inner ∉ declaration.interfaceNames →
    before.Pristine inner → workspace.Pristine inner

variable {before : Workspace} {declaration : Declaration} {walk : NodeId → Query Bool}

/-- **The walk from the next interface finds the goal, or passes it over as well.** -/
theorem passing_yields (within : reader.Within world)
    (walks : WalkYields world reader depth (x :: path) base y walk)
    (above : Above world before path x y declaration)
    (nothing : world.findAbove (world.search depth (x :: path) · y) y declaration = some false)
    (interface : world.isInterface y = true) {targets : List NodeId} {nameAt : NodeId → String}
    (names : declaration.interfaceNames = targets.map nameAt)
    (resolve : declaration.interfaceNames.all world.resolves = true)
    {passed rest : List NodeId} {target : NodeId}
    (split : targets.reverse = passed ++ target :: rest) {w : Workspace}
    (passing : Passing world reader before depth path x y declaration base targets nameAt
      passed w) :
    (walk target).Yields w
      (fun found after => if found then Searched world reader before (depth + 1) path x y true after
        else Passing world reader before depth path x y declaration base targets nameAt
          (passed ++ [target]) after)
      (Stopped world reader before (depth + 1) path x y) := by
  have member : target ∈ targets := by
    rw [← List.mem_reverse, split]
    exact List.mem_append_right _ List.mem_cons_self
  have reversed : declaration.interfaceNames.reverse =
      passed.map nameAt ++ nameAt target :: rest.map nameAt := by
    rw [names, ← List.map_reverse, split, List.map_append, List.map_cons]
  have listed : nameAt target ∈ declaration.interfaceNames :=
    names ▸ List.mem_map_of_mem member
  have passes {least} (le : depth ≤ least) (n) (seen : n ∈ passed.map nameAt) :
      world.search least (x :: path) n y = some false := by
    obtain ⟨id, before, rfl⟩ := List.mem_map.1 seen
    exact Universe.search_mono le (passing.failed id before)
  refine (walks target (nameAt target) w passing.ready (passing.has target member)).imp
    (fun found after h => ?_) fun error after h => ?_
  · cases found with
    | true =>
      refine .of_true (passing.looksUp.trans h.looksUp) ?_
      have finds : world.findBeside (world.search depth (x :: path) · y) y declaration =
          some true := by
        rw [Universe.findBeside, if_pos interface, if_pos resolve, reversed]
        exact anyM_eq_true.2 ⟨_, _, _, rfl, passes (Nat.le_refl _), h.answer⟩
      rw [above.search_eq]
      split_ifs
      · rfl
      · exact Universe.climb_eq_some.2 (.inr ⟨nothing, finds⟩)
    | false =>
      have persists := h.looksUp.persists passing.ready.faithful.coherent
      refine ⟨passing.ready.looksUp within h.looksUp, passing.looksUp.trans h.looksUp,
        fun id member => (passing.has id member).persists persists, fun id seen => ?_,
        fun inner guards unlisted pristine => ?_⟩
      · rcases List.mem_append.1 seen with seen | seen
        · exact passing.failed id seen
        · rw [List.mem_singleton.1 seen]
          exact h.answer
      · exact h.pristine rfl inner (guards.above above.shape _)
          (passing.pristine inner guards unlisted pristine)
  · -- A walk on names that has an answer passes the same interfaces and gets no further here.
    have extended := Universe.extends_interface above.shape listed
    refine ⟨passing.looksUp.trans h.looksUp, .above extended above.new h.blame, fun serves => ?_⟩
    rcases h.missed serves with deep | missed
    · exact .inl (.above extended above.new deep)
    · refine .inr fun found finds => ?_
      rcases above.climbs_beside nothing finds with ⟨lists, rfl⟩ | ⟨unlisted, least, le, beside⟩
      · exact ⟨rfl, above.spoilt lists⟩
      · rw [Universe.findBeside, if_pos interface, if_pos resolve, reversed,
          anyM_append (passes le), anyM_cons_some] at beside
        rcases beside with ⟨here, rfl⟩ | ⟨here, -⟩
        · obtain ⟨-, inner, nested, isInterface, spoilt⟩ := missed true ⟨least, here⟩
          refine ⟨rfl, inner, nested, isInterface, fun pristine => spoilt ?_⟩
          refine passing.pristine inner ⟨isInterface, .inl nested⟩ (fun listed => ?_) pristine
          obtain ⟨declaration', shape⟩ := Universe.exists_of_isInterface interface
          rw [nested.eq_of_declared shape] at listed
          simp [Universe.lists, interface, listed] at unlisted
        · exact absurd (missed false ⟨least, here⟩).1 (by simp)

/-- A walk that looks up the superclass of a type may go on in the middle of that type. -/
theorem superclass_climbs (within : reader.Within world)
    (shape : world.shape? x = some (.declared declaration))
    (ready : Ready world path base y workspace) (has : workspace.Has self x) :
    (superclass reader self).Yields workspace
      (fun parent after => LooksUp world.registry reader (Scope.ofSuperclass self) workspace after ∧
        Option.Rel after.Has parent declaration.superName ∧
        Ready world (x :: path) base y after ∧ after.Has self x)
      (fun error after => LooksUp world.registry reader (Scope.ofSuperclass self) workspace after ∧
        ∃ p, declaration.superName = some p ∧ reader.Fails world.registry p error) := by
  obtain ⟨⟨node, found, rfl⟩, anchored⟩ := has
  have outline := ready.faithful.outline found shape
  apply (superclass_yields ready.faithful.coherent reader anchored found).imp
  · rintro parent after ⟨looks, related, later, found', settled⟩
    have persists := looks.persists ready.faithful.coherent
    have anchored' := persists.anchored anchored
    have ready' := ready.looksUp within looks
    obtain ⟨kept, found'', step⟩ := persists.get? anchored found
    obtain rfl := Option.some.inj (found'.symm.trans found'')
    rw [outline] at related
    -- The edge to the superclass is settled now, as that of a type in the middle of a walk must be.
    exact ⟨looks, related,
      ⟨ready'.faithful, ready'.base, step.name_eq ▸ ready'.settled.cons anchored' found' settled⟩,
      ⟨later, found', step.name_eq⟩, anchored'⟩
  · rintro error after ⟨looks, p, superName, fails⟩
    rw [outline] at superName
    exact ⟨looks, p, superName, fails⟩

/-- The interfaces of a type are looked up under their names. -/
theorem interfaces_named (within : reader.Within world)
    (shape : world.shape? x = some (.declared declaration))
    (ready : Ready world path base y workspace) (has : workspace.Has self x) :
    (interfaces reader self).Yields workspace
      (fun targets after => LooksUp world.registry reader (Scope.ofInterfaces self) workspace after ∧
        Ready world path base y after ∧ declaration.interfaceNames.all world.resolves = true ∧
        ∃ nameAt : NodeId → String, declaration.interfaceNames = targets.map nameAt ∧
          ∀ target ∈ targets, after.Has target (nameAt target))
      (fun error after => LooksUp world.registry reader (Scope.ofInterfaces self) workspace after ∧
        ∃ p ∈ declaration.interfaceNames, reader.Fails world.registry p error) := by
  obtain ⟨⟨node, found, rfl⟩, anchored⟩ := has
  have outline := ready.faithful.outline found shape
  apply (interfaces_yields ready.faithful.coherent reader anchored found).imp
  · rintro targets after ⟨looks, related⟩
    have ready' := ready.looksUp within looks
    rw [outline] at related
    obtain ⟨names, has⟩ := Has.map_name related
    exact ⟨looks, ready', ready'.faithful.all_resolve related, _, names, has⟩
  · rintro error after ⟨looks, p, listed, fails⟩
    rw [outline] at listed
    exact ⟨looks, p, listed, fails⟩

/-- A search beside a type goes on through its interfaces. -/
theorem beside_yields (within : reader.Within world)
    (walks : WalkYields world reader depth (x :: path) base y walk)
    (above : Above world before path x y declaration)
    (nothing : world.findAbove (world.search depth (x :: path) · y) y declaration = some false)
    (ready : Ready world (x :: path) base y workspace) (has : workspace.Has self x)
    (looks : LooksUp world.registry reader .everything before workspace)
    (pristine : ∀ inner, world.Guards path x y inner → before.Pristine inner →
      workspace.Pristine inner) :
    Yields (if world.isInterface y then do (← interfaces reader self).reverse.anyM walk
        else return false) workspace (Searched world reader before (depth + 1) path x y)
      (Stopped world reader before (depth + 1) path x y) := by
  by_cases interface : world.isInterface y = true
  · rw [if_pos interface]
    have listing (inner) (unlisted : inner ∉ declaration.interfaceNames) (id : NodeId)
        (same : (Scope.ofInterfaces self).interfaces id) :
        ∃ node, workspace.heap.get? id = some node ∧ inner ∉ node.outline.interfaceNames := by
      obtain ⟨⟨node, found, rfl⟩, -⟩ := has
      obtain rfl : id = self := same
      exact ⟨node, found, by rw [ready.faithful.outline found above.shape]; exact unlisted⟩
    refine (interfaces_named within above.shape ready has).bind
      (fun targets after h => ?_) fun error after h => ?_
    · obtain ⟨looks', ready', resolve, nameAt, named, hasTargets⟩ := h
      have wide := looks'.widen (Scope.within_everything _)
      refine Yields.anyM
        (Passing world reader before depth path x y declaration base targets nameAt) targets.reverse
        (fun passed member rest w split passing => passing_yields within walks above nothing
          interface named resolve split passing) (fun last passing => ?_) ?_
      · -- Every interface leads nowhere, so none of them is one that the walk guards.
        have fails (name) (member : name ∈ declaration.interfaceNames) :
            world.search depth (x :: path) name y = some false := by
          rw [named] at member
          obtain ⟨id, target, rfl⟩ := List.mem_map.1 member
          exact passing.failed id (List.mem_reverse.2 target)
        have unlisted (inner) (guards : world.Guards path x y inner) :
            inner ∉ declaration.interfaceNames := fun member =>
          guards.search_ne_false above.shape interface (fails inner member)
        refine ⟨passing.looksUp, ?_, fun _ inner guards =>
          passing.pristine inner guards (unlisted inner guards)⟩
        have apart : ¬ world.lists declaration y = true := by
          have sought := unlisted y ⟨interface, .inl (.self y)⟩
          simp [Universe.lists, sought]
        rw [above.search_eq, if_neg apart]
        refine Universe.climb_eq_some.2 (.inr ⟨nothing, ?_⟩)
        rw [Universe.findBeside, if_pos interface, if_pos resolve]
        exact anyM_eq_false.2 fun name member => fails name (List.mem_reverse.1 member)
      · refine ⟨ready', looks.trans wide, hasTargets,
          fun _ absurd => (List.not_mem_nil absurd).elim, fun inner guards unlisted before => ?_⟩
        exact looks'.pristine (listing inner unlisted) (pristine inner guards before)
    · obtain ⟨looks', name, listed, fails⟩ := h
      refine ⟨looks.trans (looks'.widen (Scope.within_everything _)),
        .unread (Universe.extends_interface above.shape listed) fails,
        fun serves => .inr fun found finds => ?_⟩
      rcases above.climbs_beside nothing finds with ⟨lists, rfl⟩ | ⟨-, least, -, beside⟩
      · exact ⟨rfl, above.spoilt lists⟩
      · exfalso
        rw [Universe.findBeside, if_pos interface,
          if_neg (serves.not_all_resolve fails listed)] at beside
        cases beside
  · rw [if_neg interface]
    rw [Bool.not_eq_true] at interface
    refine Yields.pure ⟨looks, ?_, fun _ => pristine⟩
    have unlisted : world.lists declaration y = false := by simp [Universe.lists, interface]
    rw [above.search_eq, unlisted]
    refine Universe.climb_eq_some.2 (.inr ⟨nothing, ?_⟩)
    simp [Universe.findBeside, interface]

/-- **A search above a type finds what the search over the names does.** -/
theorem ascend_yields (within : reader.Within world)
    (walks : WalkYields world reader depth (x :: path) base y walk)
    (above : Above world workspace path x y declaration)
    (ready : Ready world path base y workspace) (has : workspace.Has self x) :
    (ascend reader walk self (world.isInterface y)).Yields workspace
      (Searched world reader workspace (depth + 1) path x y)
      (Stopped world reader workspace (depth + 1) path x y) := by
  unfold ascend
  refine (superclass_climbs within above.shape ready has).bind
    (fun parent after h => ?_) fun error after h => ?_
  · obtain ⟨looks, related, climbing, here⟩ := h
    have wide := looks.widen (Scope.within_everything _)
    have pristine (inner) (h : workspace.Pristine inner) : after.Pristine inner :=
      looks.pristine (fun _ absurd => absurd.elim) h
    generalize superName : declaration.superName = declared at related
    cases related with
    | none =>
      have nothing : world.findAbove (world.search depth (x :: path) · y) y declaration =
          some false := by simp [Universe.findAbove, superName]
      exact beside_yields within walks above nothing climbing here wide
        fun inner _ => pristine inner
    | @some parent p hasParent =>
      have extended := Universe.extends_superName above.shape superName
      have resolves := climbing.faithful.resolves hasParent.1
      have above_eq : world.findAbove (world.search depth (x :: path) · y) y declaration =
          if p = y then some true else world.search depth (x :: path) p y :=
        Universe.findAbove_of_superName superName resolves
      refine (walks parent p after climbing hasParent).bind (fun found last h => ?_)
        fun error last h => ?_
      · have looks' := wide.trans h.looksUp
        cases found with
        | true =>
          refine Yields.pure (.of_true looks' ?_)
          rw [above.search_eq]
          split_ifs
          · rfl
          · refine Universe.climb_eq_some.2 (.inl ⟨?_, rfl⟩)
            rw [above_eq, h.answer, ite_self]
        | false =>
          have persists' := h.looksUp.persists climbing.faithful.coherent
          -- A walk from the base itself would have ended there.
          have apart : p ≠ y := by
            rintro rfl
            have answer := h.answer
            cases depth <;> simp [Universe.search] at answer
          refine beside_yields within walks above (above_eq.trans ?_)
            (climbing.looksUp within h.looksUp) (here.persists persists') looks'
            fun inner guards before => ?_
          · rw [if_neg apart, h.answer]
          · exact h.pristine rfl inner (guards.above above.shape p) (pristine inner before)
      · refine ⟨wide.trans h.looksUp, .above extended above.new h.blame, fun serves => ?_⟩
        rcases h.missed serves with deep | missed
        · exact .inl (.above extended above.new deep)
        · exact .inr (above.missed_superclass superName resolves missed pristine)
  · obtain ⟨looks, p, superName, fails⟩ := h
    refine ⟨looks.widen (Scope.within_everything _),
      .unread (Universe.extends_superName above.shape superName) fails, fun serves => .inr ?_⟩
    exact above.missed_unread superName (serves.not_resolves fails)
      (ready.faithful.resolves ready.base.1)

/-- **A search from a declared type finds what the search over the names does.** -/
theorem declared_yields (within : reader.Within world) {this that : Node}
    (walks : WalkYields world reader depth (this.name :: path) base that.name walk)
    (ready : Ready world path base that.name workspace)
    (found : workspace.heap.get? self = some this) (anchored : workspace.Anchored self)
    (foundBase : workspace.heap.get? base = some that)
    (shape : world.shape? this.name = some (.declared declaration))
    (apart : this.name ≠ that.name) :
    Yields (if this.namesDirectly that then return true
        else if path.contains this.name then throw (.cyclic this.name)
        else ascend reader walk self that.isInterface) workspace
      (Searched world reader workspace (depth + 1) path this.name that.name)
      (Stopped world reader workspace (depth + 1) path this.name that.name) := by
  have still : LooksUp world.registry reader .everything workspace workspace := .refl workspace
  have outline := ready.faithful.outline found shape
  have interface := ready.faithful.isInterface_eq foundBase
  have listed (h : world.lists declaration that.name = true) :
      that.isInterface = true ∧ that.name ∈ this.outline.interfaceNames := by
    rw [outline]
    show that.isInterface = true ∧ that.name ∈ declaration.interfaceNames
    simpa [Universe.lists, interface] using h
  by_cases direct : this.namesDirectly that = true
  · rw [if_pos direct]
    refine Yields.pure (.of_true still ?_)
    rw [Universe.search, if_neg apart, shape]
    rcases ready.of_namesDirectly found foundBase shape direct with
      ⟨lists, -⟩ | ⟨unlisted, new, superName⟩
    · simp [lists]
    · simp [unlisted, new, Universe.climb, Universe.findAbove, superName]
  · rw [if_neg direct]
    rw [Bool.not_eq_true] at direct
    have spoilt (lists : world.lists declaration that.name = true) :
        ¬ workspace.Pristine that.name := by
      obtain ⟨isInterface, member⟩ := listed lists
      obtain ⟨names, targets, resolved, member⟩ :=
        Node.resolved_of_listed direct isInterface member
      exact fun pristine => pristine self this found names targets resolved member
    by_cases seen : path.contains this.name = true
    · rw [if_pos seen]
      refine Yields.throw ⟨still, .cyclic (by simpa using seen), fun _ => .inr ?_⟩
      rintro found ⟨least, answer⟩
      cases least with
      | zero => cases answer
      | succ least =>
        rw [Universe.search, if_neg apart, shape] at answer
        simp only [seen, if_true] at answer
        split_ifs at answer with lists
        exact ⟨(Option.some.inj answer).symm, that.name, .self _,
          (Bool.and_eq_true _ _ ▸ lists).1, spoilt lists⟩
    · rw [if_neg seen, ← interface]
      have above : Above world workspace path this.name that.name declaration :=
        ⟨shape, apart, by simpa using seen, spoilt⟩
      exact ascend_yields within walks above ready ⟨⟨this, found, rfl⟩, anchored⟩

/-- A search between arrays is one between their elements. -/
theorem elements_yields {inner innerBase : String} {query : Query Bool}
    (shape : world.shape? x = some (.array inner))
    (shapeBase : world.shape? y = some (.array innerBase)) (apart : x ≠ y)
    (h : query.Yields before (Searched world reader before depth path inner innerBase)
      (Stopped world reader before depth path inner innerBase)) :
    query.Yields before (Searched world reader before (depth + 1) path x y)
      (Stopped world reader before (depth + 1) path x y) := by
  have search_eq (least) : world.search (least + 1) path x y =
      world.search least path inner innerBase := by
    rw [Universe.search, if_neg apart, shape]
    dsimp only
    rw [shapeBase]
  refine h.imp (fun result after h => ?_) fun error after h => ?_
  · refine ⟨h.looksUp, (search_eq depth).trans h.answer, fun nothing other guards => ?_⟩
    refine h.pristine nothing other ⟨guards.1, ?_⟩
    rcases guards.2 with sought | seen | nested
    · exact .inl (sought.of_array shapeBase guards.1)
    · exact .inr (.inl seen)
    · exact .inr (.inr (nested.of_array shape guards.1))
  · refine ⟨h.looksUp, .element shape h.blame, fun serves =>
      (h.missed serves).imp (.element shape) ?_⟩
    rintro missed found ⟨least, answer⟩
    cases least with
    | zero => cases answer
    | succ least =>
      obtain ⟨rfl, other, nested, spoilt⟩ :=
        missed found ⟨least, (search_eq least).symm.trans answer⟩
      exact ⟨rfl, other, .element shapeBase nested, spoilt⟩

/-- **One step of the subtype test**: it ends where it is, goes on from the elements of two arrays,
or stands at a class or interface.  What these yield the test yields. -/
theorem reaches_succ_yields {ok : Bool → Workspace → Prop}
    {failed : HierarchyError → Workspace → Prop} (ready : Ready world path base y before)
    (has : before.Has self x)
    (ends : ∀ found, world.search (depth + 1) path x y = some found →
      world.follow (depth + 1) path x y = some found → ok found before)
    (elements : ∀ element elementBase inner innerBase, x ≠ y →
      world.shape? x = some (.array inner) → world.shape? y = some (.array innerBase) →
        Ready world path elementBase innerBase before → before.Has element inner →
          (reaches reader depth path element elementBase).Yields before ok failed)
    (declared : ∀ this that declaration, before.heap.get? self = some this →
      before.heap.get? base = some that → this.name = x → that.name = y → x ≠ y →
        world.shape? x = some (.declared declaration) →
          Yields (if this.namesDirectly that then return true
              else if path.contains this.name then throw (.cyclic this.name)
              else ascend reader (reaches reader depth (this.name :: path) · base) self
                that.isInterface) before ok failed) :
    (reaches reader (depth + 1) path self base).Yields before ok failed := by
  obtain ⟨⟨this, found, rfl⟩, anchored⟩ := has
  obtain ⟨⟨that, foundBase, rfl⟩, anchoredBase⟩ := ready.base
  unfold reaches
  refine Yields.node_bind found (Yields.node_bind foundBase ?_)
  by_cases same : this.name = that.name
  · rw [if_pos (by simpa using same)]
    refine Yields.pure (ends true ?_ ?_)
    · rw [Universe.search, if_pos same]
    · rw [Universe.follow, if_pos same]
  · rw [if_neg (by simpa using same)]
    have search_eq := Universe.search.eq_2 world path this.name that.name depth
    have follow_eq := Universe.follow.eq_2 world path this.name that.name depth
    rw [if_neg same] at search_eq follow_eq
    obtain ⟨shape, shape?, shows⟩ := ready.faithful.shape found
    obtain ⟨shapeBase, shapeBase?, showsBase⟩ := ready.faithful.shape foundBase
    have standing (declaration) (h : world.shape? this.name = some (.declared declaration)) :=
      declared this that declaration found foundBase rfl rfl same h
    rw [shape?] at search_eq follow_eq
    rw [Heap.Shows] at shows showsBase
    obtain ⟨x, kind⟩ := this
    cases kind with
    | root =>
      cases shows
      exact Yields.pure (ends false search_eq follow_eq)
    | primitive =>
      cases shows
      exact Yields.pure (ends false search_eq follow_eq)
    | array element =>
      cases shows with
      | @array _ inner named =>
      dsimp only at search_eq follow_eq
      rw [shapeBase?] at search_eq follow_eq
      obtain ⟨y, kindBase⟩ := that
      cases kindBase with
      | root =>
        cases showsBase
        exact Yields.pure (ends true search_eq follow_eq)
      | primitive =>
        cases showsBase
        exact Yields.pure (ends false search_eq follow_eq)
      | declared =>
        cases showsBase
        exact Yields.pure (ends false search_eq follow_eq)
      | special =>
        cases showsBase
        exact Yields.pure (ends false search_eq follow_eq)
      | array elementBase =>
        cases showsBase with
        | @array _ innerBase namedBase =>
        have ready' : Ready world path elementBase innerBase before :=
          ⟨ready.faithful, ⟨namedBase, anchoredBase.tail ⟨_, foundBase, List.mem_cons_self⟩⟩,
            ready.settled⟩
        exact elements element elementBase inner innerBase same shape? shapeBase? ready'
          ⟨named, anchored.tail ⟨_, found, List.mem_cons_self⟩⟩
    | declared supertypes =>
      cases shows
      exact standing _ shape?
    | special supertypes =>
      cases shows
      exact standing _ shape?

/-- **The subtype test in a faithful workspace.** -/
theorem reaches_yields (within : reader.Within world) (depth : Nat) {path : List String}
    {base : NodeId} {y : String} :
    WalkYields world reader depth path base y (reaches reader depth path · base) := by
  -- The depth carries the induction; an array is left for its element with another base.
  induction depth generalizing path base y with
  | zero =>
    intro self x before ready has
    obtain ⟨⟨node, found, rfl⟩, -⟩ := has
    unfold reaches
    exact Yields.nameOf_bind found (Yields.throw
      ⟨.refl before, .spent path node.name, fun _ => .inl (.spent path node.name)⟩)
  | succ depth ih =>
    intro self x before ready has
    apply reaches_succ_yields ready has
    · intro found answer _
      exact ⟨.refl before, answer, fun _ _ _ before => before⟩
    · intro element elementBase inner innerBase apart shape shapeBase ready' hasElement
      exact elements_yields shape shapeBase apart (ih element inner before ready' hasElement)
    · rintro this that declaration found foundBase rfl rfl apart shape
      exact declared_yields within ih ready found has.2 foundBase shape apart

end Query

end ClassLattice
