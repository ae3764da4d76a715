import ClassLattice.Proofs.Query.Reaches
import ClassLattice.Proofs.Universe.Gather

/-!
# The list of ancestors in any workspace

In a faithful workspace the walk over all ancestors gathers what the walk on names gathers,
whatever edges are resolved already.  It fails only for want of depth, or where the walk on names
fails too, and its error says why.
-/

set_option autoImplicit false

namespace ClassLattice

/-- An interface among the ancestors without its node. -/
def RankedInterface.toName (ranked : RankedInterface) : RankedName :=
  ⟨ranked.name, ranked.strength, ranked.depth⟩

/-- The strength that a node has of its own is that of its declaration. -/
theorem Node.ownStrength_of_outline {node : Node} {declaration : Declaration}
    (h : node.outline = .declared declaration) : node.ownStrength = declaration.ownStrength := by
  obtain ⟨name, kind⟩ := node
  cases kind with
  | declared supertypes =>
    obtain rfl := Shape.declared.inj h
    simp [ownStrength, Declaration.ownStrength, Supertypes.declaration]
  | special supertypes =>
    obtain rfl := Shape.declared.inj h
    rfl
  | _ => cases h

namespace Workspace

variable {old new workspace : Workspace} {ancestors : Ancestors} {lineage : Lineage}

/-- The ancestors met so far are anchored, and a lineage says their names. -/
structure Reads (workspace : Workspace) (ancestors : Ancestors) (lineage : Lineage) : Prop where
  classes : List.Forall₂ workspace.Has ancestors.classes lineage.classes
  interfaces : lineage.interfaces = ancestors.interfaces.map RankedInterface.toName
  has : ∀ ranked ∈ ancestors.interfaces, workspace.Has ranked.node ranked.name

namespace Reads

/-- What was collected reads the same in whatever comes later. -/
theorem persists (h : Persists old new) (reads : old.Reads ancestors lineage) :
    new.Reads ancestors lineage :=
  ⟨reads.classes.imp fun _ _ has => has.persists h, reads.interfaces,
    fun ranked member => (reads.has ranked member).persists h⟩

/-- Nothing that was collected reads as nothing. -/
theorem empty (workspace : Workspace) : workspace.Reads {} {} :=
  ⟨.nil, rfl, fun _ member => (List.not_mem_nil member).elim⟩

/-- A class that is collected reads as its name. -/
theorem addClass {id : NodeId} {name : String} (reads : workspace.Reads ancestors lineage)
    (has : workspace.Has id name) :
    workspace.Reads (ancestors.addClass id) (lineage.addClass name) :=
  ⟨.cons has reads.classes, reads.interfaces, reads.has⟩

/-- An interface that is collected reads as its name, with its rank. -/
theorem addInterface {ranked : RankedInterface} (reads : workspace.Reads ancestors lineage)
    (has : workspace.Has ranked.node ranked.name) :
    workspace.Reads (ancestors.addInterface ranked) (lineage.addInterface ranked.toName) := by
  have same : lineage.interfaces.any (·.name == ranked.toName.name) =
      ancestors.interfaces.any (·.name == ranked.name) := by
    rw [reads.interfaces, List.any_map]
    rfl
  unfold Ancestors.addInterface Lineage.addInterface
  rw [same]
  split
  · exact reads
  · refine ⟨reads.classes, congrArg (ranked.toName :: ·) reads.interfaces, fun other member => ?_⟩
    rcases List.mem_cons.1 member with rfl | rest
    · exact has
    · exact reads.has other rest

/-- The ancestors in order have the names of the lineage in order. -/
theorem toList (reads : workspace.Reads ancestors lineage) :
    List.Forall₂ workspace.Has ancestors.toList lineage.toList := by
  have sorted : lineage.ranked =
      (ancestors.interfaces.reverse.mergeSort RankedInterface.ranksBefore).map
        RankedInterface.toName := by
    have compare (a b : RankedInterface) : a.ranksBefore b = a.toName.ranksBefore b.toName := rfl
    rw [Lineage.ranked, reads.interfaces, ← List.map_reverse]
    exact (List.map_mergeSort fun a _ b _ => compare a b).symm
  unfold Ancestors.toList Lineage.toList
  refine List.rel_append (List.rel_reverse reads.classes) ?_
  rw [sorted, List.map_map]
  have has (ranked) (member : ranked ∈
      ancestors.interfaces.reverse.mergeSort RankedInterface.ranksBefore) :
      workspace.Has ranked.node ranked.name :=
    reads.has ranked (List.mem_reverse.1 (List.mem_mergeSort.1 member))
  revert has
  generalize ancestors.interfaces.reverse.mergeSort RankedInterface.ranksBefore = sorted
  intro has
  induction sorted with
  | nil => exact .nil
  | cons head rest ih =>
    exact .cons (has head List.mem_cons_self)
      (ih fun ranked member => has ranked (List.mem_cons_of_mem _ member))

end Reads

end Workspace

namespace Query

open Workspace

variable {world : Universe} {reader : Reader} {before workspace : Workspace} {path : List String}
  {self : NodeId} {x : String} {limit depth : Nat} {onChain : Bool} {lineage : Lineage}
  {ancestors : Ancestors} {declaration : Declaration}
  {walk : NodeId → Ancestors → Query (Nat × Ancestors)}

/-- The walk gathered what the walk on names gathers. -/
structure Gathered (world : Universe) (reader : Reader) (before : Workspace) (limit : Nat)
    (path : List String) (onChain : Bool) (depth : Nat) (x : String) (lineage : Lineage)
    (found : Nat × Ancestors) (after : Workspace) : Prop where
  looksUp : LooksUp world.registry reader .everything before after
  answer : ∃ more, after.Reads found.2 more ∧
    world.gather limit path onChain depth x lineage = some (found.1, more)

/-- The walk failed with an error.  Unless it went too deep, the walk on names fails too. -/
structure Lost (world : Universe) (reader : Reader) (before : Workspace) (limit : Nat)
    (path : List String) (onChain : Bool) (depth : Nat) (x : String) (lineage : Lineage)
    (error : HierarchyError) (after : Workspace) : Prop where
  looksUp : LooksUp world.registry reader .everything before after
  blame : world.Blames reader limit path x error
  missing : reader.Serves world → world.Deep limit path x ∨
    ∀ more, world.gather more path onChain depth x lineage = none

/-- The specification of a walk that gathers from a node. -/
abbrev CollectYields (world : Universe) (reader : Reader) (limit : Nat) (path : List String)
    (onChain : Bool) (depth : Nat) (walk : NodeId → Ancestors → Query (Nat × Ancestors)) : Prop :=
  ∀ self x ancestors lineage before, before.Faithful world → before.Has self x →
    before.Reads ancestors lineage →
    (walk self ancestors).Yields before
      (Gathered world reader before limit path onChain depth x lineage)
      (Lost world reader before limit path onChain depth x lineage)

/-- The part of the walk that gathers by the interfaces of a type. -/
def collectBeside (reader : Reader) (walk : NodeId → Ancestors → Query (Nat × Ancestors))
    (self : NodeId) (this : Node) (depth : Nat) (withChain : Ancestors) :
    Query (Nat × Ancestors) := do
  let (strength, withAll) ←
    (← interfaces reader self).reverse.foldlM (fun (strength, met) parent => do
      let (more, met) ← walk parent met
      return (addStrength strength more, met)) (this.ownStrength, withChain)
  if this.isInterface then
    return (strength, withAll.addInterface ⟨self, this.name, strength, depth⟩)
  else return (0, withAll)

/-- What is known of a type when the walk gathers by its interfaces. -/
structure Chained (world : Universe) (limit : Nat) (path : List String) (onChain : Bool)
    (depth : Nat) (x : String) (declaration : Declaration) (lineage withChain : Lineage) :
    Prop where
  shape : world.shape? x = some (.declared declaration)
  new : x ∉ path
  above : world.gatherAbove (world.gather limit (x :: path) onChain (depth + 1)) declaration
    (Universe.startWith onChain x declaration lineage) = some withChain

namespace Chained

variable {withChain : Lineage}

/-- Behind the classes above a type its interfaces are gathered. -/
theorem gather_eq (h : Chained world limit path onChain depth x declaration lineage withChain)
    {more : Nat} (le : limit ≤ more) :
    world.gather (more + 1) path onChain depth x lineage =
      (world.gatherBeside (world.gather more (x :: path) false (depth + 1)) declaration
        withChain).map (Universe.finishWith depth x declaration) := by
  rw [Universe.gather_declared h.shape h.new,
    Universe.gatherAbove_mono (fun _ _ _ => Universe.gather_mono le) h.above, Option.bind_some]

/-- A type is not gathered at any depth if its interfaces are not. -/
theorem gather_eq_none (h : Chained world limit path onChain depth x declaration lineage withChain)
    (none : ∀ more, limit ≤ more →
      world.gatherBeside (world.gather more (x :: path) false (depth + 1)) declaration withChain =
        none) (more : Nat) : world.gather more path onChain depth x lineage = Option.none := by
  cases found : world.gather more path onChain depth x lineage with
  | none => rfl
  | some result =>
    have deep := Universe.gather_mono (Nat.le_succ_of_le (Nat.le_max_left more limit)) found
    rw [h.gather_eq (Nat.le_max_right more limit), none _ (Nat.le_max_right more limit)] at deep
    cases deep

end Chained

/-- What holds between two interfaces of a type while a walk gathers by them. -/
structure Summing (world : Universe) (reader : Reader) (before : Workspace) (limit : Nat)
    (path : List String) (depth : Nat) (id : NodeId) (x : String) (declaration : Declaration)
    (withChain : Lineage) (targets : List NodeId) (nameAt : NodeId → String)
    (passed : List NodeId) (sum : Nat × Ancestors) (workspace : Workspace) : Prop where
  faithful : workspace.Faithful world
  here : workspace.Has id x
  looksUp : LooksUp world.registry reader .everything before workspace
  has : ∀ target ∈ targets, workspace.Has target (nameAt target)
  sum : ∃ lineage, workspace.Reads sum.2 lineage ∧
    (passed.map nameAt).foldlM
      (Universe.gatherNext (world.gather limit (x :: path) false (depth + 1)))
      (declaration.ownStrength, withChain) = some (sum.1, lineage)

variable {withChain : Lineage}

/-- **Strengths are summed up interface by interface**, as over the names. -/
theorem summing_yields (within : reader.Within world)
    (walks : CollectYields world reader limit (x :: path) false (depth + 1) walk)
    (chained : Chained world limit path onChain depth x declaration lineage withChain)
    {targets : List NodeId} {nameAt : NodeId → String}
    (names : declaration.interfaceNames = targets.map nameAt)
    (resolve : declaration.interfaceNames.all world.resolves = true)
    {passed rest : List NodeId} {target : NodeId}
    (split : targets.reverse = passed ++ target :: rest)
    {sum : Nat × Ancestors} {w : Workspace}
    (summing : Summing world reader before limit path depth self x declaration withChain targets
      nameAt passed sum w) :
    Yields (do
        let (more, met) ← walk target sum.2
        return (addStrength sum.1 more, met)) w
      (Summing world reader before limit path depth self x declaration withChain targets nameAt
        (passed ++ [target]))
      (Lost world reader before (limit + 1) path onChain depth x lineage) := by
  have member : target ∈ targets := by
    rw [← List.mem_reverse, split]
    exact List.mem_append_right _ List.mem_cons_self
  have reversed : declaration.interfaceNames.reverse =
      passed.map nameAt ++ nameAt target :: rest.map nameAt := by
    rw [names, ← List.map_reverse, split, List.map_append, List.map_cons]
  obtain ⟨sumLineage, reads, summed⟩ := summing.sum
  refine (walks target (nameAt target) sum.2 sumLineage w summing.faithful
    (summing.has target member) reads).bind (fun found after h => ?_) fun error after h => ?_
  · have persists := h.looksUp.persists summing.faithful.coherent
    obtain ⟨more, reads', gathered⟩ := h.answer
    refine Yields.pure ⟨h.looksUp.faithful within summing.faithful,
      summing.here.persists persists, summing.looksUp.trans h.looksUp,
      fun id member => (summing.has id member).persists persists, more, reads', ?_⟩
    rw [List.map_append, List.foldlM_append, summed]
    simp [Universe.gatherNext, gathered]
  · -- Whatever limit the walk on names is given, it fails at this interface too.
    have listed : nameAt target ∈ declaration.interfaceNames :=
      names ▸ List.mem_map_of_mem member
    have extended := Universe.extends_interface chained.shape listed
    refine ⟨summing.looksUp.trans h.looksUp, .above extended chained.new h.blame,
      fun serves => ?_⟩
    rcases h.missing serves with deep | missing
    · exact .inl (.above extended chained.new deep)
    · refine .inr (chained.gather_eq_none fun more le => ?_)
      have before := foldlM_mono (fun parent _ sum next => Universe.gatherNext_mono
        (fun _ _ _ => Universe.gather_mono le)) summed
      rw [Universe.gatherBeside, if_pos resolve, reversed, List.foldlM_append, before]
      simp [Universe.gatherNext, missing more]

/-- **What is beside a type is collected** as over the names. -/
theorem collectBeside_yields (within : reader.Within world) {this : Node}
    (walks : CollectYields world reader limit (this.name :: path) false (depth + 1) walk)
    (chained : Chained world limit path onChain depth this.name declaration lineage withChain)
    (faithful : workspace.Faithful world) (has : workspace.Has self this.name)
    (outline : this.outline = .declared declaration) (reads : workspace.Reads ancestors withChain)
    (looks : LooksUp world.registry reader .everything before workspace) :
    (collectBeside reader walk self this depth ancestors).Yields workspace
      (Gathered world reader before (limit + 1) path onChain depth this.name lineage)
      (Lost world reader before (limit + 1) path onChain depth this.name lineage) := by
  have here := has
  obtain ⟨⟨node, found, same⟩, anchored⟩ := has
  have outline' : node.outline = .declared declaration :=
    faithful.outline found (same ▸ chained.shape)
  have interface : this.isInterface = declaration.isInterface := by
    rw [Node.isInterface_eq_outline, outline]
    rfl
  unfold collectBeside
  refine (interfaces_yields faithful.coherent reader anchored found).bind
    (fun targets after h => ?_) fun error after h => ?_
  · obtain ⟨looks', related⟩ := h
    have persists := looks'.persists faithful.coherent
    have faithful' := looks'.faithful within faithful
    rw [outline'] at related
    obtain ⟨names, hasAll⟩ := Has.map_name related
    have named : declaration.interfaceNames = _ := names
    have resolve : declaration.interfaceNames.all world.resolves = true :=
      faithful'.all_resolve related
    rw [Node.ownStrength_of_outline outline]
    refine Yields.bind (Yields.foldlM
      (Summing world reader before limit path depth self this.name declaration withChain targets
        fun id => (after.heap.node id).name) targets.reverse (declaration.ownStrength, ancestors)
      (fun passed member rest sum w split summing => summing_yields within walks chained named
        resolve split summing) (fun _ _ h => h)
      ⟨faithful', here.persists persists, looks.trans (looks'.widen (Scope.within_everything _)),
        hasAll, withChain, reads.persists persists, rfl⟩) ?_ fun _ _ h => h
    rintro ⟨strength, withAll⟩ last summing
    obtain ⟨more, readsAll, summed⟩ := summing.sum
    have gathered : world.gather (limit + 1) path onChain depth this.name lineage =
        some (Universe.finishWith depth this.name declaration (strength, more)) := by
      rw [chained.gather_eq (Nat.le_refl limit), Universe.gatherBeside, if_pos resolve, named,
        ← List.map_reverse, summed]
      rfl
    dsimp only
    by_cases isInterface : declaration.isInterface = true
    · rw [interface, if_pos isInterface]
      refine Yields.pure ⟨summing.looksUp, _, readsAll.addInterface summing.here, gathered.trans ?_⟩
      rw [Universe.finishWith, if_pos isInterface]
      rfl
    · rw [interface, if_neg isInterface]
      refine Yields.pure ⟨summing.looksUp, more, readsAll, gathered.trans ?_⟩
      rw [Universe.finishWith, if_neg isInterface]
  · obtain ⟨looks', name, listed, fails⟩ := h
    rw [outline'] at listed
    have listed : name ∈ declaration.interfaceNames := listed
    refine ⟨looks.trans (looks'.widen (Scope.within_everything _)),
      .unread (Universe.extends_interface chained.shape listed) fails, fun serves => .inr ?_⟩
    refine chained.gather_eq_none fun more _ => ?_
    rw [Universe.gatherBeside, if_neg (serves.not_all_resolve fails listed)]

/-- The part of the walk that gathers above a class or interface. -/
def collectAbove (reader : Reader) (chain beside : NodeId → Ancestors → Query (Nat × Ancestors))
    (self : NodeId) (this : Node) (depth : Nat) (withSelf : Ancestors) :
    Query (Nat × Ancestors) := do
  let withChain ←
    match ← superclass reader self with
    | some parent => Prod.snd <$> chain parent withSelf
    | none => pure withSelf
  collectBeside reader beside self this depth withChain

/-- What is above a type is collected, the classes first and then what is beside it. -/
theorem collectAbove_yields (within : reader.Within world) {this : Node}
    {chain beside : NodeId → Ancestors → Query (Nat × Ancestors)}
    (chains : CollectYields world reader limit (this.name :: path) onChain (depth + 1) chain)
    (besides : CollectYields world reader limit (this.name :: path) false (depth + 1) beside)
    (shape : world.shape? this.name = some (.declared declaration)) (new : this.name ∉ path)
    (faithful : workspace.Faithful world) (has : workspace.Has self this.name)
    (outline : this.outline = .declared declaration)
    (reads : workspace.Reads ancestors
      (Universe.startWith onChain this.name declaration lineage)) :
    (collectAbove reader chain beside self this depth ancestors).Yields workspace
      (Gathered world reader workspace (limit + 1) path onChain depth this.name lineage)
      (Lost world reader workspace (limit + 1) path onChain depth this.name lineage) := by
  have here := has
  obtain ⟨⟨node, found, same⟩, anchored⟩ := has
  have outline' := faithful.outline found (same ▸ shape)
  -- Where nothing is gathered by the superclass, nothing is gathered at all.
  have lost (missing : ∀ more, world.gatherAbove
      (world.gather more (this.name :: path) onChain (depth + 1)) declaration
      (Universe.startWith onChain this.name declaration lineage) = none) (more : Nat) :
      world.gather more path onChain depth this.name lineage = none := by
    cases more with
    | zero => rfl
    | succ more => rw [Universe.gather_declared shape new, missing more, Option.bind_none]
  unfold collectAbove
  refine (superclass_yields faithful.coherent reader anchored found).bind
    (fun parent after h => ?_) fun error after h => ?_
  · obtain ⟨looks, related, -⟩ := h
    have wide := looks.widen (Scope.within_everything _)
    have persists := looks.persists faithful.coherent
    have faithful' := looks.faithful within faithful
    rw [outline'] at related
    generalize superName : (Shape.declared declaration : Shape NodeId).superName = declared
      at related
    have superName : declaration.superName = declared := superName
    cases related with
    | none =>
      have chained : Chained world limit path onChain depth this.name declaration lineage _ :=
        ⟨shape, new, by rw [Universe.gatherAbove, superName]⟩
      exact collectBeside_yields within besides chained faithful' (here.persists persists) outline
        (reads.persists persists) wide
    | @some parent p hasParent =>
      have resolves := faithful'.resolves hasParent.1
      have extended := Universe.extends_superName shape superName
      have walks : (Prod.snd <$> chain parent ancestors).Yields after
          (fun withChain last => LooksUp world.registry reader .everything after last ∧
            ∃ more, last.Reads withChain more ∧
              Chained world limit path onChain depth this.name declaration lineage more)
          (Lost world reader after limit (this.name :: path) onChain (depth + 1) p
            (Universe.startWith onChain this.name declaration lineage)) := by
        refine Yields.map ((chains parent p ancestors _ after faithful' hasParent
          (reads.persists persists)).imp (fun found last h => ?_) fun _ _ h => h)
        obtain ⟨more, reads', gathered⟩ := h.answer
        refine ⟨h.looksUp, more, reads', shape, new, ?_⟩
        simp only [Universe.gatherAbove, superName, resolves, if_true, gathered, Option.map_some]
      refine walks.bind (fun withChain last h => ?_) fun error last h => ?_
      · obtain ⟨looks', more, reads', chained⟩ := h
        have persists' := looks'.persists faithful'.coherent
        exact collectBeside_yields within besides chained (looks'.faithful within faithful')
          ((here.persists persists).persists persists') outline reads' (wide.trans looks')
      · refine ⟨wide.trans h.looksUp, .above extended new h.blame, fun serves => ?_⟩
        rcases h.missing serves with deep | missing
        · exact .inl (.above extended new deep)
        · refine .inr (lost fun more => ?_)
          simp [Universe.gatherAbove, superName, missing more]
  · obtain ⟨looks, p, superName, fails⟩ := h
    rw [outline'] at superName
    have superName : declaration.superName = some p := superName
    refine ⟨looks.widen (Scope.within_everything _),
      .unread (Universe.extends_superName shape superName) fails,
      fun serves => .inr (lost fun more => ?_)⟩
    simp [Universe.gatherAbove, superName, serves.not_resolves fails]

/-- **A declared type is collected with all that is above it** as over its name. -/
theorem collectDeclared_yields (within : reader.Within world) {this : Node}
    {chain beside : NodeId → Ancestors → Query (Nat × Ancestors)}
    (chains : CollectYields world reader limit (this.name :: path) onChain (depth + 1) chain)
    (besides : CollectYields world reader limit (this.name :: path) false (depth + 1) beside)
    (shape : world.shape? this.name = some (.declared declaration))
    (faithful : workspace.Faithful world) (found : workspace.heap.get? self = some this)
    (anchored : workspace.Anchored self) (reads : workspace.Reads ancestors lineage) :
    Yields (if path.contains this.name then throw (.cyclic this.name)
        else collectAbove reader chain beside self this depth
          (if onChain && !this.isInterface then ancestors.addClass self else ancestors)) workspace
      (Gathered world reader workspace (limit + 1) path onChain depth this.name lineage)
      (Lost world reader workspace (limit + 1) path onChain depth this.name lineage) := by
  have here : workspace.Has self this.name := ⟨⟨this, found, rfl⟩, anchored⟩
  have outline := faithful.outline found shape
  by_cases seen : path.contains this.name = true
  · rw [if_pos seen]
    refine Yields.throw ⟨.refl workspace, .cyclic (by simpa using seen), fun _ => .inr ?_⟩
    intro more
    cases more with
    | zero => rfl
    | succ more =>
      rw [Universe.gather, shape]
      simp only [seen, if_true]
  · rw [if_neg seen]
    refine collectAbove_yields within chains besides shape (by simpa using seen) faithful here
      outline ?_
    have interface : this.isInterface = declaration.isInterface := by
      rw [Node.isInterface_eq_outline, outline]
      rfl
    rw [interface, Universe.startWith]
    split
    · exact reads.addClass here
    · exact reads

/-- **The walk over all ancestors in a faithful workspace.** -/
theorem collect_yields (within : reader.Within world) (limit : Nat) {path : List String}
    {onChain : Bool} {depth : Nat} :
    CollectYields world reader limit path onChain depth
      (collect reader limit path onChain depth) := by
  induction limit generalizing path onChain depth with
  | zero =>
    intro self x ancestors lineage before faithful has reads
    obtain ⟨⟨node, found, rfl⟩, -⟩ := has
    unfold collect
    exact Yields.nameOf_bind found (Yields.throw
      ⟨.refl before, .spent path node.name, fun _ => .inl (.spent path node.name)⟩)
  | succ limit ih =>
    intro self x ancestors lineage before faithful has reads
    obtain ⟨⟨this, found, rfl⟩, anchored⟩ := has
    obtain ⟨shape, shape?, shows⟩ := faithful.shape found
    have still : LooksUp world.registry reader .everything before before := .refl before
    have ends (h : world.gather (limit + 1) path onChain depth this.name lineage =
        some (0, lineage)) : Gathered world reader before (limit + 1) path onChain depth this.name
        lineage (0, ancestors) before := ⟨still, lineage, reads, h⟩
    have declared (declaration) (h : world.shape? this.name = some (.declared declaration)) :=
      collectDeclared_yields within (@ih (this.name :: path) onChain (depth + 1))
        (@ih (this.name :: path) false (depth + 1)) h faithful found anchored reads
    unfold collect
    refine Yields.node_bind found ?_
    rw [Heap.Shows] at shows
    obtain ⟨x, kind⟩ := this
    cases kind with
    | root =>
      cases shows
      exact Yields.pure (ends (by rw [Universe.gather, shape?]))
    | primitive =>
      cases shows
      exact Yields.pure (ends (by rw [Universe.gather, shape?]))
    | array =>
      cases shows
      exact Yields.pure (ends (by rw [Universe.gather, shape?]))
    | declared supertypes =>
      cases shows
      exact declared _ shape?
    | special supertypes =>
      cases shows
      exact declared _ shape?

/-- The names of nodes in use are the names under which they are in use. -/
theorem mapM_nameOf_yields {ids : List NodeId} {names : List String}
    (h : List.Forall₂ workspace.Has ids names) :
    (ids.mapM nameOf).Yields workspace (fun found after => found = names ∧ after = workspace)
      fun _ _ => False := by
  induction h with
  | nil => exact ⟨rfl, rfl⟩
  | @cons id name ids names has _ ih =>
    obtain ⟨⟨node, found, rfl⟩, -⟩ := has
    rw [List.mapM_cons]
    refine Yields.nameOf_bind found (ih.bind ?_ fun _ _ h => h)
    rintro names after ⟨rfl, rfl⟩
    exact Yields.pure ⟨rfl, rfl⟩

/-- The list has the names of the list on names. -/
structure Listed (world : Universe) (reader : Reader) (before : Workspace) (limit : Nat)
    (x : String) (found : List NodeId) (after : Workspace) : Prop where
  looksUp : LooksUp world.registry reader .everything before after
  answer : ∃ names, world.flatten limit x = some names ∧ List.Forall₂ after.Has found names

/-- There is no list.  Unless the walk went too deep, there is none on names. -/
structure Unlisted (world : Universe) (reader : Reader) (before : Workspace) (limit : Nat)
    (x : String) (error : HierarchyError) (after : Workspace) : Prop where
  looksUp : LooksUp world.registry reader .everything before after
  blame : world.Blames reader limit [] x error
  missing : reader.Serves world → world.Deep limit [] x ∨ ∀ more, world.flatten more x = none

/-- **All ancestors in a faithful workspace** are those on names, in the same order. -/
theorem flatten_yields (within : reader.Within world) (limit : Nat)
    (faithful : workspace.Faithful world) (has : workspace.Has self x) :
    (flatten reader limit self).Yields workspace (Listed world reader workspace limit x)
      (Unlisted world reader workspace limit x) := by
  have here := has
  obtain ⟨⟨this, found, rfl⟩, anchored⟩ := has
  obtain ⟨shape, shape?, shows⟩ := faithful.shape found
  have still : LooksUp world.registry reader .everything workspace workspace := .refl workspace
  have root := faithful.coherent.has_root
  have declared (declaration) (h : world.shape? this.name = some (.declared declaration)) :
      Yields (do
          let (_, ancestors) ← collect reader limit [] true 0 self {}
          return ancestors.toList ++ [workspace.store.root]) workspace
        (Listed world reader workspace limit this.name)
        (Unlisted world reader workspace limit this.name) := by
    refine (collect_yields within limit self this.name {} {} workspace faithful here
      (.empty workspace)).bind ?_ fun error after h => ⟨h.looksUp, h.blame, fun serves => ?_⟩
    · rintro ⟨strength, ancestors⟩ after gathered
      obtain ⟨lineage, reads, answer⟩ := gathered.answer
      have persists := gathered.looksUp.persists faithful.coherent
      refine Yields.pure ⟨gathered.looksUp, lineage.toList ++ [rootName], ?_,
        List.rel_append reads.toList (.cons (root.persists persists) .nil)⟩
      rw [Universe.flatten, h]
      simp only [answer, Option.map_some]
    · refine (h.missing serves).imp_right fun missing more => ?_
      rw [Universe.flatten, ‹world.shape? this.name = some (.declared declaration)›]
      simp only [missing more, Option.map_none]
  unfold flatten
  refine Yields.get_bind (Yields.node_bind found ?_)
  rw [Heap.Shows] at shows
  obtain ⟨x, kind⟩ := this
  cases kind with
  | root =>
    cases shows
    exact Yields.pure ⟨still, [x], by rw [Universe.flatten, shape?], .cons here .nil⟩
  | primitive =>
    cases shows
    exact Yields.pure ⟨still, [x], by rw [Universe.flatten, shape?], .cons here .nil⟩
  | array =>
    cases shows
    exact Yields.pure ⟨still, [x, rootName], by rw [Universe.flatten, shape?],
      .cons here (.cons root .nil)⟩
  | declared supertypes =>
    cases shows
    exact declared _ shape?
  | special supertypes =>
    cases shows
    exact declared _ shape?

end Query

end ClassLattice
