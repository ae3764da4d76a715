import ClassLattice.Proofs.Query.Reaches

/-!
# The subtype test where edges are resolved

Resolving edges takes names from the subtype test that it could compare before, but never more of
them than the test on resolved edges does without.  So in any faithful workspace the subtype test
fails only for want of depth or where the test on resolved edges has no answer either.  Where every
edge above a type is resolved that can be, the two tests are one.
-/

set_option autoImplicit false

namespace ClassLattice.Query

open Workspace

variable {world : Universe} {reader : Reader} {workspace : Workspace} {path : List String}
  {self base : NodeId} {x y : String} {depth : Nat} {declaration : Declaration}
  {walk : NodeId → Query Bool}

/-- The test answered.  Where the edges above the type are resolved, it found what the test on
resolved edges finds. -/
structure Followed (world : Universe) (reader : Reader) (before : Workspace) (depth : Nat)
    (path : List String) (x y : String) (found : Bool) (after : Workspace) : Prop
    extends Searched world reader before depth path x y found after where
  follow : before.ResolvedAbove world x → world.follow depth path x y = some found

/-- The test failed.  Unless it went too deep, the test on resolved edges has no answer. -/
def Balked (world : Universe) (reader : Reader) (depth : Nat) (path : List String) (x y : String)
    (_ : HierarchyError) (_ : Workspace) : Prop :=
  reader.Serves world → world.Deep depth path x ∨ ∀ more, world.follow more path x y = none

/-- The specification of a walk that follows the test on resolved edges. -/
abbrev WalkFollows (world : Universe) (reader : Reader) (depth : Nat) (path : List String)
    (base : NodeId) (y : String) (walk : NodeId → Query Bool) : Prop :=
  ∀ parent p before, Ready world path base y before → before.Has parent p →
    (walk parent).Yields before (Followed world reader before depth path p y)
      (Balked world reader depth path p y)

/-- Interfaces on resolved edges can all be looked up. -/
theorem listsPending_eq_false {this that : Node} (faithful : workspace.Faithful world)
    (found : workspace.heap.get? self = some this) (anchored : workspace.Anchored self)
    (foundBase : workspace.heap.get? base = some that)
    (shape : world.shape? this.name = some (.declared declaration))
    (undirected : this.namesDirectly that = false) :
    world.listsPending declaration that.name = false := by
  have outline := faithful.outline found shape
  have declared : this.outline.interfaceNames = declaration.interfaceNames := by
    rw [outline]
    rfl
  cases lists : world.lists declaration that.name with
  | false => rw [Universe.listsPending, lists, Bool.false_and]
  | true =>
    obtain ⟨interface, listed⟩ := Bool.and_eq_true _ _ ▸ lists
    rw [faithful.isInterface_eq foundBase] at interface
    have listed : that.name ∈ this.outline.interfaceNames := by
      rw [declared]
      simpa using listed
    obtain ⟨names, targets, resolved, -⟩ := Node.resolved_of_listed undirected interface listed
    have has := faithful.coherent.has_interfaces anchored found resolved
    have same : declaration.interfaceNames = names :=
      declared.symm.trans (Node.interfaceNames_outline resolved)
    rw [Universe.listsPending, same, faithful.all_resolve has, Bool.not_true, Bool.and_false]

/-- What holds between two interfaces of a type while a walk goes along them. -/
structure Along (world : Universe) (before : Workspace) (depth : Nat) (path : List String)
    (x y : String) (base : NodeId) (targets : List NodeId) (nameAt : NodeId → String)
    (passed : List NodeId) (workspace : Workspace) : Prop where
  ready : Ready world (x :: path) base y workspace
  persists : Persists before workspace
  has : ∀ target ∈ targets, workspace.Has target (nameAt target)
  failed : ∀ target ∈ passed, world.search depth (x :: path) (nameAt target) y = some false
  followed : before.ResolvedAbove world x →
    ∀ target ∈ passed, world.follow depth (x :: path) (nameAt target) y = some false

/-- **The walk from the next interface follows the edges**, and leaves the others to be searched if it
finds nothing. -/
theorem along_follows (within : reader.Within world)
    (walks : WalkFollows world reader depth (x :: path) base y walk)
    (passes : world.Passes path x y declaration)
    (nothing : ∀ more,
      world.findAbove (world.follow more (x :: path) · y) y declaration ≠ some true)
    (interface : world.isInterface y = true) {targets : List NodeId} {nameAt : NodeId → String}
    (names : declaration.interfaceNames = targets.map nameAt)
    (resolve : declaration.interfaceNames.all world.resolves = true)
    {passed rest : List NodeId} {target : NodeId}
    (split : targets.reverse = passed ++ target :: rest) {w : Workspace}
    (along : Along world workspace depth path x y base targets nameAt passed w) :
    (walk target).Yields w
      (fun found after => if found then workspace.ResolvedAbove world x →
          world.findBeside (world.follow depth (x :: path) · y) y declaration = some true
        else Along world workspace depth path x y base targets nameAt (passed ++ [target]) after)
      (Balked world reader (depth + 1) path x y) := by
  have member : target ∈ targets := by
    rw [← List.mem_reverse, split]
    exact List.mem_append_right _ List.mem_cons_self
  have reversed : declaration.interfaceNames.reverse =
      passed.map nameAt ++ nameAt target :: rest.map nameAt := by
    rw [names, ← List.map_reverse, split, List.map_append, List.map_cons]
  have extended : world.Extends x (nameAt target) :=
    Universe.extends_interface passes.shape (names ▸ List.mem_map_of_mem member)
  have beside_eq (more) : world.findBeside (world.follow more (x :: path) · y) y declaration =
      (passed.map nameAt ++ nameAt target :: rest.map nameAt).anyM
        (world.follow more (x :: path) · y) := by
    rw [Universe.findBeside, if_pos interface, if_pos resolve, reversed]
  apply (walks target (nameAt target) w along.ready (along.has target member)).imp
  · intro found after h
    have follows (above : workspace.ResolvedAbove world x) :=
      h.follow ((above.uses (.inl extended)).persists along.persists)
    cases found with
    | true =>
      refine fun above => (beside_eq depth).trans (anyM_eq_true.2 ⟨_, _, _, rfl, ?_, follows above⟩)
      intro name seen
      obtain ⟨id, before, rfl⟩ := List.mem_map.1 seen
      exact along.followed above id before
    | false =>
      have persists := h.looksUp.persists along.ready.faithful.coherent
      refine ⟨along.ready.looksUp within h.looksUp, along.persists.trans persists,
        fun id listed => (along.has id listed).persists persists, ?_, fun above => ?_⟩
      · simpa [or_imp, forall_and] using ⟨along.failed, h.answer⟩
      · simpa [or_imp, forall_and] using ⟨along.followed above, follows above⟩
  · -- A walk on resolved edges passes the superclass and the same interfaces and stops beside.
    intro error after h serves
    refine (h serves).imp (.above extended passes.new) fun stops => ?_
    refine passes.follow_eq_none fun more => Universe.climb_eq_none_of_beside (nothing more) ?_
    rw [beside_eq]
    refine Universe.anyM_eq_none (fun name seen => ?_) (stops more)
    obtain ⟨id, before, rfl⟩ := List.mem_map.1 seen
    exact Universe.follow_ne_true (along.failed id before) more

/-- A search beside a type follows the edges of its interfaces. -/
theorem beside_follows (within : reader.Within world)
    (walks : WalkFollows world reader depth (x :: path) base y walk)
    (passes : world.Passes path x y declaration)
    (nothing : ∀ more,
      world.findAbove (world.follow more (x :: path) · y) y declaration ≠ some true)
    (ready : Ready world (x :: path) base y workspace) (has : workspace.Has self x) :
    Yields (if world.isInterface y then do (← interfaces reader self).reverse.anyM walk
        else return false) workspace
      (fun found _ => workspace.ResolvedAbove world x →
        world.findBeside (world.follow depth (x :: path) · y) y declaration = some found)
      (Balked world reader (depth + 1) path x y) := by
  by_cases interface : world.isInterface y = true
  · rw [if_pos interface]
    apply (interfaces_named within passes.shape ready has).bind
    · rintro targets after ⟨looks, ready', resolve, nameAt, named, hasTargets⟩
      apply Yields.anyM (Along world workspace depth path x y base targets nameAt) targets.reverse
      · intro passed member rest w split along
        exact along_follows within walks passes nothing interface named resolve split along
      · intro last along above
        rw [Universe.findBeside, if_pos interface, if_pos resolve, named, ← List.map_reverse]
        refine anyM_eq_false.2 fun name member => ?_
        obtain ⟨id, target, rfl⟩ := List.mem_map.1 member
        exact along.followed above id target
      · exact ⟨ready', looks.persists ready.faithful.coherent, hasTargets, by simp, by simp⟩
    · rintro error after ⟨-, name, listed, fails⟩ serves
      refine .inr (passes.follow_eq_none fun more =>
        Universe.climb_eq_none_of_beside (nothing more) ?_)
      rw [Universe.findBeside, if_pos interface, if_neg (serves.not_all_resolve fails listed)]
  · rw [if_neg interface]
    refine Yields.pure fun _ => ?_
    rw [Universe.findBeside, if_neg interface]

/-- A search above a type follows the edge to its superclass and those to its interfaces. -/
theorem ascend_follows (within : reader.Within world)
    (walks : WalkFollows world reader depth (x :: path) base y walk)
    (passes : world.Passes path x y declaration)
    (ready : Ready world path base y workspace) (has : workspace.Has self x) :
    (ascend reader walk self (world.isInterface y)).Yields workspace
      (fun found _ => workspace.ResolvedAbove world x →
        world.follow (depth + 1) path x y = some found)
      (Balked world reader (depth + 1) path x y) := by
  unfold ascend
  apply (superclass_climbs within passes.shape ready has).bind
  · rintro parent after ⟨looks, related, climbing, here⟩
    have persists := looks.persists ready.faithful.coherent
    generalize superName : declaration.superName = declared at related
    -- Where nothing is found by the superclass, the walk goes on beside.
    have beside {last : Workspace} (persists : Persists workspace last)
        (climbing : Ready world (x :: path) base y last) (here : last.Has self x)
        (nothing : ∀ more,
          world.findAbove (world.follow more (x :: path) · y) y declaration ≠ some true)
        (above : workspace.ResolvedAbove world x →
          world.findAbove (world.follow depth (x :: path) · y) y declaration = some false) :=
      (beside_follows within walks passes nothing climbing here).imp
        (fun found after h resolved => passes.follow_eq.trans (Universe.climb_eq_some.2
          (.inr ⟨above resolved, h (resolved.persists persists)⟩))) fun error after h => h
    cases related with
    | none =>
      have above (more) : world.findAbove (world.follow more (x :: path) · y) y declaration =
          some false := by
        simp [Universe.findAbove, superName]
      exact beside persists climbing here (fun more => by simp [above]) fun _ => above depth
    | @some parent p hasParent =>
      have extended := Universe.extends_superName passes.shape superName
      have resolves := climbing.faithful.resolves hasParent.1
      have above_eq (more) : world.findAbove (world.follow more (x :: path) · y) y declaration =
          if p = y then some true else world.follow more (x :: path) p y :=
        Universe.findAbove_of_superName superName resolves
      apply (walks parent p after climbing hasParent).bind
      · intro found last h
        have follows (above : workspace.ResolvedAbove world x) :=
          h.follow ((above.uses (.inl extended)).persists persists)
        cases found with
        | true =>
          refine Yields.pure fun above => passes.follow_eq.trans
            (Universe.climb_eq_some.2 (.inl ⟨?_, rfl⟩))
          rw [above_eq, follows above, ite_self]
        | false =>
          have persists' := h.looksUp.persists climbing.faithful.coherent
          -- A walk from the base itself would have ended there.
          have apart : p ≠ y := by
            rintro rfl
            have answer := h.answer
            cases depth <;> simp [Universe.search] at answer
          refine beside (persists.trans persists') (climbing.looksUp within h.looksUp)
            (here.persists persists') (fun more => ?_) fun above => ?_
          · rw [above_eq, if_neg apart]
            exact Universe.follow_ne_true h.answer more
          · rw [above_eq, if_neg apart, follows above]
      · intro error last h serves
        refine (h serves).imp (.above extended passes.new) fun stops => ?_
        have apart : p ≠ y := by
          rintro rfl
          have ends := stops 1
          simp [Universe.follow] at ends
        exact passes.follow_eq_none fun more =>
          Universe.climb_eq_none_of_above superName apart (stops more)
  · rintro error after ⟨-, p, superName, fails⟩ serves
    refine .inr (passes.follow_eq_none fun more => ?_)
    have lost := serves.not_resolves fails
    have apart : p ≠ y := by
      rintro rfl
      rw [ready.faithful.resolves ready.base.1] at lost
      cases lost
    simp [Universe.climb, Universe.findAbove, superName, apart, lost]

/-- **A search from a declared type follows its edges**, where pending ones are compared by name. -/
theorem declared_follows (within : reader.Within world) {this that : Node}
    (walks : WalkFollows world reader depth (this.name :: path) base that.name walk)
    (ready : Ready world path base that.name workspace)
    (found : workspace.heap.get? self = some this) (anchored : workspace.Anchored self)
    (foundBase : workspace.heap.get? base = some that)
    (shape : world.shape? this.name = some (.declared declaration))
    (apart : this.name ≠ that.name) :
    Yields (if this.namesDirectly that then return true
        else if path.contains this.name then throw (.cyclic this.name)
        else ascend reader walk self that.isInterface) workspace
      (fun found _ => workspace.ResolvedAbove world this.name →
        world.follow (depth + 1) path this.name that.name = some found)
      (Balked world reader (depth + 1) path this.name that.name) := by
  have has : workspace.Has self this.name := ⟨⟨this, found, rfl⟩, anchored⟩
  by_cases direct : this.namesDirectly that = true
  · rw [if_pos direct]
    refine Yields.pure fun above => ?_
    rw [Universe.follow, if_neg apart, shape]
    rcases ready.of_namesDirectly found foundBase shape direct with
      ⟨lists, pending⟩ | ⟨unlisted, new, superName⟩
    · have lost := above.not_all_resolve ready.faithful found has pending
      simp [Universe.listsPending, lists, lost]
    · simp [Universe.listsPending, unlisted, new, Universe.climb, Universe.findAbove, superName]
  · rw [if_neg direct]
    have followed := listsPending_eq_false ready.faithful found anchored foundBase shape
      (Bool.not_eq_true _ ▸ direct)
    by_cases seen : path.contains this.name = true
    · rw [if_pos seen]
      refine Yields.throw fun _ => .inr fun more => ?_
      cases more with
      | zero => rfl
      | succ more =>
        rw [Universe.follow, if_neg apart, shape]
        simp only [followed, seen, Bool.false_eq_true, if_false, if_true]
    · rw [if_neg seen, ← ready.faithful.isInterface_eq foundBase]
      exact ascend_follows within walks ⟨shape, apart, by simpa using seen, followed⟩ ready has

/-- **The subtype test follows the test on resolved edges.**  It fails only where that test has no
answer, and finds the same where the edges above are resolved. -/
theorem reaches_follows (within : reader.Within world) (depth : Nat) {path : List String}
    {base : NodeId} {y : String} :
    WalkFollows world reader depth path base y (reaches reader depth path · base) := by
  induction depth generalizing path base y with
  | zero =>
    intro self x before ready has
    apply (reaches_yields within 0 self x before ready has).imp
    · intro found after h
      exact absurd h.answer (by simp [Universe.search])
    · intro error after h serves
      exact .inl (.spent path x)
  | succ depth ih =>
    intro self x before ready has
    suffices follows : (reaches reader (depth + 1) path self base).Yields before
        (fun found _ => before.ResolvedAbove world x →
          world.follow (depth + 1) path x y = some found)
        (Balked world reader (depth + 1) path x y) by
      apply ((reaches_yields within (depth + 1) self x before ready has).and follows).imp
      · intro found after h
        exact ⟨h.1, h.2⟩
      · intro error after h
        exact h.2
    apply reaches_succ_yields ready has
    · intro found _ answer _
      exact answer
    · intro element elementBase inner innerBase apart shape shapeBase ready' hasElement
      have follow_eq (more) : world.follow (more + 1) path x y =
          world.follow more path inner innerBase := by
        rw [Universe.follow, if_neg apart, shape]
        dsimp only
        rw [shapeBase]
      apply (ih element inner before ready' hasElement).imp
      · intro found after h above
        exact (follow_eq depth).trans (h.follow (above.uses (.inr shape)))
      · intro error after h serves
        refine (h serves).imp (.element shape) fun stops more => ?_
        cases more with
        | zero => rfl
        | succ more => exact (follow_eq more).trans (stops more)
    · rintro this that declaration found foundBase rfl rfl apart shape
      exact declared_follows within ih ready found has.2 foundBase shape apart

end ClassLattice.Query
