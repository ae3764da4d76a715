import ClassLattice.Proofs.Operation.Transparency
import ClassLattice.Proofs.Query.Follows
import ClassLattice.Proofs.Universe.RankedList

/-!
# Questions about ancestors

There are two: what all ancestors of a type are, and whether a type descends from another.  Where
all supertypes are classes or interfaces and the reader serves them, either fails only at a type
that is its own ancestor, in whatever state the edges are.  The first fails at every such type.  The
second may find what it looks for before it comes to one.  Where there are no such types the two
questions have the same ancestors for their answers, and the first has them in the order of their
ranks.
-/

set_option autoImplicit false

namespace ClassLattice

open Relation Workspace

namespace Query

variable {world : Universe} {reader : Reader} {workspace after : Workspace} {id : NodeId}
  {name : String} {cause : Prop} {error : HierarchyError}

/-- A walk that fails is stalled, as it is never out of depth. -/
theorem Thwarted.stalled
    (h : Thwarted world reader (workspace.walkLimit reader.extent []) name cause error after)
    (serves : reader.Serves world) (bounded : reader.Bounded) (valid : workspace.Valid world)
    (named : workspace.heap.Names id name) :
    Faulted world (fun error => world.Stalls reader name error ∧ cause) error after := by
  have shallow := valid.faithful.not_deep_of_names serves bounded named
  exact ⟨h.1, ⟨_, h.2.1, shallow⟩, h.2.2 serves bounded⟩

/-- The walk in search of a name fails only where the test on resolved edges has no answer, and
answers as it does where the edges above are resolved. -/
theorem descendsOf_follows (within : reader.Within world) (serves : reader.Serves world)
    (bounded : reader.Bounded) (valid : workspace.Valid world) {base : NodeId} {baseName : String}
    (has : workspace.Has id name) (hasBase : workspace.Has base baseName) :
    Yields (do return Answer.flag (← isSubclassOf reader (← nodeWalkLimit reader) id base)) workspace
      (fun answer _ => workspace.ResolvedAbove world name →
        ∃ found depth, answer = .flag found ∧ world.follow depth [] name baseName = some found)
      fun _ _ => ∀ more, world.follow more [] name baseName = none := by
  refine Yields.nodeWalkLimit_bind ?_
  unfold isSubclassOf
  have ready : Ready world [] base baseName workspace :=
    ⟨valid.faithful, hasBase, fun _ member => (List.not_mem_nil member).elim⟩
  apply (reaches_follows within _ id name workspace ready has).bind
  · intro found after followed
    exact Yields.pure fun resolved => ⟨found, _, rfl, followed.follow resolved⟩
  · intro error after balked
    have shallow := valid.faithful.not_deep_of_names serves bounded has.1
    exact (balked serves).resolve_left shallow

end Query

namespace Operation

open Query

variable {world : Universe} {reader reader' : Reader} {workspace : Workspace}
  {target self base : Target} {a b : String} {history history' : List (Reader × Operation)}

/-! ## A walk from one name in search of another -/

/-- The question for descent is answered, or the walk is stalled.  The answer is that of the test on
resolved edges where the edges above are resolved.  A stalled walk loses nothing but an interface
that is on a resolved edge, and nothing that is found on resolved edges. -/
theorem descends_yields (within : reader.Within world) (serves : reader.Serves world)
    (bounded : reader.Bounded) (valid : workspace.Valid world)
    (named : workspace.targetName self = some a) (namedBase : workspace.targetName base = some b)
    (resolves : world.resolves a = true) (resolves' : world.resolves b = true) :
    ((descends self base).query reader).Yields workspace
      (Answered world fun answer => world.Decides a b answer ∧
        (workspace.ResolvedAbove world a →
          ∃ found depth, answer = .flag found ∧ world.follow depth [] a b = some found))
      (Faulted world fun error => world.Stalls reader a error ∧
        (∀ more, world.follow more [] a b = none) ∧
        ∀ found, world.Finds [] a b found → found = true ∧
          ∃ inner, world.Nests b inner ∧ world.isInterface inner = true ∧
            ¬ workspace.Pristine inner) := by
  apply withTarget_resolved within serves (.refl valid) self named resolves
  intro id mid serving _ has
  apply withTarget_resolved within serves serving base namedBase resolves'
  intro id' last serving' stays has'
  -- The first node is still in use under its name after the second was looked up.
  have has := stays id a has
  apply ((descendsOf_yields within serving'.valid has has').and
    (descendsOf_follows within serves bounded serving'.valid has has')).imp
  · intro answer after answered
    exact ⟨answered.1.1, answered.1.2, fun resolved =>
      answered.2 (serving'.resolved a resolved)⟩
  · intro error after failed
    obtain ⟨valid', stalls, missed⟩ := failed.1.stalled serves bounded serving'.valid has.1
    refine ⟨valid', stalls, failed.2, fun found finds => ?_⟩
    obtain ⟨same, inner, nested, interface, touched⟩ := missed found finds
    exact ⟨same, inner, nested, interface, fun pristine =>
      touched (serving'.pristine inner pristine)⟩

/-! ## Where there may be cycles -/

/-- An operation that is answered truly or fails at a cycle, carried out. -/
theorem true_or_cyclic_of_yields {operation : Operation} {truth : Answer → Prop}
    (h : (operation.query reader).Yields workspace (Answered world truth)
      (Faulted world (world.CyclicAbove a))) :
    truth (operation.perform reader workspace).1 ∨
      ∃ x, (operation.perform reader workspace).1 = .failure (.cyclic x) ∧ world.HasCycleAt a x := by
  apply perform_of_yields fun answer _ =>
    truth answer ∨ ∃ x, answer = .failure (.cyclic x) ∧ world.HasCycleAt a x
  apply h.imp
  · intro answer after answered
    exact .inl answered.2
  · intro error after faulted
    obtain ⟨x, rfl, cycle⟩ := faulted.2
    exact .inr ⟨x, rfl, cycle⟩

/-- The question for all ancestors is answered with their list, or fails at a cycle. -/
theorem perform_flatten (closed : world.Closed) (within : reader.Within world)
    (serves : reader.Serves world) (bounded : reader.Bounded) (valid : workspace.Valid world)
    (named : workspace.targetName target = some a) (isType : world.IsType a) :
    world.AncestorsAre a ((flatten target).perform reader workspace).1 ∨
      ∃ x, ((flatten target).perform reader workspace).1 = .failure (.cyclic x) ∧
        world.HasCycleAt a x := by
  apply true_or_cyclic_of_yields
  apply withTarget_resolved within serves (.refl valid) target named isType.resolves
  intro id mid serving _ has
  apply (flattenOf_yields within serving.valid has).imp
  · intro answer after answered
    exact answered
  · intro error after thwarted
    have stalled := thwarted.stalled serves bounded serving.valid has.1
    exact ⟨stalled.1, stalled.2.1.cyclicAbove closed serves isType⟩

/-- The question for descent is answered, or fails at a cycle. -/
theorem perform_descends (closed : world.Closed) (within : reader.Within world)
    (serves : reader.Serves world) (bounded : reader.Bounded) (valid : workspace.Valid world)
    (named : workspace.targetName self = some a) (namedBase : workspace.targetName base = some b)
    (isType : world.IsType a) (resolves : world.resolves b = true) :
    world.Decides a b ((descends self base).perform reader workspace).1 ∨
      ∃ x, ((descends self base).perform reader workspace).1 = .failure (.cyclic x) ∧
        world.HasCycleAt a x := by
  apply true_or_cyclic_of_yields
  have walked :=
    descends_yields within serves bounded valid named namedBase isType.resolves resolves
  apply walked.imp
  · intro answer after answered
    exact ⟨answered.1, answered.2.1⟩
  · intro error after faulted
    exact ⟨faulted.1, faulted.2.1.cyclicAbove closed serves isType⟩

/-- Whether a type descends from another is decided by whether that is above it, where metadata are
closed. -/
theorem decides_iff_above (closed : world.Closed) (isType : world.IsType a) {found : Bool}
    (decides : world.Decides a b (.flag found)) : found = true ↔ world.Above a b := by
  rw [← closed.descends_iff isType]
  obtain ⟨found', ⟨depth, finds⟩, same⟩ := decides
  obtain rfl := Answer.flag.inj same
  cases found with
  | true => exact iff_of_true rfl (Universe.descends_of_search finds)
  | false => exact iff_of_false (by simp) (Universe.not_descends_of_search finds)

/-- **Cycles are found exactly.**  After any history the question for all ancestors of a class or
interface is answered if and only if no type above it is its own ancestor, and fails otherwise at
such a type.  The question whether it descends from another fails only at such a type, and if it is
answered the answer is true. -/
theorem cycles_exact (closed : world.Closed) (capacity : Nat)
    (historyWithin : ∀ step ∈ history, step.1.Within world) (within : reader.Within world)
    (serves : reader.Serves world) (bounded : reader.Bounded) :
    let workspace := ((create capacity world.registry).run history).2
    (∀ target a, workspace.targetName target = some a → world.IsType a →
      let answer := ((flatten target).perform reader workspace).1
      ((∃ names, answer = .names names) ↔ ∀ x, ¬ world.HasCycleAt a x) ∧
        ((∃ names, answer = .names names) ∨
          ∃ x, answer = .failure (.cyclic x) ∧ world.HasCycleAt a x)) ∧
    ∀ self base a b, workspace.targetName self = some a → workspace.targetName base = some b →
      world.IsType a → world.IsType b →
      let answer := ((descends self base).perform reader workspace).1
      (∃ found, answer = .flag found ∧ (found = true ↔ world.Above a b)) ∨
        ∃ x, answer = .failure (.cyclic x) ∧ world.HasCycleAt a x := by
  intro workspace
  have valid : workspace.Valid world := (Valid.create capacity world).run historyWithin
  constructor
  · intro target a named isType answer
    rcases perform_flatten closed within serves bounded valid named isType with lists | cyclic
    · obtain ⟨names, lists, answered⟩ := lists
      refine ⟨iff_of_true ⟨names, answered⟩ ?_, .inl ⟨names, answered⟩⟩
      intro x
      exact lists.grounded.not_hasCycleAt
    · obtain ⟨x, failed, cycle⟩ := cyclic
      refine ⟨iff_of_false ?_ fun none => none x cycle, .inr ⟨x, failed, cycle⟩⟩
      rintro ⟨names, answered⟩
      have same := failed.symm.trans answered
      cases same
  · intro self base a b named namedBase isType isTypeB answer
    have told := perform_descends closed within serves bounded valid named namedBase isType
      isTypeB.resolves
    apply told.imp_left
    intro decides
    obtain ⟨found, -, answered⟩ := id decides
    exact ⟨found, answered, decides_iff_above closed isType (answered ▸ decides)⟩

/-- A class below two interfaces that extend each other, and a class that is below no cycle. -/
theorem cycles_exact_knot :
    let workspace := ((create 1 Universe.knot.registry).run
      [(Universe.knotTypes.reader, superclass (.named "demo/B"))]).2
    (∃ names, ((flatten (.named "demo/C")).perform Universe.knotTypes.reader workspace).1 =
        .names names) ∧
      ∃ x, ((flatten (.named "demo/B")).perform Universe.knotTypes.reader workspace).1 =
          .failure (.cyclic x) ∧ Universe.knot.HasCycleAt "demo/B" x := by
  have within : Universe.knotTypes.reader.Within Universe.knot :=
    Universe.within_ofTypes .empty Universe.knotTypes
  have serves : Universe.knotTypes.reader.Serves Universe.knot :=
    Universe.serves_ofTypes .empty Universe.knotTypes
  have historyWithin : ∀ step ∈ [(Universe.knotTypes.reader, superclass (.named "demo/B"))],
      step.1.Within Universe.knot := by simpa using within
  have exact := (cycles_exact Universe.closed_knot 1 historyWithin within serves
    (MetadataMap.bounded Universe.knotTypes)).1
  constructor
  · have above := exact (.named "demo/C") "demo/C" rfl (by decide)
    exact above.1.2 Universe.not_hasCycleAt_knot
  · have above := exact (.named "demo/B") "demo/B" rfl (by decide)
    refine above.2.resolve_left fun answered => ?_
    exact above.1.1 answered "demo/I" Universe.hasCycleAt_knot

/-! ## Where there are none -/

/-- **The two questions about ancestors agree.**  In a lawful universe both are answered, each after
any history of its own, and the list of all ancestors of a class or interface holds a name other
than that of the root if and only if the class or interface descends from it. -/
theorem mem_flatten_iff_descends (lawful : world.Lawful) (capacity capacity' : Nat)
    (historyWithin : ∀ step ∈ history, step.1.Within world)
    (historyWithin' : ∀ step ∈ history', step.1.Within world)
    (within : reader.Within world) (serves : reader.Serves world) (bounded : reader.Bounded)
    (within' : reader'.Within world) (serves' : reader'.Serves world) (bounded' : reader'.Bounded)
    (named : ((create capacity world.registry).run history).2.targetName target = some a)
    (namedSelf : ((create capacity' world.registry).run history').2.targetName self = some a)
    (namedBase : ((create capacity' world.registry).run history').2.targetName base = some b)
    (isType : world.IsType a) (resolves : world.resolves b = true) (notRoot : b ≠ rootName) :
    ∃ names found,
      ((flatten target).perform reader ((create capacity world.registry).run history).2).1 =
        .names names ∧
      ((descends self base).perform reader' ((create capacity' world.registry).run history').2).1 =
        .flag found ∧
      (b ∈ names ↔ found = true) := by
  have closed : world.Closed := lawful.closed
  have valid := (Valid.create capacity world).run historyWithin
  have valid' := (Valid.create capacity' world).run historyWithin'
  have noCycle (x : String) : ¬ world.HasCycleAt a x := fun cycle => lawful.acyclic x cycle.2
  obtain ⟨names, lists, listed⟩ :=
    (perform_flatten closed within serves bounded valid named isType).resolve_right
      fun ⟨x, _, cycle⟩ => noCycle x cycle
  have decides := (perform_descends closed within' serves' bounded' valid' namedSelf namedBase
    isType resolves).resolve_right fun ⟨x, _, cycle⟩ => noCycle x cycle
  obtain ⟨found, finds, answered⟩ := id decides
  refine ⟨names, found, listed, answered, ?_⟩
  rw [decides_iff_above closed isType (answered ▸ decides)]
  exact lists.mem_iff_above closed isType notRoot

/-- A class and an interface above it, after readings that failed and in a new workspace. -/
theorem mem_flatten_iff_descends_crossing :
    ∃ names found,
      ((flatten (.named "demo/A")).perform Universe.crossingTypes.reader
        ((create 1 Universe.crossing.registry).run crossingHistory).2).1 = .names names ∧
      ((descends (.named "demo/A") (.named "demo/J")).perform Universe.crossingTypes.reader
        ((create 16 Universe.crossing.registry).run []).2).1 = .flag found ∧
      ("demo/J" ∈ names ↔ found = true) := by
  have within := Universe.within_crossing
  have serves := Universe.serves_crossing
  have bounded := MetadataMap.bounded Universe.crossingTypes
  refine mem_flatten_iff_descends Universe.lawful_crossing 1 16 within_crossingHistory
    (by simp) within serves bounded within serves bounded rfl rfl rfl ?_ ?_ ?_
  · show Universe.crossing.IsType "demo/A"
    decide
  · show Universe.crossing.resolves "demo/J" = true
    decide
  · decide

/-- **All ancestors are listed by rank.**  In a lawful universe the question for all ancestors of a
class or interface is answered after any history, with its one ranked list. -/
theorem flatten_ranked (lawful : world.Lawful) (capacity : Nat)
    (historyWithin : ∀ step ∈ history, step.1.Within world) (within : reader.Within world)
    (serves : reader.Serves world) (bounded : reader.Bounded)
    (named : ((create capacity world.registry).run history).2.targetName target = some a)
    (isType : world.IsType a) :
    ∃ names,
      ((flatten target).perform reader ((create capacity world.registry).run history).2).1 =
        .names names ∧
      ∀ other, world.IsRankedList a other ↔ other = names := by
  have valid := (Valid.create capacity world).run historyWithin
  have walked := perform_flatten lawful.closed within serves bounded valid named isType
  obtain ⟨names, lists, answered⟩ := walked.resolve_right fun ⟨x, _, cycle⟩ =>
    lawful.acyclic x cycle.2
  have ranked := lists.isRankedList isType
  refine ⟨names, answered, fun other => ?_⟩
  constructor
  · intro ranked'
    exact ranked'.unique ranked
  · rintro rfl
    exact ranked

/-- A class that implements an interface and another that extends a third.  The second is stronger
than the others, which are met at different depths. -/
theorem flatten_ranked_crossing :
    let names := ["demo/B", "demo/Q", "demo/J", "demo/I", rootName]
    ((flatten (.named "demo/B")).perform Universe.crossingTypes.reader
        ((create 1 Universe.crossing.registry).run crossingHistory).2).1 = .names names ∧
      ∀ other, Universe.crossing.IsRankedList "demo/B" other ↔ other = names := by
  intro names
  have isType : Universe.crossing.IsType "demo/B" := by decide
  have named : ((create 1 Universe.crossing.registry).run crossingHistory).2.targetName
      (.named "demo/B") = some "demo/B" := rfl
  obtain ⟨answer, answered, ranked⟩ := flatten_ranked Universe.lawful_crossing 1
    within_crossingHistory Universe.within_crossing Universe.serves_crossing
    (MetadataMap.bounded Universe.crossingTypes) named isType
  obtain rfl : names = answer := (ranked names).1 (Universe.lists_crossing.isRankedList isType)
  exact ⟨answered, ranked⟩

end Operation

end ClassLattice
