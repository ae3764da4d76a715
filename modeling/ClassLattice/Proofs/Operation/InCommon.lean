import ClassLattice.Proofs.Operation.Transparency
import ClassLattice.Proofs.Query.Recalls
import ClassLattice.Proofs.Universe.Absorption
import ClassLattice.Proofs.Universe.Arrays
import ClassLattice.Proofs.Universe.Markers

/-!
# What two types are said to have in common

In a lawful universe the answer to the question what two types have in common is a type to which
both can be assigned, whatever was asked before.  In a new workspace it is most specific in
universes shaped as class files are, it is known for which types it depends on their order, and
arrays are merged by their layers and leaves.
Where the two share interfaces and no class, the answer is a strongest interface, and so a marker
only if that extends an ordinary interface.
-/

set_option autoImplicit false

namespace ClassLattice

namespace Operation

open Relation Workspace

variable {world : Universe} {reader server server' checker : Reader} {workspace : Workspace}
  {a b c : String}

/-! ## In a new workspace -/

/-- In a new workspace two types are said to have in common what they have in the order given. -/
theorem exists_fresh_common (lawful : world.Lawful) (within : server.Within world)
    (serves : server.Serves world) (bounded : server.Bounded) (capacity : Nat)
    (resolvesA : world.resolves a = true) (resolvesB : world.resolves b = true) :
    ∃ c, fresh server capacity world.registry (commonSuperclass a b) = .text c ∧
      world.Meets a b c := by
  have spans := (Valid.create capacity world).faithful.spans serves bounded
  obtain ⟨c, meets⟩ := lawful.exists_meets spans resolvesA resolvesB
  exact ⟨c, (complete_fresh within serves bounded capacity).common_eq meets, meets⟩

/-- **When the order of two classes or interfaces does not matter** in new workspaces. -/
theorem fresh_common_comm_iff (lawful : world.Lawful) (within : server.Within world)
    (serves : server.Serves world) (bounded : server.Bounded) (within' : server'.Within world)
    (serves' : server'.Serves world) (bounded' : server'.Bounded) (capacity capacity' : Nat)
    (isTypeA : world.IsType a) (isTypeB : world.IsType b) :
    fresh server capacity world.registry (commonSuperclass a b) =
        fresh server' capacity' world.registry (commonSuperclass b a) ↔
      world.OrderFree a b := by
  have spans := (Valid.create capacity world).faithful.spans serves bounded
  obtain ⟨c, answer, meets⟩ := exists_fresh_common lawful within serves bounded capacity
    isTypeA.resolves isTypeB.resolves
  obtain ⟨c', answer', meets'⟩ := exists_fresh_common lawful within' serves' bounded' capacity'
    isTypeB.resolves isTypeA.resolves
  rw [answer, answer', Answer.text.injEq]
  exact lawful.meets_eq_iff spans isTypeA isTypeB meets meets'

/-- Two classes that share two interfaces are said to have one of them in common in one order and
the other in the other. -/
theorem fresh_common_ne_crossing :
    fresh Universe.crossingTypes.reader 16 Universe.crossing.registry
        (commonSuperclass "demo/A" "demo/B") ≠
      fresh Universe.crossingTypes.reader 16 Universe.crossing.registry
        (commonSuperclass "demo/B" "demo/A") := by
  have within := Universe.within_crossing
  have serves := Universe.serves_crossing
  have bounded := MetadataMap.bounded Universe.crossingTypes
  have iff := fresh_common_comm_iff Universe.lawful_crossing within serves bounded within serves
    bounded 16 16 (show Universe.crossing.IsType "demo/A" by decide)
    (show Universe.crossing.IsType "demo/B" by decide)
  exact fun same => Universe.not_orderFree_crossing (iff.1 same)

/-- **What two classes or interfaces are said to have in common is most specific.** -/
theorem fresh_common_mostSpecific (lawful : world.Lawful) (shaped : world.ClassShaped)
    (moderate : world.Moderate) (within : server.Within world) (serves : server.Serves world)
    (bounded : server.Bounded) (capacity : Nat) (isTypeA : world.IsType a)
    (isTypeB : world.IsType b) :
    ∃ c, fresh server capacity world.registry (commonSuperclass a b) = .text c ∧
      world.MostSpecific a b c := by
  have spans := (Valid.create capacity world).faithful.spans serves bounded
  obtain ⟨c, answer, meets⟩ := exists_fresh_common lawful within serves bounded capacity
    isTypeA.resolves isTypeB.resolves
  exact ⟨c, answer, lawful.mostSpecific spans shaped moderate isTypeA isTypeB meets⟩

/-- Crossing interfaces do not keep the answer from being most specific. -/
theorem fresh_common_mostSpecific_crossing :
    ∃ c, fresh Universe.crossingTypes.reader 16 Universe.crossing.registry
        (commonSuperclass "demo/A" "demo/B") = .text c ∧
      Universe.crossing.MostSpecific "demo/A" "demo/B" c :=
  fresh_common_mostSpecific Universe.lawful_crossing Universe.classShaped_crossing
    Universe.moderate_crossing Universe.within_crossing
    Universe.serves_crossing
    (MetadataMap.bounded Universe.crossingTypes) 16
    (show Universe.crossing.IsType "demo/A" by decide)
    (show Universe.crossing.IsType "demo/B" by decide)

/-- **Arrays are merged by the rule for arrays** in new workspaces, in which two leaves have one type
in common: two arrays have in common what the rule makes of that type, of the leaves and of the
numbers of layers around them, and an array and a type that is none have the root in common. -/
theorem fresh_common_arrays (lawful : world.Lawful) (wellNamed : world.WellNamed)
    (within : server.Within world) (serves : server.Serves world) (bounded : server.Bounded)
    {x y : FieldType} (isLeaf : world.IsLeaf x) (isLeaf' : world.IsLeaf y) :
    ∃ shared, ∀ capacity,
      let answers := fun a b => fresh server capacity world.registry (commonSuperclass a b)
      answers x.internalName y.internalName = .text shared ∧
      (∀ m n, 0 < m → 0 < n →
        answers (x.arrays m).internalName (y.arrays n).internalName =
          .text (FieldType.arraysInCommon shared m x n y).internalName) ∧
      ∀ m, 0 < m →
        answers (x.arrays m).internalName y.internalName = .text rootName ∧
        answers x.internalName (y.arrays m).internalName = .text rootName := by
  have spans := (Valid.create 0 world).faithful.spans serves bounded
  obtain ⟨shared, shares⟩ := lawful.exists_meets spans (isLeaf.resolves_arrays wellNamed 0)
    (isLeaf'.resolves_arrays wellNamed 0)
  refine ⟨shared, fun capacity => ?_⟩
  have complete := complete_fresh within serves bounded capacity
  refine ⟨complete.common_eq shares, fun m n positive positive' => ?_, fun m positive => ?_⟩
  · obtain ⟨m, rfl⟩ := Nat.exists_eq_succ_of_ne_zero (Nat.ne_of_gt positive)
    obtain ⟨n, rfl⟩ := Nat.exists_eq_succ_of_ne_zero (Nat.ne_of_gt positive')
    exact complete.common_eq (lawful.meets_arrays spans wellNamed isLeaf isLeaf' shares m n)
  · obtain ⟨m, rfl⟩ := Nat.exists_eq_succ_of_ne_zero (Nat.ne_of_gt positive)
    exact ⟨complete.common_eq (lawful.meets_array_leaf spans wellNamed isLeaf isLeaf' m).1,
      complete.common_eq (lawful.meets_array_leaf spans wellNamed isLeaf' isLeaf m).2⟩

/-- Arrays of two classes, of one depth and of two, and an array of a primitive type. -/
theorem fresh_common_arrays_crossing :
    ∃ c, fresh Universe.crossingTypes.reader 16 Universe.crossing.registry
        (commonSuperclass "demo/A" "demo/B") = .text c ∧
      fresh Universe.crossingTypes.reader 16 Universe.crossing.registry
        (commonSuperclass "[[Ldemo/A;" "[[Ldemo/B;") =
          .text ((FieldType.object c).arrays 2).internalName ∧
      fresh Universe.crossingTypes.reader 16 Universe.crossing.registry
        (commonSuperclass "[[Ldemo/A;" "[Ldemo/B;") = .text "[Ljava/lang/Object;" ∧
      fresh Universe.crossingTypes.reader 16 Universe.crossing.registry
        (commonSuperclass "[[I" "[[[Ldemo/A;") = .text "[Ljava/lang/Object;" := by
  have bounded := MetadataMap.bounded Universe.crossingTypes
  have merges {x y : FieldType} := fresh_common_arrays Universe.lawful_crossing
    Universe.wellNamed_crossing Universe.within_crossing Universe.serves_crossing bounded
    (x := x) (y := y)
  have isLeafA : Universe.crossing.IsLeaf (.object "demo/A") :=
    .object (show Universe.crossing.IsType "demo/A" by decide)
  have isLeafB : Universe.crossing.IsLeaf (.object "demo/B") :=
    .object (show Universe.crossing.IsType "demo/B" by decide)
  obtain ⟨c, classes⟩ := merges isLeafA isLeafB
  obtain ⟨d, mixed⟩ := merges (.base .int) isLeafA
  refine ⟨c, (classes 16).1, ?_, ?_, ?_⟩
  · exact (classes 16).2.1 2 2 (by decide) (by decide)
  · exact (classes 16).2.1 2 1 (by decide) (by decide)
  · exact (mixed 16).2.1 2 3 (by decide) (by decide)

/-! ## After any history -/

/-- What two types are said to have in common is shared by them and kept for them. -/
theorem shares_and_kept_of_perform (within : reader.Within world) (valid : workspace.Valid world)
    (answer : ((commonSuperclass a b).perform reader workspace).1 = .text c) :
    world.Shares a b c ∧
      ((commonSuperclass a b).perform reader workspace).2.caches.answers.answer? a b = some c := by
  refine perform_of_yields (fun answer after => answer = .text c → world.Shares a b c ∧
    after.caches.answers.answer? a b = some c) ?_ answer
  refine (Query.commonSuperclass_yields within valid a b).bind (fun found after h => ?_)
    fun error after _ same => nomatch same
  refine Query.Yields.pure fun same => ?_
  obtain rfl := Answer.text.inj same
  exact ⟨h.1.meets, h.2⟩

/-- **A type that another absorbs, or that is kept for the two, can be assigned to.** -/
theorem perform_isSubclass_of_absorbs (lawful : world.Lawful) (within : reader.Within world)
    (serves : reader.Serves world) (bounded : reader.Bounded) (valid : workspace.Valid world)
    (resolvesA : world.resolves a = true) (resolvesC : world.resolves c = true)
    (h : world.Absorbs a c ∨ workspace.caches.answers.answer? a c = some c) :
    ((isSubclass a c).perform reader workspace).1 = .flag true := by
  obtain ⟨found, answer, shares, kept⟩ :=
    perform_isSubclass lawful within serves bounded valid resolvesA resolvesC
  have same : found = c := h.elim (fun absorbs => absorbs found shares) (kept c)
  rw [answer, same, beq_self_eq_true]

/-- **What two types are said to have in common is a supertype of both.**  As long as the answers
are not cleared, each of the two can be assigned to it, and it can be looked up. -/
theorem isSubclass_of_common (lawful : world.Lawful) (wellNamed : world.WellNamed)
    (capacity : Nat) {history later : List (Reader × Operation)}
    (historyWithin : ∀ step ∈ history, step.1.Within world) (within : reader.Within world)
    (laterWithin : ∀ step ∈ later, step.1.Within world)
    (keeping : ∀ step ∈ later, step.2 ≠ .clearAnswers)
    (checkerWithin : checker.Within world) (serves : checker.Serves world)
    (bounded : checker.Bounded)
    (answer : ((commonSuperclass a b).perform reader
      ((create capacity world.registry).run history).2).1 = .text c) :
    let after := (((commonSuperclass a b).perform reader
      ((create capacity world.registry).run history).2).2.run later).2
    ((isSubclass a c).perform checker after).1 = .flag true ∧
      ((isSubclass b c).perform checker after).1 = .flag true ∧
        ∃ view, ((inspect (.named c)).perform checker after).1 = .node view ∧ view.name = c := by
  intro after
  have valid := (Valid.create capacity world).run historyWithin
  have validAfter : after.Valid world :=
    (valid_perform within valid (commonSuperclass a b)).run laterWithin
  obtain ⟨shares, kept⟩ := shares_and_kept_of_perform within valid answer
  have keptAfter : after.caches.answers.answer? a b = some c :=
    recalls_run keeping _ a b c kept
  obtain ⟨resolvesA, resolvesB⟩ := shares.resolves
  have check {x : String} (resolves : world.resolves x = true)
      (resolvesC : world.resolves c = true) :=
    perform_isSubclass_of_absorbs (a := x) (c := c) lawful checkerWithin serves bounded validAfter
      resolves resolvesC
  have spans := validAfter.faithful.spans serves bounded
  have look (resolvesC : world.resolves c = true) :=
    perform_inspect checkerWithin serves bounded validAfter resolvesC
  -- Two spellings of one array descend from each other, so where the answer is one of the two
  -- it is the kept answer that decides; any other answer is absorbed whatever is kept.
  rcases lawful.cases_of_shares spans wellNamed shares with ⟨rfl, -⟩ | ⟨rfl, -⟩ | bounds
  · rw [PairMemo.answer?_comm] at keptAfter
    exact ⟨check resolvesA resolvesA (.inl (Universe.absorbs_self c)),
      check resolvesB resolvesA (.inr keptAfter), look resolvesA⟩
  · exact ⟨check resolvesA resolvesB (.inr keptAfter),
      check resolvesB resolvesB (.inl (Universe.absorbs_self c)), look resolvesB⟩
  · exact ⟨check resolvesA bounds.resolves (.inl bounds.first),
      check resolvesB bounds.resolves (.inl bounds.second), look bounds.resolves⟩

/-- Two array types in the universe of crossing interfaces, after readings that failed. -/
theorem isSubclass_of_common_crossing :
    ∃ c, ((commonSuperclass "[Ldemo/A;" "[Ldemo/B;").perform Universe.crossingTypes.reader
        ((create 1 Universe.crossing.registry).run crossingHistory).2).1 = .text c ∧
      ((isSubclass "[Ldemo/A;" c).perform Universe.crossingTypes.reader
        ((((commonSuperclass "[Ldemo/A;" "[Ldemo/B;").perform Universe.crossingTypes.reader
          ((create 1 Universe.crossing.registry).run crossingHistory).2).2.run
            [(Universe.crossingTypes.reader, releaseRetained)]).2)).1 = .flag true := by
  have within := Universe.within_crossing
  have serves := Universe.serves_crossing
  have bounded := MetadataMap.bounded Universe.crossingTypes
  have valid := (Valid.create 1 Universe.crossing).run within_crossingHistory
  obtain ⟨c, answer⟩ := perform_commonSuperclass Universe.lawful_crossing within serves bounded
    valid (show Universe.crossing.resolves "[Ldemo/A;" = true by decide)
    (show Universe.crossing.resolves "[Ldemo/B;" = true by decide)
  refine ⟨c, answer, ?_⟩
  exact (isSubclass_of_common Universe.lawful_crossing Universe.wellNamed_crossing 1
    within_crossingHistory within (by simpa using within) (by simp) within serves bounded answer).1

/-- **When two types that share an ordinary interface have a marker in common.**  If neither
descends from the other and they share no class, the answer is an interface than which none that
they share is stronger.  It can be a marker only if that extends an ordinary interface, and it is one
if a marker that they share is stronger than all ordinary interfaces that they share. -/
theorem strongest_of_common (lawful : world.Lawful) (capacity : Nat)
    {history : List (Reader × Operation)} (historyWithin : ∀ step ∈ history, step.1.Within world)
    (within : reader.Within world) (serves : reader.Serves world) (bounded : reader.Bounded)
    (isTypeA : world.IsType a) (isTypeB : world.IsType b) (notUp : ¬ world.Descends a b)
    (notDown : ¬ world.Descends b a) (noClass : ∀ d, ¬ world.SharedClass a b d)
    (someOrdinary : ∃ d, world.SharedInterface a b d ∧ world.IsOrdinary d) :
    ∃ c, ((commonSuperclass a b).perform reader
        ((create capacity world.registry).run history).2).1 = .text c ∧
      world.SharedInterface a b c ∧
      (∀ d, world.SharedInterface a b d → ¬ world.Stronger d c) ∧
      (world.registry.contains c = true →
        ∃ i, world.IsOrdinary i ∧ TransGen world.Extends c i) ∧
      ∀ m, world.SharedInterface a b m → world.registry.contains m = true →
        (∀ d, world.SharedInterface a b d → world.IsOrdinary d → world.Stronger m d) →
          world.registry.contains c = true := by
  have valid := (Valid.create capacity world).run historyWithin
  have spans := valid.faithful.spans serves bounded
  obtain ⟨c, answer⟩ := perform_commonSuperclass lawful within serves bounded valid
    isTypeA.resolves isTypeB.resolves
  obtain ⟨shares, -⟩ := shares_and_kept_of_perform within valid answer
  obtain ⟨d, shared, ordinary⟩ := someOrdinary
  obtain ⟨above, listsA⟩ := lawful.exists_lists spans isTypeA.resolves
  obtain ⟨above', listsB⟩ := lawful.exists_lists spans isTypeB.resolves
  refine ⟨c, answer, ?_⟩
  -- What is kept for the two may have been found in either order.
  rcases lawful.ranksFirst_of_shares spans isTypeA isTypeB notUp notDown noClass shared shares with
    first | first
  · refine ⟨first.1, fun d shared => first.not_stronger isTypeA listsA shared, fun registered => ?_,
      fun m sharedM registered outdoes => ?_⟩
    · exact first.exists_ordinary_above isTypeA listsA registered shared ordinary
    · exact first.contains_of_stronger isTypeA listsA sharedM outdoes
  · refine ⟨first.1.symm, fun d shared => first.not_stronger isTypeB listsB shared.symm,
      fun registered => ?_, fun m sharedM registered outdoes => ?_⟩
    · exact first.exists_ordinary_above isTypeB listsB registered shared.symm ordinary
    · exact first.contains_of_stronger isTypeB listsB sharedM.symm
        fun d shared => outdoes d shared.symm

/-- Two classes that share an ordinary interface have a marker in common. -/
theorem strongest_of_common_marked :
    ((commonSuperclass "demo/A" "demo/B").perform Universe.markedTypes.reader
      ((create 16 Universe.marked.registry).run
        [(Universe.markedTypes.reader, releaseRetained)]).2).1 = .text "demo/M" := by
  have within := Universe.within_marked
  have historyWithin : ∀ step ∈ [(Universe.markedTypes.reader, releaseRetained)],
      step.1.Within Universe.marked := by simpa using within
  obtain ⟨ordinary, marker⟩ := Universe.sharedInterface_marked
  obtain ⟨notUp, notDown, noClass⟩ := Universe.apart_marked
  have isOrdinary : Universe.marked.IsOrdinary "demo/K" :=
    Universe.isOrdinary_iff.2 ⟨ordinary.1, by decide⟩
  obtain ⟨c, answer, -, -, -, registered⟩ := strongest_of_common Universe.lawful_marked 16
    historyWithin within Universe.serves_marked (MetadataMap.bounded Universe.markedTypes)
    (show Universe.marked.IsType "demo/A" by decide)
    (show Universe.marked.IsType "demo/B" by decide)
    notUp notDown noClass ⟨"demo/K", ordinary, isOrdinary⟩
  have isMarker := registered "demo/M" marker (by decide)
    fun d _ ordinary => Universe.stronger_marked ordinary
  -- The registry holds one name, so that the answer is that name.
  have only : ∀ entry ∈ Universe.markedRegistry.table.entries, entry.1 = "demo/M" := by decide
  obtain ⟨interfaces, entry⟩ := Table.contains_iff_get?.1 isMarker
  have same : c = "demo/M" := only (c, interfaces) (Table.mem_entries_of_get? entry)
  rw [answer, same]

end Operation

end ClassLattice
