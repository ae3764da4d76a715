import ClassLattice.Proofs.Operation.Ancestors
import ClassLattice.Proofs.Universe.Assignment
import Mathlib.Order.Defs.Unbundled

/-!
# Questions about assignment

The question whether one type can be assigned to another goes by what the two have in common, and
the question whether it descends from the other by a walk.  In a lawful universe both are answered
in every state.  They differ on the root and on arrays of the root, to which more can be assigned
than descends from them.  In universes shaped as class files are, assignment is a partial order.
-/

set_option autoImplicit false

namespace ClassLattice

namespace Operation

open Query Workspace

variable {world : Universe} {reader reader' : Reader} {workspace : Workspace}
  {self base : Target} {a b : String} {history history' : List (Reader × Operation)}

/-! ## What the two questions ask -/

/-- The question for descent is answered with whether the one type descends from the other. -/
theorem perform_descends_iff (lawful : world.Lawful) (within : reader.Within world)
    (serves : reader.Serves world) (bounded : reader.Bounded) (valid : workspace.Valid world)
    (named : workspace.targetName self = some a) (namedBase : workspace.targetName base = some b)
    (resolves : world.resolves a = true) (resolves' : world.resolves b = true) :
    ∃ found, ((descends self base).perform reader workspace).1 = .flag found ∧
      (found = true ↔ world.Descends a b) := by
  refine perform_of_yields (fun answer _ => ∃ found, answer = .flag found ∧
    (found = true ↔ world.Descends a b)) ?_
  have walked := descends_yields within serves bounded valid named namedBase resolves resolves'
  apply walked.imp
  · rintro answer after ⟨-, ⟨found, ⟨depth, finds⟩, same⟩, -⟩
    refine ⟨found, same, ?_⟩
    cases found with
    | true => exact iff_of_true rfl (Universe.descends_of_search finds)
    | false => exact iff_of_false (by simp) (Universe.not_descends_of_search finds)
  · rintro error after ⟨-, stalls, -⟩
    exact absurd (stalls.obstructed serves) lawful.not_obstructed_nil

/-- The question for assignment is answered with whether the one type can be assigned to the
other. -/
theorem perform_isSubclass_iff (lawful : world.Lawful) (within : reader.Within world)
    (serves : reader.Serves world) (bounded : reader.Bounded) (valid : workspace.Valid world)
    (definite : world.Definite a) (definite' : world.Definite b) :
    ∃ found, ((isSubclass a b).perform reader workspace).1 = .flag found ∧
      (found = true ↔ world.Assignable a b) := by
  obtain ⟨c, answer, shares, -⟩ :=
    perform_isSubclass lawful within serves bounded valid definite.resolves definite'.resolves
  have spans := valid.faithful.spans serves bounded
  refine ⟨c == b, answer, ?_⟩
  rw [beq_iff_eq]
  exact lawful.eq_iff_assignable spans definite definite' shares

/-! ## After any history -/

/-- **The two questions differ on the root and its arrays only.**  Both are answered after any
history, and one type can be assigned to another if and only if it descends from the other, or the
other is the root, or the other is an array of the root with as many layers as the one has around a
type that is not primitive. -/
theorem isSubclass_iff_descends (lawful : world.Lawful) (capacity capacity' : Nat)
    (historyWithin : ∀ step ∈ history, step.1.Within world)
    (historyWithin' : ∀ step ∈ history', step.1.Within world)
    (within : reader.Within world) (serves : reader.Serves world) (bounded : reader.Bounded)
    (within' : reader'.Within world) (serves' : reader'.Serves world) (bounded' : reader'.Bounded)
    (named : ((create capacity' world.registry).run history').2.targetName self = some a)
    (namedBase : ((create capacity' world.registry).run history').2.targetName base = some b)
    (definite : world.Definite a) (definite' : world.Definite b) :
    ∃ assigned found,
      ((isSubclass a b).perform reader ((create capacity world.registry).run history).2).1 =
        .flag assigned ∧
      ((descends self base).perform reader' ((create capacity' world.registry).run history').2).1 =
        .flag found ∧
      (assigned = true ↔ found = true ∨ b = rootName ∨
        ∃ layers x, 0 < layers ∧ world.Layered layers a x ∧ ¬ world.IsPrimitive x ∧
          world.Layered layers b rootName) := by
  have valid := (Valid.create capacity world).run historyWithin
  have valid' := (Valid.create capacity' world).run historyWithin'
  obtain ⟨assigned, answer, assignable⟩ :=
    perform_isSubclass_iff lawful within serves bounded valid definite definite'
  obtain ⟨found, answer', descends⟩ := perform_descends_iff lawful within' serves' bounded' valid'
    named namedBase definite.resolves definite'.resolves
  refine ⟨assigned, found, answer, answer', ?_⟩
  rw [assignable, descends]
  exact Universe.assignable_iff_layered

/-- An array of markers can be assigned to the array of the root. -/
theorem isSubclass_iff_descends_marked :
    ∃ assigned found,
      ((isSubclass (arrayDescriptor "demo/M") (arrayDescriptor rootName)).perform
        Universe.markedTypes.reader ((create 1 Universe.marked.registry).run
          [(Universe.markedTypes.reader, commonSuperclass "demo/A" "demo/B")]).2).1 =
        .flag assigned ∧
      ((descends (.named (arrayDescriptor "demo/M")) (.named (arrayDescriptor rootName))).perform
        Universe.markedTypes.reader ((create 16 Universe.marked.registry).run []).2).1 =
        .flag found ∧
      assigned = true := by
  have within := Universe.within_marked
  have serves := Universe.serves_marked
  have bounded := MetadataMap.bounded Universe.markedTypes
  have wellNamed := Universe.wellNamed_marked
  have isType : Universe.marked.IsType "demo/M" := by decide
  have root : Universe.marked.IsType rootName := Universe.isType_rootName
  have historyWithin : ∀ step ∈
      [(Universe.markedTypes.reader, commonSuperclass "demo/A" "demo/B")],
        step.1.Within Universe.marked := by simpa using within
  have historyWithin' : ∀ step ∈ ([] : List (Reader × Operation)),
      step.1.Within Universe.marked := by simp
  have named (name : String) :
      ((create 16 Universe.marked.registry).run []).2.targetName (.named name) = some name := rfl
  obtain ⟨assigned, found, answer, answer', iff⟩ := isSubclass_iff_descends Universe.lawful_marked
    1 16 historyWithin historyWithin' within serves bounded within serves bounded
    (named (arrayDescriptor "demo/M")) (named (arrayDescriptor rootName))
    (wellNamed.definite_array (wellNamed.definite isType) (.inl isType))
    (wellNamed.definite_array (wellNamed.definite root) (.inl root))
  refine ⟨assigned, found, answer, answer', iff.2 (.inr (.inr ⟨1, "demo/M", Nat.one_pos, ?_⟩))⟩
  exact ⟨.layer (wellNamed.shape?_arrayDescriptor (.inl isType)) (.bare _), isType.not_isPrimitive,
    .layer (wellNamed.shape?_arrayDescriptor (.inl root)) (.bare _)⟩

/-- **Assignment is a partial order with the root above all types.**  It is what the question for it
is answered with, after any history. -/
theorem isSubclass_isPartialOrder (lawful : world.Lawful) (shaped : world.ClassShaped) :
    (∀ (capacity : Nat) (history : List (Reader × Operation)) (reader : Reader),
      (∀ step ∈ history, step.1.Within world) → reader.Within world → reader.Serves world →
        reader.Bounded → ∀ a b, world.Definite a → world.Definite b →
          ∃ found, ((isSubclass a b).perform reader
              ((create capacity world.registry).run history).2).1 = .flag found ∧
            (found = true ↔ world.Assignable a b)) ∧
      IsPartialOrder {name // world.Definite name} (fun a b => world.Assignable a b) ∧
      world.Definite rootName ∧ ∀ a, world.Assignable a rootName := by
  refine ⟨?_, ?_, Universe.definite_rootName, Universe.Assignable.root⟩
  · intro capacity history reader historyWithin within serves bounded a b definite definite'
    have valid := (Valid.create capacity world).run historyWithin
    exact perform_isSubclass_iff lawful within serves bounded valid definite definite'
  · exact {
      refl := fun a => .descends (.self a.1)
      trans := fun a b c => shaped.assignable_trans lawful a.2.resolves
      antisymm := fun a b up down => Subtype.ext (lawful.assignable_antisymm a.2 b.2 up down) }

/-- Classes and interfaces that cross each other are in a partial order, and so are their arrays. -/
theorem isSubclass_isPartialOrder_crossing :
    IsPartialOrder {name // Universe.crossing.Definite name}
        (fun a b => Universe.crossing.Assignable a b) ∧
      ∃ found, ((isSubclass "demo/A" "demo/Q").perform Universe.crossingTypes.reader
          ((create 1 Universe.crossing.registry).run crossingHistory).2).1 = .flag found ∧
        (found = true ↔ Universe.crossing.Assignable "demo/A" "demo/Q") := by
  have wellNamed := Universe.wellNamed_crossing
  have order := isSubclass_isPartialOrder Universe.lawful_crossing Universe.classShaped_crossing
  exact ⟨order.2.1, order.1 1 crossingHistory Universe.crossingTypes.reader within_crossingHistory
    Universe.within_crossing Universe.serves_crossing (MetadataMap.bounded Universe.crossingTypes)
    "demo/A" "demo/Q"
    (wellNamed.definite (show Universe.crossing.IsType "demo/A" by decide))
    (wellNamed.definite (show Universe.crossing.IsType "demo/Q" by decide))⟩

end Operation

end ClassLattice
