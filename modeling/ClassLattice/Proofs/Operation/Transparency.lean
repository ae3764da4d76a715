import ClassLattice.Proofs.Operation.Answered
import ClassLattice.Proofs.Universe.OfTypes

/-!
# Caches do not show

After any history, with readers that fail as they like and with any capacity, an operation that is
answered is answered as in a new workspace whose reader never fails.  Only two things depend on the
history: in which order of a pair the answer was first found, and which edges of a node a look at
it finds resolved.
-/

set_option autoImplicit false

namespace ClassLattice

/-- An answer, but for which edges of a node are resolved. -/
def Answer.facts : Answer → Answer
  | .node view => .node view.facts
  | answer => answer

namespace Operation

open Workspace

variable {world : Universe} {known named : Target → Option String} {asked : Operation → Answer}
  {answer answer' : Answer}

/-- What an operation answers in a new workspace. -/
def fresh (reader : Reader) (capacity : Nat) (registry : Registry) (operation : Operation) :
    Answer :=
  (operation.perform reader (create capacity registry)).1

/-- The operation on the names that its targets stand for; none if it uses an empty slot. -/
def byName (named : Target → Option String) : Operation → Option Operation
  | inspect target => (named target).map fun name => inspect (.named name)
  | superclass target => (named target).map fun name => superclass (.named name)
  | interfaces target => (named target).map fun name => interfaces (.named name)
  | flatten target => (named target).map fun name => flatten (.named name)
  | describe target => (named target).map fun name => describe (.named name)
  | descends self base => (named self).bind fun x => (named base).map fun y =>
    descends (.named x) (.named y)
  | compare first second => (named first).bind fun x => (named second).map fun y =>
    compare (.named x) (.named y)
  | operation => some operation

/-- **An answer agrees with what operations answer in a new workspace.**  What two types have in
common agrees if it is found there in one order of the two or the other. -/
def Agrees (fresh : Operation → Answer) (named : Target → Option String) (operation : Operation)
    (answer : Answer) : Prop :=
  match operation with
  | commonSuperclass a b =>
    answer = fresh (commonSuperclass a b) ∨ answer = fresh (commonSuperclass b a)
  | commonSupertype a b =>
    answer = fresh (commonSupertype a b) ∨ answer = fresh (commonSupertype b a)
  | isSubclass sub sup | isSuperclass sup sub => ∃ c, answer = .flag (c == sup) ∧
    (fresh (commonSuperclass sub sup) = .text c ∨ fresh (commonSuperclass sup sub) = .text c)
  | knownAnswer a b => answer = .nothing ∨
    answer = fresh (commonSuperclass a b) ∨ answer = fresh (commonSuperclass b a)
  | cached name => answer = .nothing ∨ answer.facts = (fresh (inspect (.named name))).facts
  | keep _ name => answer.facts = (fresh (inspect (.named name))).facts
  | drop _ | releaseRetained | retainedCount | answerCount | clearAnswers | statistics => True
  | operation =>
    match operation.byName named with
    | none => answer = .nothing
    | some question => answer.facts = (fresh question).facts

/-- Operations are answered truly, and wherever there is a true answer. -/
structure Complete (world : Universe) (known : Target → Option String)
    (asked : Operation → Answer) : Prop where
  named : ∀ name, known (.named name) = some name
  answers : ∀ operation answer, world.Admits world.Meets known operation answer →
    world.Admits world.Meets known operation (asked operation)

/-- **A reader that never fails answers all there is to answer** in a new workspace. -/
theorem complete_fresh {reader : Reader} (within : reader.Within world)
    (serves : reader.Serves world) (bounded : reader.Bounded) (capacity : Nat) :
    Complete world (create capacity world.registry).targetName
      (fresh reader capacity world.registry) := by
  refine ⟨fun _ => rfl, fun operation answer admits => ?_⟩
  have untouched := untouched_create capacity world.registry
  refine perform_of_yields (fun answer _ => world.Admits world.Meets
    (create capacity world.registry).targetName operation answer) ?_
  refine (tells within (.create capacity world) operation).imp (fun _ _ told => ?_)
    fun _ _ untold => ?_
  · exact told.ordered untouched
  · exact absurd admits (untold.cause serves bounded untouched answer)

/-- What is true has one answer, but for which edges are resolved. -/
def Unique (truth : Answer → Prop) : Prop :=
  ∀ answer answer', truth answer → truth answer' → answer.facts = answer'.facts

/-- A question about a name has one answer if the name has one. -/
theorem unique_about {truth : String → Answer → Prop} (unique : ∀ name, Unique (truth name))
    (name : String) : Unique (world.About truth name) :=
  fun _ _ h h' => unique name _ _ h.2 h'.2

/-- A question about a target has one answer if the name of the target has one. -/
theorem unique_ofTarget {truth : String → Answer → Prop} (unique : ∀ name, Unique (truth name))
    (name : Option String) : Unique (world.OfTarget truth name) := by
  intro answer answer' h h'
  cases name with
  | none => rw [show answer = .nothing from h, show answer' = .nothing from h']
  | some name => exact unique_about unique name _ _ h h'

/-- A name looks in one way only. -/
theorem unique_looksLike (name : String) : Unique (world.LooksLike name) := by
  rintro _ _ ⟨shape, facts⟩ ⟨shape', facts'⟩
  obtain rfl := Option.some.inj (shape.symm.trans shape')
  exact congrArg Answer.node (facts.trans facts'.symm)

/-- A name has one list of ancestors. -/
theorem unique_ancestorsAre (name : String) : Unique (world.AncestorsAre name) := by
  rintro _ _ ⟨names, lists, rfl⟩ ⟨names', lists', rfl⟩
  rw [lists.unique lists']

/-- A name has one description. -/
theorem unique_describes (name : String) : Unique (world.Describes name) := by
  rintro _ _ ⟨shape, found, rfl⟩ ⟨shape', found', rfl⟩
  rw [Option.some.inj (found.symm.trans found')]

/-- Whether a name descends from another is decided in one way only. -/
theorem unique_decides (x y : String) : Unique (world.Decides x y) := by
  rintro _ _ ⟨found, finds, rfl⟩ ⟨found', finds', rfl⟩
  rw [finds.unique finds']

/-- Two names compare in one way only. -/
theorem unique_compares (x y : String) : Unique (Universe.Compares x y) := by
  rintro _ _ rfl rfl
  rfl

namespace Complete

/-- A complete workspace gives the type that two others have in common. -/
theorem common_eq (complete : Complete world known asked) {a b c : String}
    (meets : world.Meets a b c) : asked (commonSuperclass a b) = .text c := by
  obtain ⟨c', meets', same⟩ := complete.answers (commonSuperclass a b) _ ⟨c, meets, rfl⟩
  rw [same, meets.unique meets']

/-- A complete workspace gives the field type that two others have in common. -/
theorem supertype_eq (complete : Complete world known asked) {a b : FieldType} {c : String}
    {type : FieldType} (meets : world.Meets a.internalName b.internalName c)
    (parsed : FieldType.ofInternalName c = .ok type) :
    asked (commonSupertype a b) = .type type := by
  obtain ⟨c', type', meets', parsed', same⟩ :=
    complete.answers (commonSupertype a b) _ ⟨c, type, meets, parsed, rfl⟩
  obtain rfl := meets.unique meets'
  rw [same, Except.ok.inj (parsed.symm.trans parsed')]

/-- **What is true of an operation is what a complete workspace answers**, if only one answer is
true. -/
theorem facts_eq (complete : Complete world known asked) {operation : Operation}
    (unique : Unique (world.Admits world.Meets known operation))
    (admits : world.Admits world.Meets known operation answer) :
    answer.facts = (asked operation).facts :=
  unique _ _ admits (complete.answers operation answer admits)

/-- What is true of a name is what the question about the name is answered. -/
theorem agrees_of_target (complete : Complete world known asked) (target : Target)
    {question : Target → Operation} {truth : String → Answer → Prop}
    (unique : ∀ name, Unique (truth name))
    (same : ∀ target, world.Admits world.Meets known (question target) =
      world.OfTarget truth (known target))
    (admits : world.OfTarget truth (named target) answer) :
    match (named target).map fun name => question (.named name) with
    | none => answer = .nothing
    | some question => answer.facts = (asked question).facts := by
  generalize named target = name at admits
  cases name with
  | none => exact admits
  | some name =>
    refine complete.facts_eq (same _ ▸ unique_ofTarget unique _) ?_
    rw [same, complete.named]
    exact admits

/-- What is true of two names is what the question about the names is answered. -/
theorem agrees_of_targets (complete : Complete world known asked) (first second : Target)
    {question : Target → Target → Operation} {truth : String → String → Answer → Prop}
    (unique : ∀ x y, Unique (truth x y))
    (same : ∀ first second, world.Admits world.Meets known (question first second) =
      world.OfTarget (fun x => world.OfTarget (truth x) (known second)) (known first))
    (admits : world.OfTarget (fun x => world.OfTarget (truth x) (named second)) (named first)
      answer) :
    match (named first).bind fun x => (named second).map fun y => question (.named x) (.named y) with
    | none => answer = .nothing
    | some question => answer.facts = (asked question).facts := by
  generalize named first = x, named second = y at admits
  cases x with
  | none => exact admits
  | some x =>
    obtain ⟨resolves, admits⟩ := admits
    cases y with
    | none => exact admits
    | some y =>
      refine complete.facts_eq
        (same _ _ ▸ unique_ofTarget (fun x => unique_ofTarget (unique x) _) _) ?_
      rw [same, complete.named, complete.named]
      exact ⟨resolves, admits⟩

/-- **What is true agrees with what operations answer in a new workspace.** -/
theorem agrees (complete : Complete world known asked) {operation : Operation}
    (admits : world.Admits world.Shares named operation answer) :
    Agrees asked named operation answer := by
  have common {a b c : String} (shares : world.Shares a b c) :
      asked (commonSuperclass a b) = .text c ∨ asked (commonSuperclass b a) = .text c :=
    shares.imp complete.common_eq complete.common_eq
  have looks {name : String} (about : world.About world.LooksLike name answer) :
      answer.facts = (asked (inspect (.named name))).facts := by
    refine complete.facts_eq (unique_ofTarget unique_looksLike _) ?_
    show world.OfTarget _ (known (.named name)) answer
    rw [complete.named]
    exact about
  -- Questions about pairs agree up to the order of the pair, those about nodes up to resolved edges.
  cases operation with
  | commonSuperclass a b =>
    obtain ⟨c, shares, rfl⟩ := admits
    exact (common shares).imp Eq.symm Eq.symm
  | commonSupertype a b =>
    obtain ⟨c, type, shares, parsed, rfl⟩ := admits
    exact shares.imp (fun h => (complete.supertype_eq h parsed).symm)
      fun h => (complete.supertype_eq h parsed).symm
  | isSubclass sub sup =>
    obtain ⟨c, shares, rfl⟩ := admits
    exact ⟨c, rfl, common shares⟩
  | isSuperclass sup sub =>
    obtain ⟨c, shares, rfl⟩ := admits
    exact ⟨c, rfl, common shares⟩
  | inspect target =>
    exact complete.agrees_of_target target unique_looksLike (fun _ => rfl) admits
  | superclass target =>
    exact complete.agrees_of_target target
      (fun _ _ _ h h' => congrArg Answer.facts (h.unique h')) (fun _ => rfl) admits
  | interfaces target =>
    exact complete.agrees_of_target target
      (fun _ _ _ h h' => congrArg Answer.facts (h.unique h')) (fun _ => rfl) admits
  | flatten target =>
    exact complete.agrees_of_target target unique_ancestorsAre (fun _ => rfl) admits
  | describe target =>
    exact complete.agrees_of_target target unique_describes (fun _ => rfl) admits
  | descends self base =>
    exact complete.agrees_of_targets self base unique_decides (fun _ _ => rfl) admits
  | compare first second =>
    exact complete.agrees_of_targets first second unique_compares (fun _ _ => rfl) admits
  | keep slot name => exact looks admits
  | cached name => exact admits.imp_right looks
  | isPinned name => exact complete.facts_eq (fun _ _ h h' => by rw [h, h']) admits
  | primitive base => exact complete.facts_eq (unique_about unique_looksLike _) admits
  | root => exact complete.facts_eq (unique_about unique_looksLike _) admits
  | knownAnswer a b =>
    refine admits.imp_right ?_
    rintro ⟨c, shares, rfl⟩
    exact (common shares).imp Eq.symm Eq.symm
  | drop | releaseRetained | retainedCount | answerCount | clearAnswers | statistics => trivial

end Complete

/-- **Caches do not show.**  After any history with readers that answer only what the universe says,
or fail, an operation that is answered is answered as in a new workspace whose reader never
fails. -/
theorem perform_agrees_fresh {reader server : Reader} (capacity freshCapacity : Nat)
    {history : List (Reader × Operation)} {operation : Operation}
    (readersWithin : ∀ step ∈ history, step.1.Within world) (within : reader.Within world)
    (serverWithin : server.Within world) (serves : server.Serves world)
    (bounded : server.Bounded)
    (answered : ∀ error, (operation.perform reader
      ((create capacity world.registry).run history).2).1 ≠ .failure error) :
    Agrees (fresh server freshCapacity world.registry)
      ((create capacity world.registry).run history).2.targetName operation
      (operation.perform reader ((create capacity world.registry).run history).2).1 := by
  have valid := (Valid.create capacity world).run readersWithin
  exact (complete_fresh serverWithin serves bounded freshCapacity).agrees
    (admits_perform within valid answered)

/-- A history in which an interface can only be read after a while. -/
def crossingHistory : List (Reader × Operation) :=
  [(InMemoryReader.reader { types := Universe.crossingTypes, faults := ⟨[("demo/J", "locked")]⟩ },
      commonSuperclass "demo/B" "demo/A"),
    (Universe.crossingTypes.reader, keep "first" "demo/A"),
    (Universe.crossingTypes.reader, flatten (.named "demo/B")),
    (Universe.crossingTypes.reader, releaseRetained)]

/-- All readers of the history are within the universe. -/
theorem within_crossingHistory : ∀ step ∈ crossingHistory, step.1.Within Universe.crossing := by
  have faulty := Universe.within_ofTypes_of_faults .empty Universe.crossingTypes
    ⟨[("demo/J", "locked")]⟩
  have steady := Universe.within_crossing
  simp only [crossingHistory, List.forall_mem_cons, List.not_mem_nil, false_implies, implies_true,
    and_true]
  exact ⟨faulty, steady, steady, steady⟩

/-- After readings that failed an operation is answered as in a new workspace. -/
theorem isSubclass_agrees_fresh_crossing :
    Agrees (fresh Universe.crossingTypes.reader 16 Universe.crossing.registry)
      ((create 1 Universe.crossing.registry).run crossingHistory).2.targetName
      (isSubclass "demo/A" "demo/I")
      ((isSubclass "demo/A" "demo/I").perform Universe.crossingTypes.reader
        ((create 1 Universe.crossing.registry).run crossingHistory).2).1 := by
  have within := Universe.within_crossing
  have serves := Universe.serves_crossing
  have bounded := MetadataMap.bounded Universe.crossingTypes
  refine perform_agrees_fresh 1 16 within_crossingHistory within within serves bounded
    fun error => ?_
  have valid := (Valid.create 1 Universe.crossing).run within_crossingHistory
  obtain ⟨c, answer, -⟩ := perform_isSubclass Universe.lawful_crossing within serves bounded valid
    (show Universe.crossing.resolves "demo/A" = true by decide)
    (show Universe.crossing.resolves "demo/I" = true by decide)
  rw [answer]
  nofun

end Operation

end ClassLattice
