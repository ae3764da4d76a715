import ClassLattice.Proofs.Operation.Ancestors

/-!
# What resolving edges does to answers

The question whether a type descends from another is answered alike whatever edges are resolved,
but it may not be answered any more.  The names on an edge to interfaces are compared only until it
is resolved, so that a walk which ended there goes on to the superclass first, where it can be
stalled.  What the test on resolved edges finds is never lost, and where the edges are resolved no
more than that is found.
-/

set_option autoImplicit false

namespace ClassLattice

namespace Operation

open Query Workspace

variable {world : Universe} {reader first : Reader} {workspace : Workspace}
  {self self' base base' : Target} {a b : String} {found : Bool}

/-- An answer about descent is that of the test on names, and both names can be looked up. -/
theorem finds_of_descends (within : reader.Within world) (valid : workspace.Valid world)
    (named : workspace.targetName self = some a) (namedBase : workspace.targetName base = some b)
    (answer : ((descends self base).perform reader workspace).1 = .flag found) :
    world.Finds [] a b found ∧ world.resolves a = true ∧ world.resolves b = true := by
  refine perform_of_yields (fun answer _ => answer = .flag found →
    world.Finds [] a b found ∧ world.resolves a = true ∧ world.resolves b = true) ?_ answer
  have walked : ((descends self base).query reader).Yields workspace
      (Answered world fun answer => answer = .flag found →
        world.Finds [] a b found ∧ world.resolves a = true ∧ world.resolves b = true)
      (Faulted world fun _ => True) := by
    apply withTarget_yields within (.refl valid) self
    · intro id name mid named' serving _ has
      obtain rfl := Option.some.inj (named.symm.trans named')
      apply withTarget_yields within serving base
      · intro id' name' last namedBase' serving' stays has'
        obtain rfl := Option.some.inj (namedBase.symm.trans namedBase')
        have has := stays id a has
        apply (descendsOf_yields within serving'.valid has has').imp
        · rintro answer after ⟨valid', found', finds, rfl⟩
          refine ⟨valid', fun same => ?_⟩
          obtain rfl := Answer.flag.inj same
          exact ⟨finds, serving'.valid.faithful.resolves has.1,
            serving'.valid.faithful.resolves has'.1⟩
        · intro error after thwarted
          exact ⟨thwarted.1, trivial⟩
      · intro empty
        rw [namedBase] at empty
        cases empty
      · exact fun _ _ _ _ => trivial
    · intro empty
      rw [named] at empty
      cases empty
    · exact fun _ _ _ _ => trivial
  apply walked.imp
  · intro answer after answered
    exact answered.2
  · intro error after _ same
    cases same

/-- **What the test on resolved edges finds is the answer**, whatever edges are resolved. -/
theorem perform_descends_of_follow (within : reader.Within world) (serves : reader.Serves world)
    (bounded : reader.Bounded) (valid : workspace.Valid world)
    (named : workspace.targetName self = some a) (namedBase : workspace.targetName base = some b)
    (resolves : world.resolves a = true) (resolves' : world.resolves b = true) {depth : Nat}
    (follows : world.follow depth [] a b = some found) :
    ((descends self base).perform reader workspace).1 = .flag found := by
  apply perform_of_yields fun answer _ => answer = .flag found
  have walked := descends_yields within serves bounded valid named namedBase resolves resolves'
  apply walked.imp
  · rintro answer after ⟨-, ⟨found', finds, same⟩, -⟩
    rw [same, finds.unique ⟨depth, Universe.search_of_follow follows⟩]
  · rintro error after ⟨-, -, nowhere, -⟩
    rw [nowhere depth] at follows
    cases follows

/-- **Where the edges above a type are resolved, the test on resolved edges is what answers.** -/
theorem perform_descends_iff_follow (within : reader.Within world) (serves : reader.Serves world)
    (bounded : reader.Bounded) (valid : workspace.Valid world)
    (named : workspace.targetName self = some a) (namedBase : workspace.targetName base = some b)
    (resolves : world.resolves a = true) (resolves' : world.resolves b = true)
    (resolved : workspace.ResolvedAbove world a) :
    ((descends self base).perform reader workspace).1 = .flag found ↔
      ∃ depth, world.follow depth [] a b = some found := by
  constructor
  · apply perform_of_yields fun answer _ => answer = .flag found →
      ∃ depth, world.follow depth [] a b = some found
    have walked := descends_yields within serves bounded valid named namedBase resolves resolves'
    apply walked.imp
    · rintro answer after ⟨-, -, answers⟩ same
      obtain ⟨found', depth, given, follows⟩ := answers resolved
      obtain rfl := Answer.flag.inj (given.symm.trans same)
      exact ⟨depth, follows⟩
    · intro error after _ same
      cases same
  · rintro ⟨depth, follows⟩
    exact perform_descends_of_follow within serves bounded valid named namedBase resolves resolves'
      follows

/-- **A positive answer about descent is not taken back.**  Whatever was asked or done since it was
given, the question is answered so again, or it is not answered because of something above the type
that cannot be looked up or is its own ancestor.  It is answered if the test on resolved edges has
an answer, and also if the other type is no interface, nor an array of one, that is on a resolved
edge. -/
theorem descends_after_descends (capacity : Nat) {history later : List (Reader × Operation)}
    (historyWithin : ∀ step ∈ history, step.1.Within world) (firstWithin : first.Within world)
    (laterWithin : ∀ step ∈ later, step.1.Within world) (within : reader.Within world)
    (serves : reader.Serves world) (bounded : reader.Bounded)
    (named : ((create capacity world.registry).run history).2.targetName self = some a)
    (namedBase : ((create capacity world.registry).run history).2.targetName base = some b)
    (answered : ((descends self base).perform first
      ((create capacity world.registry).run history).2).1 = .flag true) :
    let after := (((descends self base).perform first
      ((create capacity world.registry).run history).2).2.run later).2
    after.targetName self' = some a → after.targetName base' = some b →
      ((descends self' base').perform reader after).1 = .flag true ∨
        ∃ error, ((descends self' base').perform reader after).1 = .failure error ∧
          world.Stalls reader a error ∧ (∀ depth, world.follow depth [] a b = none) ∧
          ∃ inner, world.Nests b inner ∧ world.isInterface inner = true ∧
            ¬ after.Pristine inner := by
  intro after named' namedBase'
  have valid := (Valid.create capacity world).run historyWithin
  have validAfter : after.Valid world :=
    (valid_perform firstWithin valid (descends self base)).run laterWithin
  obtain ⟨finds, resolves, resolves'⟩ :=
    finds_of_descends firstWithin valid named namedBase answered
  apply perform_of_yields fun answer _ => answer = .flag true ∨ ∃ error, answer = .failure error ∧
    world.Stalls reader a error ∧ (∀ depth, world.follow depth [] a b = none) ∧
      ∃ inner, world.Nests b inner ∧ world.isInterface inner = true ∧ ¬ after.Pristine inner
  have walked :=
    descends_yields within serves bounded validAfter named' namedBase' resolves resolves'
  apply walked.imp
  · rintro answer last ⟨-, ⟨found, finds', same⟩, -⟩
    rw [same, finds'.unique finds]
    exact .inl rfl
  · rintro error last ⟨-, stalls, nowhere, missed⟩
    exact .inr ⟨error, rfl, stalls, nowhere, (missed true finds).2⟩

/-- A class still descends from one above which nothing can be looked up, after all edges were
resolved that can be. -/
theorem descends_after_descends_severed :
    ((descends (.named "demo/B") (.named "demo/A")).perform Universe.severedTypes.reader
      (((descends (.named "demo/B") (.named "demo/A")).perform Universe.severedTypes.reader
        ((create 16 Universe.severed.registry).run
          [(Universe.severedTypes.reader, keep "first" "demo/A")]).2).2.run
        [(Universe.severedTypes.reader, superclass (.named "demo/B")),
          (Universe.severedTypes.reader, interfaces (.named "demo/A"))]).2).1 = .flag true := by
  have within := Universe.within_severed
  have serves := Universe.serves_severed
  have bounded := MetadataMap.bounded Universe.severedTypes
  have historyWithin : ∀ step ∈ [(Universe.severedTypes.reader, keep "first" "demo/A")],
      step.1.Within Universe.severed := by simpa using within
  have laterWithin : ∀ step ∈ [(Universe.severedTypes.reader, superclass (.named "demo/B")),
      (Universe.severedTypes.reader, interfaces (.named "demo/A"))],
        step.1.Within Universe.severed := by simpa using within
  have follows : Universe.severed.follow 2 [] "demo/B" "demo/A" = some true := by decide
  have answered : ((descends (.named "demo/B") (.named "demo/A")).perform
      Universe.severedTypes.reader ((create 16 Universe.severed.registry).run
        [(Universe.severedTypes.reader, keep "first" "demo/A")]).2).1 = .flag true :=
    perform_descends_of_follow within serves bounded
      ((Valid.create 16 Universe.severed).run historyWithin) rfl rfl (by decide) (by decide) follows
  have named (workspace : Workspace) (name : String) :
      workspace.targetName (.named name) = some name := rfl
  have later := descends_after_descends 16 historyWithin within laterWithin within serves bounded
    (named _ "demo/B") (named _ "demo/A") answered (named _ "demo/B") (named _ "demo/A")
  refine later.resolve_right ?_
  rintro ⟨error, -, -, nowhere, -⟩
  rw [nowhere 2] at follows
  cases follows

end Operation

end ClassLattice
