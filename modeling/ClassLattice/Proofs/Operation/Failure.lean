import ClassLattice.Proofs.Operation.Transparency
import ClassLattice.Proofs.Query.Conduct
import ClassLattice.Proofs.Universe.Cycles
import ClassLattice.Proofs.Workspace.Provenance

/-!
# Questions that fail

A question about two types that fails keeps no answer, leaves no edge half resolved and no node for
a name that the reader failed for.  So nothing that was done before, failures included, keeps the
question from being answered once every type that the two lead to can be read, names only classes
and interfaces as its supertypes and is not its own ancestor.
-/

set_option autoImplicit false

namespace ClassLattice

open Relation Workspace

/-- The questions about two types: what they have in common, and whether the first can be assigned
to the second. -/
inductive Operation.IsAbout (a b : String) : Operation → Prop
  | common : IsAbout a b (.commonSuperclass a b)
  | subclass : IsAbout a b (.isSubclass a b)

/-! ## What a failure leaves -/

namespace Workspace

variable {registry : Registry} {reader : Reader} {readers : Reader → Prop}
  {old new workspace : Workspace}

/-- What a question that fails leaves behind it. -/
structure Intact (registry : Registry) (readers : Reader → Prop) (reader : Reader)
    (old new : Workspace) : Prop where
  /-- The answers are as they were. -/
  answers : new.caches.answers = old.caches.answers
  /-- Every node in use has the names that were declared, and no edge is resolved in part. -/
  whole : ∀ id node, new.heap.get? id = some node → Heap.Whole registry readers new.heap node
  /-- A node that was in use has at most had edges resolved. -/
  advances : ∀ id before after, old.heap.get? id = some before → new.heap.get? id = some after →
    before.Advances after
  /-- A name for which the reader failed is not found in the caches. -/
  unread : ∃ asked, new.reads.toList = old.reads.toList ++ asked ∧ ∀ name ∈ asked,
    ∀ error, reader.read name = .error error → (new.cached name).1 = none

/-- Nodes stem from readers throughout a history in which no others are asked. -/
theorem StemsFrom.run (stems : workspace.StemsFrom registry readers)
    (coherent : workspace.Coherent registry) {history : List (Reader × Operation)}
    (asked : ∀ step ∈ history, readers step.1) :
    (workspace.run history).2.StemsFrom registry readers := by
  induction history generalizing workspace with
  | nil => exact stems
  | cons step rest ih =>
    have steps := step.2.steps_perform step.1 coherent
    exact ih (stems.steps (asked step List.mem_cons_self) steps) (steps.coherent coherent)
      fun later member => asked later (List.mem_cons_of_mem _ member)

/-- **Looking up types and following edges leaves everything intact**, however it ends. -/
theorem LooksUp.intact (h : LooksUp registry reader .everything old new)
    (coherent : old.Coherent registry) (stems : old.StemsFrom registry readers)
    (asked : readers reader) : Intact registry readers reader old new := by
  have steps := h.proceeds.steps
  have coherent' := steps.coherent coherent
  constructor
  · exact h.answers
  · intro id node found
    exact coherent'.whole (stems.steps asked steps) found
  · intro id before after found found'
    rcases steps.origin found' with ⟨before', here, advances⟩ | ⟨made, -, arrives⟩
    · obtain rfl := Option.some.inj (found.symm.trans here)
      exact advances
    · have used := Heap.index_lt_of_get? found
      exact absurd arrives.new (by omega)
  · obtain ⟨asked, reads, unused⟩ := steps.unused_of_failed
    refine ⟨asked, reads, ?_⟩
    intro name member error failed
    cases known : (new.cached name).1 with
    | none => rfl
    | some id =>
      have unused := (unused name member error failed).2 id
      exact absurd (coherent'.names_of_cached known) unused

end Workspace

/-! ## What does not fail -/

namespace Universe

variable {world : Universe} {server : Reader} {workspace : Workspace} {a b name : String}
  {error : HierarchyError}

/-- One of two names leads to a name. -/
def InvolvedBy (world : Universe) (a b name : String) : Prop :=
  world.Involves a name ∨ world.Involves b name

/-- A name is pinned, or that of an array, or the reader answers for it. -/
inductive ReadableBy (world : Universe) (reader : Reader) (name : String) : Prop
  | pinned {shape : Shape String} (h : world.registry.shape? name = some shape)
  | array {element : String} (laid : layout name = .ok (some element))
  | read {metadata : TypeMetadata} (plain : layout name = .ok none)
      (answer : reader.read name = .ok metadata)

/-- Every type that two names lead to can be read, names only classes and interfaces as its
supertypes, and is not its own ancestor. -/
structure Ready (world : Universe) (reader : Reader) (a b : String) : Prop where
  readable : ∀ name, world.InvolvedBy a b name → world.ReadableBy reader name
  closed : world.ClosedOver (world.InvolvedBy a b)
  acyclic : world.AcyclicOver (world.InvolvedBy a b)

/-- What is involved in a question about two types is closed upwards. -/
theorem upward_involvedBy (a b : String) : world.Upward (world.InvolvedBy a b) :=
  upward_or (upward_involves a) (upward_involves b)

/-- A reader that is ready for a question fails for no name that is involved in it. -/
theorem Ready.not_fails (ready : world.Ready server a b) (involved : world.InvolvedBy a b name) :
    ¬ server.Fails world.registry name error := by
  intro fails
  induction fails with
  | malformed free laid =>
    cases ready.readable _ involved with
    | pinned pinned => simp [free] at pinned
    | array laid' => simp [laid] at laid'
    | read plain => simp [laid] at plain
  | unread free plain failed =>
    cases ready.readable _ involved with
    | pinned pinned => simp [free] at pinned
    | array laid => simp [plain] at laid
    | read _ answer => simp [failed] at answer
  | element free laid _ ih =>
    have array := shape?_array_iff.2 ⟨free, laid⟩
    exact ih (upward_involvedBy a b _ _ involved (.inr array))

/-- A reader that is ready for a question serves all that is involved in it. -/
theorem Ready.servesOver (ready : world.Ready server a b) (within : server.Within world) :
    server.ServesOver world (world.InvolvedBy a b) := by
  intro name metadata involved free plain told
  cases ready.readable name involved with
  | pinned pinned => simp [free] at pinned
  | array laid => simp [plain] at laid
  | read _ answer =>
    rw [answer, Option.some.inj (told.symm.trans (within name _ answer))]

/-- **No walk for two names runs out of depth** where every type that they lead to can be read. -/
theorem Ready.not_blamesFor (ready : world.Ready server a b) (within : server.Within world)
    (bounded : server.Bounded) (faithful : workspace.Faithful world) :
    ¬ world.BlamesFor server (workspace.walkLimit server.extent [a, b])
      (workspace.walkLimit server.extent [a, b]) a b error := by
  have weight : namesWeight [a, b] = nameWeight a + nameWeight b := rfl
  have lightA := layers_lt_nameWeight a
  have lightB := layers_lt_nameWeight b
  have serves := ready.servesOver within
  apply Universe.not_blamesFor (upward_involvedBy a b) ready.closed ready.acyclic
  · intro name error involved
    exact ready.not_fails involved
  · exact .inl .refl
  · exact .inr .refl
  · intro x involved fewer
    exact faithful.not_deep_over (upward_involvedBy a b) serves bounded involved (by omega)
  · exact workspace.layers_lt_walkLimit (by omega)

/-- All that is involved in a name that resolves resolves too. -/
theorem Lawful.resolves_of_involves (lawful : world.Lawful) (resolves : world.resolves a = true)
    (h : world.Involves a name) : world.resolves name = true := by
  induction h with
  | refl => exact resolves
  | tail _ uses ih =>
    rcases uses with extended | array
    · exact (lawful.closed _ _ extended).resolves
    · exact resolves_array array ▸ ih

/-- In a lawful universe a reader that serves it is ready for all names that can be looked up. -/
theorem Lawful.ready (lawful : world.Lawful) (serves : server.Serves world)
    (resolvesA : world.resolves a = true) (resolvesB : world.resolves b = true) :
    world.Ready server a b where
  readable := by
    intro name involved
    have resolves : world.resolves name = true :=
      involved.elim (lawful.resolves_of_involves resolvesA) (lawful.resolves_of_involves resolvesB)
    obtain ⟨shape, found⟩ := exists_shape_of_resolves resolves
    unfold shape? at found
    split at found
    · rename_i pinned
      exact .pinned pinned
    · split at found
      · rename_i laid
        exact .array laid
      · rename_i plain
        obtain ⟨metadata, told, -⟩ := Option.map_eq_some_iff.1 found
        exact .read plain (serves name metadata told)
      · cases found
  closed := fun name parent _ extended => lawful.closed name parent extended
  acyclic := fun name _ => lawful.acyclic name

end Universe

namespace Operation

open Query

variable {world : Universe} {server : Reader} {workspace : Workspace} {operation : Operation}
  {a b : String}

/-- A question about two types is answered as soon as it is found what they have in common. -/
theorem IsAbout.yields {reader : Reader} {ok : Workspace → Prop}
    {failed : HierarchyError → Workspace → Prop} (about : IsAbout a b operation)
    (h : (Query.commonSuperclass reader a b).Yields workspace (fun _ after => ok after) failed) :
    (operation.query reader).Yields workspace
      (fun answer after => (∀ error, answer ≠ .failure error) ∧ ok after) failed := by
  cases about with
  | common => exact h.bind (fun c after h => Yields.pure ⟨fun _ => nofun, h⟩) fun _ _ h => h
  | subclass =>
    show Query.Yields (Query.isSubclass reader a b >>= fun flag => pure (Answer.flag flag)) _ _ _
    unfold Query.isSubclass
    rw [bind_assoc]
    exact h.bind (fun c after h => Yields.pure ⟨fun _ => nofun, h⟩) fun _ _ h => h

/-- A question about two types that fails has only looked up types and followed edges. -/
theorem IsAbout.looksUp {registry : Registry} {reader : Reader} {error : HierarchyError}
    (about : IsAbout a b operation) (coherent : workspace.Coherent registry)
    (failed : (operation.perform reader workspace).1 = .failure error) :
    LooksUp registry reader .everything workspace (operation.perform reader workspace).2 := by
  refine perform_of_yields (fun answer after => answer = .failure error →
    LooksUp registry reader .everything workspace after) ?_ failed
  have concludes : Concludes reader (Query.commonSuperclass reader a b) := .commonSuperclass a b
  have found := (concludes.yields coherent).imp (fun _ _ _ => trivial) fun _ _ looks => looks
  apply (about.yields found).imp
  · intro answer after h same
    exact absurd same (h.1 error)
  · intro other after looks _
    exact looks

/-- **A question is answered** once all that it leads to is ready for it. -/
theorem IsAbout.answered (about : IsAbout a b operation) (ready : world.Ready server a b)
    (within : server.Within world) (bounded : server.Bounded) (valid : workspace.Valid world)
    (error : HierarchyError) : (operation.perform server workspace).1 ≠ .failure error := by
  apply perform_of_yields fun answer _ => answer ≠ .failure error
  have found := (commonSuperclass_yields within valid a b).imp (fun _ _ _ => trivial)
    fun error after unmet => ready.not_blamesFor within bounded valid.faithful unmet.1.blame
  apply (about.yields found).imp
  · intro answer after h
    exact h.1 error
  · intro other after impossible
    exact impossible.elim

/-- A question about a name that cannot be looked up fails. -/
theorem IsAbout.exists_failure {reader : Reader} (about : IsAbout a b operation)
    (within : reader.Within world) (valid : workspace.Valid world)
    (lost : world.resolves b = false) :
    ∃ error, (operation.perform reader workspace).1 = .failure error := by
  by_contra none
  have admits := admits_perform within valid fun error failed => none ⟨error, failed⟩
  have lost' (c : String) (shares : world.Shares a b c) : False := by
    have resolves := shares.resolves.2
    rw [lost] at resolves
    cases resolves
  cases about with
  | common =>
    obtain ⟨c, shares, -⟩ := admits
    exact lost' c shares
  | subclass =>
    obtain ⟨c, shares, -⟩ := admits
    exact lost' c shares

/-- **A question that fails leaves nothing behind.**  After any history with any readers it keeps no
answer, no part of a list of edges and no name that the reader failed for.  And if all readers speak
within one universe, the question is answered in any later state whose reader is ready for it. -/
theorem failure_leaves_nothing (capacity : Nat) (registry : Registry)
    (history : List (Reader × Operation)) (reader : Reader) {operation : Operation} {a b : String}
    (about : IsAbout a b operation) {error : HierarchyError}
    (failed : (operation.perform reader ((create capacity registry).run history).2).1 =
      .failure error) :
    let before := ((create capacity registry).run history).2
    let after := (operation.perform reader before).2
    Intact registry (fun asked => asked = reader ∨ asked ∈ history.map Prod.fst) reader
        before after ∧
      ∀ (world : Universe) (later : List (Reader × Operation)) (server : Reader),
        world.registry = registry → (∀ step ∈ history, step.1.Within world) →
        reader.Within world → (∀ step ∈ later, step.1.Within world) → server.Within world →
        server.Bounded → world.Ready server a b →
        ∀ error, (operation.perform server (after.run later).2).1 ≠ .failure error := by
  intro before after
  constructor
  · have created := coherent_create capacity registry
    have coherent : before.Coherent registry := created.run history
    have looks : LooksUp registry reader .everything before after := about.looksUp coherent failed
    apply looks.intact coherent
    · apply (stemsFrom_create capacity registry _).run created
      intro step member
      exact .inr (List.mem_map_of_mem member)
    · exact .inl rfl
  · rintro world later server rfl historyWithin within laterWithin serverWithin bounded ready
    have valid : before.Valid world := (Valid.create capacity world).run historyWithin
    have validAfter : after.Valid world := valid_perform within valid operation
    exact about.answered ready serverWithin bounded (validAfter.run laterWithin)

/-- A reader that fails for the element of one of two arrays, before one that does not. -/
theorem failure_leaves_nothing_crossing :
    let faulty : Reader := InMemoryReader.reader
      { types := Universe.crossingTypes, faults := ⟨[("demo/B", "locked")]⟩ }
    let question := commonSuperclass "[Ldemo/A;" "[Ldemo/B;"
    let before := ((create 1 .empty).run [(faulty, flatten (.named "demo/A"))]).2
    let after := (question.perform faulty before).2
    after.caches.answers = before.caches.answers ∧
      ∀ error, (question.perform Universe.crossingTypes.reader after).1 ≠ .failure error := by
  intro faulty question before after
  have about : IsAbout "[Ldemo/A;" "[Ldemo/B;" question := .common
  obtain ⟨error, failed⟩ : ∃ error, (question.perform faulty before).1 = .failure error := by
    have within := Universe.within_ofReader .empty faulty
    have valid := valid_perform within (.create 1 _) (flatten (.named "demo/A"))
    exact about.exists_failure within valid (by decide)
  have within := Universe.within_crossing
  have serves := Universe.serves_crossing
  have faultyWithin : faulty.Within Universe.crossing :=
    Universe.within_ofTypes_of_faults .empty Universe.crossingTypes _
  have leaves := failure_leaves_nothing 1 .empty [(faulty, flatten (.named "demo/A"))] faulty about
    failed
  refine ⟨leaves.1.answers, ?_⟩
  refine leaves.2 Universe.crossing [] Universe.crossingTypes.reader rfl
    (by simpa using faultyWithin) faultyWithin (by simp) within
    (MetadataMap.bounded Universe.crossingTypes) ?_
  exact Universe.lawful_crossing.ready serves (by decide) (by decide)

end Operation

end ClassLattice
