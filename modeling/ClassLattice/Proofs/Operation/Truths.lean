import ClassLattice.Proofs.Operation.Answers

/-!
# What operations may answer

For each operation it is said what is true of its answer in a universe, and that it answers nothing
else in a valid workspace, whatever was asked before.  Where no answer is kept and no edge is
resolved yet, an operation whose reader serves the universe has an answer as soon as there is one.
-/

set_option autoImplicit false

namespace ClassLattice

/-- The kind of a type in one word, by its shape. -/
def Shape.kindLabel {ε : Type} : Shape ε → String
  | root => "object"
  | primitive _ => "primitive"
  | array _ => "array"
  | declared declaration =>
    if declaration.isMarker then "special-interface"
    else if declaration.isInterface then "interface" else "class"

/-- What a type says of itself, by its name and shape. -/
def Shape.describe {ε : Type} (name : String) (shape : Shape ε) : String :=
  "TypeNode \x7b name: " ++ Text.quote name ++ ", kind: " ++ Text.quote shape.kindLabel ++ " \x7d"

/-- The description of a node is that of its outline and name. -/
theorem Node.describe_eq (node : Node) : node.describe = node.outline.describe node.name := by
  obtain ⟨name, kind⟩ := node
  cases kind <;> rfl

/-- Matching shapes have the same description. -/
theorem Shape.Matches.describe_eq {ε δ : Type} {related : ε → δ → Prop} {shape : Shape ε}
    {shape' : Shape δ} (h : shape.Matches related shape') (name : String) :
    shape.describe name = shape'.describe name := by
  cases h <;> rfl

namespace Universe

/-- The answer to the question for the line about a name. -/
def Describes (world : Universe) (name : String) (answer : Answer) : Prop :=
  ∃ shape, world.shape? name = some shape ∧ answer = .text (shape.describe name)

/-- The answer to the question whether two nodes are one, and whether they are of one name. -/
def Compares (x y : String) (answer : Answer) : Prop := answer = .comparison (x == y) (x == y)

/-- A name can be looked up, and something is true of it. -/
def About (world : Universe) (truth : String → Answer → Prop) (name : String) (answer : Answer) :
    Prop := world.resolves name = true ∧ truth name answer

/-- Something is true of the name that a target stands for; about an empty slot there is nothing to
say. -/
def OfTarget (world : Universe) (truth : String → Answer → Prop) : Option String → Answer → Prop
  | none, answer => answer = .nothing
  | some name, answer => world.About truth name answer

/-- **What is true of the answer to an operation.**  `meets` says what two names have in common, and
`named` which name a target stands for. -/
def Admits (world : Universe) (meets : String → String → String → Prop)
    (named : Target → Option String) : Operation → Answer → Prop
  | .commonSuperclass a b, answer => ∃ c, meets a b c ∧ answer = .text c
  | .isSubclass sub sup, answer => ∃ c, meets sub sup c ∧ answer = .flag (c == sup)
  | .isSuperclass sup sub, answer => ∃ c, meets sub sup c ∧ answer = .flag (c == sup)
  | .commonSupertype a b, answer => ∃ c type, meets a.internalName b.internalName c ∧
      FieldType.ofInternalName c = .ok type ∧ answer = .type type
  | .inspect target, answer => world.OfTarget world.LooksLike (named target) answer
  | .superclass target, answer => world.OfTarget world.SuperclassIs (named target) answer
  | .interfaces target, answer => world.OfTarget world.InterfacesAre (named target) answer
  | .flatten target, answer => world.OfTarget world.AncestorsAre (named target) answer
  | .describe target, answer => world.OfTarget world.Describes (named target) answer
  | .descends self base, answer =>
    world.OfTarget (fun x => world.OfTarget (world.Decides x) (named base)) (named self) answer
  | .compare first second, answer =>
    world.OfTarget (fun x => world.OfTarget (Compares x) (named second)) (named first) answer
  | .keep _ name, answer => world.About world.LooksLike name answer
  | .cached name, answer => answer = .nothing ∨ world.About world.LooksLike name answer
  | .isPinned name, answer => answer = .flag (world.registry.shape? name).isSome
  | .primitive base, answer => world.About world.LooksLike base.name answer
  | .root, answer => world.About world.LooksLike rootName answer
  | .knownAnswer a b, answer => answer = .nothing ∨ ∃ c, meets a b c ∧ answer = .text c
  | .drop _, _ | .releaseRetained, _ | .retainedCount, _ | .answerCount, _ | .clearAnswers, _
  | .statistics, _ => True

end Universe

namespace Workspace

/-- No answer is kept, and no edge to an interface is resolved. -/
structure Untouched (workspace : Workspace) : Prop where
  answers : workspace.caches.answers = Table.empty
  pristine : ∀ name, workspace.Pristine name

/-- In a new workspace no interface edge is resolved. -/
theorem untouched_create (capacity : Nat) (registry : Registry) :
    (create capacity registry).Untouched :=
  ⟨rfl, pristine_create capacity registry⟩

end Workspace

namespace Operation

open Workspace Query

variable {world : Universe} {reader : Reader} {workspace : Workspace}

/-- An operation was answered. -/
structure Told (world : Universe) (before : Workspace) (operation : Operation) (answer : Answer)
    (after : Workspace) : Prop where
  valid : after.Valid world
  admits : world.Admits world.Shares before.targetName operation answer
  ordered : before.Untouched → world.Admits world.Meets before.targetName operation answer

/-- An operation was not answered. -/
structure Untold (world : Universe) (reader : Reader) (before : Workspace) (operation : Operation)
    (after : Workspace) : Prop where
  valid : after.Valid world
  cause : reader.Serves world → reader.Bounded → before.Untouched →
    ∀ answer, ¬ world.Admits world.Meets before.targetName operation answer

/-- The specification of an operation. -/
abbrev Tells (world : Universe) (reader : Reader) (workspace : Workspace) (operation : Operation) :
    Prop :=
  (operation.query reader).Yields workspace (Told world workspace operation)
    fun _ => Untold world reader workspace operation

/-- A query that finds what two names have in common first. -/
theorem afterCommon_yields (within : reader.Within world) (valid : workspace.Valid world)
    (a b : String) {next : String → Query Answer} {operation : Operation}
    (step : ∀ c after, after.Valid world → world.Shares a b c →
      (workspace.Untouched → world.Meets a b c) →
        (next c).Yields after (Told world workspace operation)
          fun _ => Untold world reader workspace operation)
    (inv : ∀ answer, world.Admits world.Meets workspace.targetName operation answer →
      ∃ c, world.Meets a b c) :
    (Query.commonSuperclass reader a b >>= next).Yields workspace (Told world workspace operation)
      fun _ => Untold world reader workspace operation := by
  refine (commonSuperclass_yields within valid a b).bind (fun c after h => ?_)
    fun error after h => ?_
  · exact step c after (valid.proceeds within h.1.proceeds h.1.sure) h.1.meets
      fun untouched => h.1.ordered untouched.answers
  · obtain ⟨unmet, cause⟩ := h
    refine ⟨valid.proceeds within unmet.proceeds unmet.sure,
      fun serves bounded untouched answer admits => ?_⟩
    obtain ⟨c, meets⟩ := inv answer admits
    refine (cause serves bounded).2 (.inl fun inner _ _ => untouched.pristine inner) c meets

/-- What two field types have in common is that of their names, read as a field type. -/
theorem commonSupertype_yields (within : reader.Within world) (valid : workspace.Valid world)
    (a b : FieldType) : Tells world reader workspace (.commonSupertype a b) := by
  show Yields (Query.commonSupertype reader a b >>= fun type => pure (Answer.type type))
    workspace _ _
  unfold Query.commonSupertype
  rw [bind_assoc]
  refine afterCommon_yields within valid _ _ (fun c after valid' shares ordered => ?_) ?_
  · cases named : FieldType.ofInternalName c with
    | ok type =>
      exact Yields.pure ⟨valid', ⟨c, type, shares, named, rfl⟩,
        fun untouched => ⟨c, type, ordered untouched, named, rfl⟩⟩
    | error fault =>
      refine Yields.throw ⟨valid', fun _ _ untouched answer ⟨c', type, meets, named', _⟩ => ?_⟩
      rw [meets.unique (ordered untouched), named] at named'
      cases named'
  · rintro answer ⟨c, type, meets, -⟩
    exact ⟨c, meets⟩

/-- The questions that are answered from what two names have in common. -/
theorem fromCommon_yields (within : reader.Within world) (valid : workspace.Valid world)
    (a b : String) {answerFrom : String → Answer} {operation : Operation}
    (truth : ∀ meets answer, world.Admits meets workspace.targetName operation answer ↔
      ∃ c, meets a b c ∧ answer = answerFrom c) :
    Yields (Query.commonSuperclass reader a b >>= fun c => pure (answerFrom c)) workspace
      (Told world workspace operation) fun _ => Untold world reader workspace operation := by
  refine afterCommon_yields within valid a b (fun c after valid' shares ordered => ?_) ?_
  · exact Yields.pure ⟨valid', (truth _ _).2 ⟨c, shares, rfl⟩,
      fun untouched => (truth _ _).2 ⟨c, ordered untouched, rfl⟩⟩
  · intro answer admits
    obtain ⟨c, meets, -⟩ := (truth _ _).1 admits
    exact ⟨c, meets⟩

/-- A query with one truth is answered as its operation is. -/
theorem tells_of_answered {operation : Operation} (truth : Answer → Prop)
    (same : ∀ meets, world.Admits meets workspace.targetName operation = truth)
    (h : (operation.query reader).Yields workspace (Answered world truth)
      (Refused world reader (workspace.Untouched → ∀ answer, ¬ truth answer))) :
    Tells world reader workspace operation := by
  refine h.imp (fun answer after told => ?_) fun error after refused => ?_
  · exact ⟨told.1, same _ ▸ told.2, fun _ => same _ ▸ told.2⟩
  · exact ⟨refused.1, fun serves bounded untouched answer admits =>
      refused.2 serves bounded untouched answer (same world.Meets ▸ admits)⟩

/-- **An operation on the node of a name or slot** is answered as the query on the node is. -/
theorem ofTarget_yields (within : reader.Within world) {before : Workspace}
    (serving : Serving world before workspace) (target : Target) {query : NodeId → Query Answer}
    {truth : String → Answer → Prop}
    (run : ∀ id name mid, before.targetName target = some name → Serving world before mid →
      (∀ other known, workspace.Has other known → mid.Has other known) → mid.Has id name →
        (query id).Yields mid (Answered world (truth name))
          (Refused world reader (before.Untouched → ∀ answer, ¬ truth name answer))) :
    (withTarget reader target query).Yields workspace
      (Answered world (world.OfTarget truth (before.targetName target)))
      (Refused world reader (before.Untouched → ∀ answer,
        ¬ world.OfTarget truth (before.targetName target) answer)) := by
  refine withTarget_refused within serving target (fun id name mid named serving' stays has => ?_)
    (fun empty => by rw [empty]; rfl) fun name named lost _ answer => ?_
  · rw [named]
    refine (run id name mid named serving' stays has).imp (fun answer after h => ?_)
      fun error after h => ?_
    · exact ⟨h.1, serving'.valid.faithful.resolves has.1, h.2⟩
    · exact ⟨h.1, fun serves bounded untouched answer truth =>
        h.2 serves bounded untouched answer truth.2⟩
  · subst named
    rintro ⟨resolves, -⟩
    rw [lost] at resolves
    cases resolves

end Operation

end ClassLattice
