import ClassLattice.Proofs.Workspace.Created
import ClassLattice.Proofs.Query.Halts

/-!
# Every operation ends

Walks up a hierarchy are bounded by a limit.  In every state that can be reached, and whatever a
reader over finitely many names answers, a limit that is high enough is never met: no operation
fails for want of depth, and a higher limit makes no difference to it.  So operations end without
any limit.  The limits that are worked out beforehand are high enough wherever the extent of the
reader is what it says.
-/

set_option autoImplicit false

namespace ClassLattice

namespace Query

open Workspace

/-- What two types have in common, with a limit on walks that is worked out as the query begins. -/
def commonWithin (reader : Reader) (limit : Workspace → List String → Nat)
    (first second : String) : Query String := do
  let limit := limit (← get) [first, second]
  common reader limit limit first second

/-- The ancestors of a type, with a limit on the walk that is worked out as it begins. -/
def flattenWithin (reader : Reader) (limit : Workspace → List String → Nat) (id : NodeId) :
    Query (List NodeId) := do
  let limit := limit (← get) []
  flatten reader limit id

/-- The subtype test with a limit on the walk that is worked out as it begins. -/
def isSubclassOfWithin (reader : Reader) (limit : Workspace → List String → Nat)
    (self base : NodeId) : Query Bool := do
  let limit := limit (← get) []
  isSubclassOf reader limit self base

end Query

namespace Operation

open Query

/-- What an operation does, with any limits on its walks. -/
def queryWithin (reader : Reader) (limit : Workspace → List String → Nat) :
    Operation → Query Answer
  | commonSuperclass first second => return .text (← commonWithin reader limit first second)
  | isSubclass sub sup => do
    let found ← (do return (← commonWithin reader limit sub sup) == sup)
    return .flag found
  | isSuperclass sup sub => do
    let found ← (do return (← commonWithin reader limit sub sup) == sup)
    return .flag found
  | commonSupertype first second => do
    let type ← (do
      let answer ← commonWithin reader limit first.internalName second.internalName
      match FieldType.ofInternalName answer with
      | .ok type => return type
      | .error _ => throw (.malformed answer .notFieldType))
    return .type type
  | flatten target => withTarget reader target fun id => do
    return .names (← (← flattenWithin reader limit id).mapM nameOf)
  | descends self base => withTarget reader self fun a => withTarget reader base fun b => do
    return .flag (← isSubclassOfWithin reader limit a b)
  | operation => operation.query reader

/-- Operations work out their limits from the extents of the reader and of the heap. -/
theorem queryWithin_walkLimit (reader : Reader) (operation : Operation) :
    operation.queryWithin reader (fun workspace => workspace.walkLimit reader.extent) =
      operation.query reader := by
  cases operation <;> rfl

end Operation

/-! ## Limits that are high enough -/

namespace Query

open Workspace

variable {world : Universe} {reader : Reader} {workspace : Workspace} {extent bound : Nat}
  {id : NodeId} {x : String} {limit limit' : Workspace → List String → Nat}

/-- Limits are high enough for walks from names with few array layers: no walk on names goes as
deep, whatever the nodes and the reader say about supertypes. -/
def Suffices (world : Universe) (reader : Reader) (bound : Nat)
    (limit : Workspace → List String → Nat) : Prop :=
  ∀ workspace names, workspace.Pooled world reader →
    ∃ around : Universe, workspace.Pooled around reader ∧
      ∀ x, layers x < bound → layers x < workspace.heap.extent + namesWeight names →
        ¬ around.Deep (limit workspace names) [] x

/-- One limit that is high enough is enough for every walk. -/
theorem suffices_const (spans : world.Spans extent) {most : Nat} (le : bound + 2 * extent < most) :
    Suffices world reader bound fun _ _ => most := by
  refine fun workspace names pooled => ⟨world, pooled, fun x few _ deep => ?_⟩
  have least : most ≤ layers x + 1 + 2 * extent := deep.le spans
  omega

/-- **The limits that are worked out beforehand are high enough** if the extent of the reader is
what it says. -/
theorem suffices_walkLimit (bounded : reader.Bounded) :
    Suffices world reader bound fun workspace => workspace.walkLimit reader.extent := by
  intro workspace names pooled
  refine ⟨_, pooled_pool pooled.coherent reader, fun x _ light => ?_⟩
  exact not_deep_of_spansOver (spans_pool pooled.coherent bounded) (fun _ _ _ _ => trivial) trivial
    light

/-- A name of a node has fewer layers than all names there are weigh. -/
theorem layers_lt_of_names (named : workspace.heap.Names id x) :
    layers x < workspace.heap.extent + namesWeight [] :=
  Nat.lt_of_lt_of_le (layers_lt_nameWeight x) named.nameWeight_le

variable (measured : reader.Measured) (pooled : workspace.Pooled world reader)
  (high : Suffices world reader bound limit) (high' : Suffices world reader bound limit')

include measured pooled high high'

/-- **What two types have in common is found with enough depth**, or refused for another reason. -/
theorem commonWithin_halts (a b : String)
    (le : workspace.heap.extent + namesWeight [a, b] ≤ bound) :
    Halts (commonWithin reader limit a b) (commonWithin reader limit' a b) workspace := by
  have halts {limit : Workspace → List String → Nat} (enough : Suffices world reader bound limit)
      {most : Nat} (le' : limit workspace [a, b] ≤ most) :
      Halts (commonWithin reader limit a b) (common reader most most a b) workspace := by
    obtain ⟨around, pooled', shallow⟩ := enough workspace [a, b] pooled
    have finds := common_halts measured le' le' a b workspace pooled'
      (not_deepFor_of_not_deep fun x light => shallow x (by omega) light)
    exact ⟨finds.same, finds.measured⟩
  exact (halts high (Nat.le_max_left _ _)).meet (halts high' (Nat.le_max_right _ _))

/-- **A flattened list is found with enough depth**, or refused for another reason. -/
theorem flattenWithin_halts (has : workspace.Has id x) (few : layers x < bound) :
    Halts (flattenWithin reader limit id) (flattenWithin reader limit' id) workspace := by
  have halts {limit : Workspace → List String → Nat} (enough : Suffices world reader bound limit)
      {most : Nat} (le : limit workspace [] ≤ most) :
      Halts (flattenWithin reader limit id) (flatten reader most id) workspace := by
    obtain ⟨around, pooled', shallow⟩ := enough workspace [] pooled
    have gathers := flatten_halts measured pooled' le has
      (shallow x few (layers_lt_of_names has.1))
    exact ⟨gathers.same, gathers.measured⟩
  exact (halts high (Nat.le_max_left _ _)).meet (halts high' (Nat.le_max_right _ _))

/-- **Whether a type descends from another is found with enough depth**, or refused for another
reason. -/
theorem isSubclassOfWithin_halts (has : workspace.Has id x) (few : layers x < bound)
    (base : NodeId) :
    Halts (isSubclassOfWithin reader limit id base) (isSubclassOfWithin reader limit' id base)
      workspace := by
  have halts {limit : Workspace → List String → Nat} (enough : Suffices world reader bound limit)
      {most : Nat} (le : limit workspace [] ≤ most) :
      Halts (isSubclassOfWithin reader limit id base) (isSubclassOf reader most id base)
        workspace := by
    obtain ⟨around, pooled', shallow⟩ := enough workspace [] pooled
    have tests := isSubclassOf_halts measured pooled' le has
      (shallow x few (layers_lt_of_names has.1)) base
    exact ⟨tests.same, tests.measured⟩
  exact (halts high (Nat.le_max_left _ _)).meet (halts high' (Nat.le_max_right _ _))

end Query

/-! ## Operations -/

/-- How much a target adds to the weight of all names. -/
def Target.weight : Target → Nat
  | named name => nameWeight name
  | kept _ => 0

namespace Query

open Workspace

variable {world : Universe} {reader : Reader} {workspace : Workspace}

/-- A query on a node starts from a node whose name has few array layers, and from a workspace in
which what was in use still is. -/
theorem withTarget_halts (measured : reader.Measured) (pooled : workspace.Pooled world reader)
    (target : Target) {next next' : NodeId → Query Answer}
    (rest : ∀ id x mid, mid.Pooled world reader →
      (∀ other y, workspace.Has other y → mid.Has other y) → mid.Has id x →
        layers x < workspace.heap.extent + target.weight → Halts (next id) (next' id) mid) :
    Halts (withTarget reader target next) (withTarget reader target next') workspace := by
  cases target with
  | named name =>
    refine .typeNode_holding measured pooled name fun id mid pooled' keeps has => ?_
    exact rest id name mid pooled' keeps has (Nat.lt_add_left _ (layers_lt_nameWeight name))
  | kept slot =>
    refine .get_bind ?_
    cases filled : workspace.slots.get? slot with
    | none => exact .pure Answer.nothing
    | some id =>
      obtain ⟨node, found⟩ := pooled.coherent.slots_alive id (Table.mem_values_of_get? filled)
      have named : workspace.heap.Names id node.name := ⟨node, found, rfl⟩
      exact .holding (rest id node.name _ (pooled.hold found)
        (fun other y has => ⟨has.1, has.2.hold⟩) ⟨named, anchored_hold⟩ (layers_lt_of_names named))

end Query

namespace Operation

open Query Workspace

variable {world : Universe} {reader : Reader} {workspace : Workspace}

/-- An operation that walks nowhere does not fail for want of depth. -/
theorem halts_in_place (measured : reader.Measured) (pooled : workspace.Pooled world reader)
    (target : Target) {query : NodeId → Query Answer}
    (inPlace : ∀ id x mid, mid.Pooled world reader → mid.Has id x →
      Halts (query id) (query id) mid) :
    Halts (withTarget reader target query) (withTarget reader target query) workspace :=
  withTarget_halts measured pooled target fun id x mid pooled' _ has _ =>
    inPlace id x mid pooled' has

/-- **Every operation ends by itself**: as soon as limits are high enough it makes no difference
which they are. -/
theorem halts_within (measured : reader.Measured) (pooled : workspace.Pooled world reader)
    (operation : Operation) :
    ∃ bound, ∀ limit limit', Suffices world reader bound limit →
      Suffices world reader bound limit' →
        Halts (operation.queryWithin reader limit) (operation.queryWithin reader limit')
          workspace := by
  have shown (id : NodeId) {mid : Workspace} : Halts (viewOf id) (viewOf id) mid :=
    .get_bind (.pure _)
  have common (a b : String) {limit limit' : Workspace → List String → Nat}
      (high : Suffices world reader (workspace.heap.extent + namesWeight [a, b]) limit)
      (high' : Suffices world reader (workspace.heap.extent + namesWeight [a, b]) limit') :=
    commonWithin_halts measured pooled high high' a b (Nat.le_refl _)
  have looked (name : String) : Halts (typeNode reader name) (typeNode reader name) workspace :=
    .of_yields (typeNode_yields pooled.coherent reader name) fun _ _ h => h.2.ne_tooDeep measured
  cases operation with
  | commonSuperclass a b =>
    exact ⟨_, fun limit limit' high high' => (common a b high high').bind fun _ _ _ => .pure _⟩
  | isSubclass sub sup =>
    exact ⟨_, fun limit limit' high high' =>
      ((common sub sup high high').bind fun _ _ _ => .pure _).bind fun _ _ _ => .pure _⟩
  | isSuperclass sup sub =>
    exact ⟨_, fun limit limit' high high' =>
      ((common sub sup high high').bind fun _ _ _ => .pure _).bind fun _ _ _ => .pure _⟩
  | commonSupertype a b =>
    refine ⟨workspace.heap.extent + namesWeight [a.internalName, b.internalName],
      fun limit limit' high high' => Halts.bind ?_ fun _ _ _ => .pure _⟩
    refine (common a.internalName b.internalName high high').bind fun answer _ _ => ?_
    split
    · exact .pure _
    · exact .throw nofun
  | inspect target =>
    exact ⟨0, fun _ _ _ _ => halts_in_place measured pooled target fun id _ _ _ _ => shown id⟩
  | superclass target =>
    refine ⟨0, fun _ _ _ _ => halts_in_place measured pooled target
      fun id x mid pooled has => ?_⟩
    obtain ⟨⟨node, found, -⟩, anchored⟩ := has
    refine Halts.bind_yields (superclass_yields pooled.coherent reader anchored found)
      (fun error _ h => ?_) fun parent _ _ => ?_
    · obtain ⟨-, name, -, fails⟩ := h
      exact fails.ne_tooDeep measured
    · cases parent with
      | none => exact .pure _
      | some parent => exact (Halts.nameOf parent).bind fun _ _ _ => .pure _
  | interfaces target =>
    refine ⟨0, fun _ _ _ _ => halts_in_place measured pooled target
      fun id x mid pooled has => ?_⟩
    refine .interfaces_bind measured pooled has fun targets _ _ _ => ?_
    exact (Halts.mapM_nameOf targets).bind fun _ _ _ => .pure _
  | flatten target =>
    refine ⟨workspace.heap.extent + target.weight, fun limit limit' high high' => ?_⟩
    refine withTarget_halts measured pooled target fun id x mid pooled' _ has few => ?_
    refine (flattenWithin_halts measured pooled' high high' has few).bind fun ids _ _ => ?_
    exact (Halts.mapM_nameOf ids).bind fun _ _ _ => .pure _
  | describe target =>
    exact ⟨0, fun _ _ _ _ => halts_in_place measured pooled target
      fun id _ _ _ _ => .node_bind (.pure _)⟩
  | descends self base =>
    refine ⟨workspace.heap.extent + self.weight, fun limit limit' high high' => ?_⟩
    refine withTarget_halts measured pooled self fun a x mid pooled₁ _ hasA few => ?_
    refine withTarget_halts measured pooled₁ base fun b y last pooled₂ keeps _ _ => ?_
    refine (isSubclassOfWithin_halts measured pooled₂ high high' (keeps a x hasA) few b).bind ?_
    exact fun _ _ _ => .pure _
  | compare first second =>
    refine ⟨0, fun _ _ _ _ => halts_in_place measured pooled first
      fun a _ mid pooled _ => ?_⟩
    refine halts_in_place measured pooled second fun b _ _ _ _ => ?_
    exact (Halts.nameOf a).bind fun _ _ _ => (Halts.nameOf b).bind fun _ _ _ => .pure _
  | keep slot name =>
    exact ⟨0, fun _ _ _ _ => (looked name).bind fun id _ _ => .modify_bind (shown id)⟩
  | drop slot => exact ⟨0, fun _ _ _ _ => .get_bind (.modify_bind (.pure _))⟩
  | cached name =>
    refine ⟨0, fun _ _ _ _ => Halts.bind_yields
      (cached_yields pooled.coherent reader .everything name) (fun _ _ absurd => absurd.elim)
      fun found _ _ => ?_⟩
    cases found with
    | none => exact .pure _
    | some id => exact shown id
  | isPinned name => exact ⟨0, fun _ _ _ _ => .get_bind (.pure _)⟩
  | primitive base => exact ⟨0, fun _ _ _ _ => .get_bind (shown _)⟩
  | root => exact ⟨0, fun _ _ _ _ => .get_bind (shown _)⟩
  | releaseRetained => exact ⟨0, fun _ _ _ _ => .modify_bind (.pure _)⟩
  | retainedCount => exact ⟨0, fun _ _ _ _ => .get_bind (.pure _)⟩
  | answerCount => exact ⟨0, fun _ _ _ _ => .get_bind (.pure _)⟩
  | knownAnswer first second =>
    have known : Halts (Query.knownAnswer first second) (Query.knownAnswer first second)
        workspace := .get_bind (.pure _)
    refine ⟨0, fun _ _ _ _ => known.bind fun found _ _ => ?_⟩
    cases found with
    | none => exact .pure _
    | some answer => exact .pure _
  | clearAnswers => exact ⟨0, fun _ _ _ _ => .modify_bind (.pure _)⟩
  | statistics => exact ⟨0, fun _ _ _ _ => .get_bind (.pure _)⟩

/-- An operation ends without a limit on its walks: as soon as a limit is high enough, the operation
does not fail for want of depth and a higher limit makes no difference to it.  If the extent of the
reader is what it says, the limits that are worked out beforehand make no difference either. -/
def Ends (operation : Operation) (reader : Reader) (workspace : Workspace) : Prop :=
  ∃ enough, ∀ limit, enough ≤ limit →
    Halts (operation.queryWithin reader fun _ _ => enough)
      (operation.queryWithin reader fun _ _ => limit) workspace ∧
    (reader.Bounded → Halts (operation.query reader)
      (operation.queryWithin reader fun _ _ => limit) workspace)

/-- **Every operation ends** in every state that an operation passes through after any history, with
any reader over finitely many names.  No subtype test from a node that is held is ever in the middle
of searching the supertypes of one class or interface twice: whatever it would do then instead
makes no difference. -/
theorem always_ends {capacity : Nat} {registry : Registry} {history : List (Reader × Operation)}
    {asked reader : Reader} {workspace : Workspace}
    (reached : Steps registry asked ((create capacity registry).run history).2 workspace)
    (measured : reader.Measured)
    (finite : {name | ∃ metadata, reader.read name = .ok metadata}.Finite) :
    (∀ operation : Operation, operation.Ends reader workspace) ∧
      ∀ self base, workspace.Anchored self → ∃ enough, ∀ limit, enough ≤ limit → ∀ instead,
        watched reader instead limit [] [] self base workspace =
          isSubclassOf reader limit self base workspace := by
  have coherent := reached.coherent ((coherent_create capacity registry).run history)
  have pooled := pooled_pool coherent reader
  obtain ⟨extent, bounded⟩ := Reader.exists_boundedBy finite
  have spans := spans_pool coherent bounded
  constructor
  · intro operation
    obtain ⟨bound, halts⟩ := halts_within measured pooled operation
    refine ⟨bound + 2 * (extent + workspace.heap.extent) + 1, fun limit le =>
      ⟨halts _ _ (suffices_const spans (Nat.lt_succ_self _)) (suffices_const spans le),
        fun honest => ?_⟩⟩
    rw [← queryWithin_walkLimit reader operation]
    exact halts _ _ (suffices_walkLimit honest) (suffices_const spans le)
  · intro self base anchored
    obtain ⟨node, found⟩ := coherent.alive_of_anchored anchored
    have has : workspace.Has self node.name := ⟨⟨node, found, rfl⟩, anchored⟩
    refine ⟨layers node.name + 1 + 2 * (extent + workspace.heap.extent) + 1,
      fun limit le instead => ?_⟩
    refine (reaches_halts measured instead (Nat.le_refl limit) List.nodup_nil base self node.name
      workspace ⟨pooled, .nil⟩ has fun deep => ?_).same
    have least := deep.le spans
    omega

/-- Types in memory that are tangled up: a class that is its own superclass, two interfaces that are
above each other, a class above arrays of itself, and supertypes that are primitive, malformed or
missing. -/
def tangledTypes : InMemoryReader where
  types := .ofTypes [.ofClass "demo/Self" "demo/Self" [],
    .ofInterface "demo/I" ["demo/J"], .ofInterface "demo/J" ["demo/I", "demo/Missing"],
    .ofClass "demo/Row" "[[Ldemo/Row;" ["demo/I", "I"], .ofClass "demo/Odd" "[L;" [""]]

/-- A tangled class is held, and the array of another one is tested against it. -/
theorem always_ends_tangled :
    let reader := tangledTypes.reader
    let workspace := ((create 1 .empty).run
      [(reader, keep "slot" "demo/Row"), (reader, descends (.kept "slot") (.named "demo/J"))]).2
    reader.Measured ∧ {name | ∃ metadata, reader.read name = .ok metadata}.Finite ∧
      (descends (.named "[Ldemo/Self;") (.kept "slot")).Ends reader workspace := by
  intro reader workspace
  have measured : reader.Measured := tangledTypes.measured
  have finite := tangledTypes.finite
  have reached : Steps .empty reader workspace workspace := .refl
  exact ⟨measured, finite, (always_ends reached measured finite).1 _⟩

end Operation

end ClassLattice
