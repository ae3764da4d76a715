import ClassLattice.Proofs.Operation.Targets

/-!
# What operations answer

What each question about types answers in a valid workspace, said by names and by the universe, and
why it can have no answer if the reader serves the universe.
-/

set_option autoImplicit false

namespace ClassLattice

namespace Shape.Matches

variable {ε δ : Type} {related : ε → δ → Prop} {shape : Shape ε} {shape' : Shape δ}

/-- Matching shapes have superclasses of the same name. -/
theorem superName_eq (h : shape.Matches related shape') : shape.superName = shape'.superName := by
  cases h <;> rfl

/-- Matching shapes have interfaces of the same names. -/
theorem interfaceNames_eq (h : shape.Matches related shape') :
    shape.interfaceNames = shape'.interfaceNames := by
  cases h <;> rfl

end Shape.Matches

/-- What a node shows of itself but for which of its edges are resolved. -/
def NodeView.facts (view : NodeView) : NodeView :=
  { view with isSuperclassResolved := true, areInterfacesResolved := true }

/-- What the node of a name shows of itself but for which of its edges are resolved. -/
def Shape.facts (name : String) (shape : Shape String) : NodeView where
  name := name
  kind := match shape with
    | .root => "object"
    | .primitive _ => "primitive"
    | .array _ => "array"
    | .declared declaration => if declaration.isMarker then "special" else "class"
  base := match shape with
    | .primitive base => some base
    | _ => none
  isInterface := shape.isInterface
  isPrimitive := shape.isPrimitive
  element := shape.element?
  isSuperclassResolved := true
  areInterfacesResolved := true

namespace Universe

variable {world : Universe} {name : String} {answer answer' : Answer}

/-- The answer to the question for the superclass of a name. -/
inductive SuperclassIs (world : Universe) (name : String) : Answer → Prop
  | none {shape : Shape String} (h : world.shape? name = some shape)
      (absent : shape.superName = none) : SuperclassIs world name .nothing
  | some {shape : Shape String} {parent : String} (h : world.shape? name = some shape)
      (declared : shape.superName = some parent) (resolves : world.resolves parent = true) :
      SuperclassIs world name (.text parent)

/-- The answer to the question for the interfaces of a name. -/
inductive InterfacesAre (world : Universe) (name : String) : Answer → Prop
  | intro {shape : Shape String} (h : world.shape? name = some shape)
      (resolve : ∀ parent ∈ shape.interfaceNames, world.resolves parent = true) :
      InterfacesAre world name (.names shape.interfaceNames)

/-- The answer to the question for a look at a name. -/
inductive LooksLike (world : Universe) (name : String) : Answer → Prop
  | intro {shape : Shape String} {view : NodeView} (h : world.shape? name = some shape)
      (facts : view.facts = shape.facts name) : LooksLike world name (.node view)

/-- The answer to the question for all ancestors of a name. -/
def AncestorsAre (world : Universe) (name : String) (answer : Answer) : Prop :=
  ∃ names, world.Lists name names ∧ answer = .names names

/-- The answer to the question whether one name descends from another. -/
def Decides (world : Universe) (x y : String) (answer : Answer) : Prop :=
  ∃ found, world.Finds [] x y found ∧ answer = .flag found

/-- A name has one answer to the question for its superclass. -/
theorem SuperclassIs.unique (h : world.SuperclassIs name answer)
    (h' : world.SuperclassIs name answer') : answer = answer' := by
  cases h with
  | none shape absent =>
    cases h' with
    | none => rfl
    | some shape' declared =>
      obtain rfl := Option.some.inj (shape.symm.trans shape')
      rw [absent] at declared
      cases declared
  | some shape declared =>
    cases h' with
    | none shape' absent =>
      obtain rfl := Option.some.inj (shape.symm.trans shape')
      rw [absent] at declared
      cases declared
    | some shape' declared' =>
      obtain rfl := Option.some.inj (shape.symm.trans shape')
      rw [Option.some.inj (declared.symm.trans declared')]

/-- A name has one answer to the question for its interfaces. -/
theorem InterfacesAre.unique (h : world.InterfacesAre name answer)
    (h' : world.InterfacesAre name answer') : answer = answer' := by
  obtain ⟨shape, -⟩ := h
  obtain ⟨shape', -⟩ := h'
  obtain rfl := Option.some.inj (shape.symm.trans shape')
  rfl

end Universe

namespace Query

open Workspace

variable {world : Universe} {reader : Reader} {before workspace : Workspace} {id : NodeId}
  {name : String}

/-- What can be seen of a node without its edges is told by the shape of its name. -/
theorem view_facts (faithful : workspace.Faithful world) (named : workspace.heap.Names id name) :
    ∃ shape, world.shape? name = some shape ∧ (workspace.view id).facts = shape.facts name := by
  obtain ⟨node, found, rfl⟩ := named
  obtain ⟨shape, shape?, shows⟩ := faithful.shape found
  refine ⟨shape, shape?, ?_⟩
  rw [Heap.Shows] at shows
  unfold Workspace.view
  rw [Heap.node_of_get? found]
  obtain ⟨name, kind⟩ := node
  cases kind with
  | array element =>
    cases shows with
    | @array _ inner named =>
    obtain ⟨node, found, rfl⟩ := named
    simp only [NodeView.facts, Shape.facts, Node.element?, Option.map_some,
      Heap.node_of_get? found]
    rfl
  | declared supertypes =>
    cases shows
    simp [NodeView.facts, Shape.facts, Node.isInterface, Node.isPrimitive, Node.element?,
      NodeKind.word, Shape.isInterface, Shape.isPrimitive, Shape.element?, Supertypes.declaration]
  | _ =>
    cases shows
    rfl

/-- A view of a node shows what its name looks like. -/
theorem viewOf_yields (valid : workspace.Valid world) (named : workspace.heap.Names id name)
    (cause : Prop) :
    (viewOf id).Yields workspace (Answered world (world.LooksLike name))
      (Refused world reader cause) := by
  obtain ⟨shape, shape?, facts⟩ := view_facts valid.faithful named
  exact ⟨valid, .intro shape? facts⟩

/-- The superclass of a node is that of its name, or it is refused. -/
theorem superclassOf_yields (within : reader.Within world) (valid : workspace.Valid world)
    (has : workspace.Has id name) :
    Yields (do
        match ← superclass reader id with
        | some parent => return .text (← nameOf parent)
        | none => return .nothing) workspace (Answered world (world.SuperclassIs name))
      (Refused world reader (∀ answer, ¬ world.SuperclassIs name answer)) := by
  obtain ⟨⟨node, found, rfl⟩, anchored⟩ := has
  obtain ⟨shape, shape?, shows⟩ := valid.faithful.shape found
  have superName := shows.superName_eq
  refine (superclass_yields valid.faithful.coherent reader anchored found).bind
    (fun parent after h => ?_) fun error after h => ?_
  · obtain ⟨looks, related, -⟩ := h
    have valid' := valid.looksUp within looks
    rw [superName] at related
    generalize declared : shape.superName = known at related
    cases related with
    | none => exact Yields.pure ⟨valid', .none shape? declared⟩
    | some has =>
      have resolves := valid'.faithful.resolves has.1
      obtain ⟨⟨node', found', rfl⟩, -⟩ := has
      exact Yields.nameOf_bind found' (Yields.pure ⟨valid', .some shape? declared resolves⟩)
  · obtain ⟨looks, parent, declared, fails⟩ := h
    refine ⟨valid.looksUp within looks, fun serves _ answer is => ?_⟩
    have lost := serves.not_resolves fails
    rw [superName] at declared
    cases is with
    | none shape' absent =>
      obtain rfl := Option.some.inj (shape?.symm.trans shape')
      rw [declared] at absent
      cases absent
    | some shape' declared' resolves =>
      obtain rfl := Option.some.inj (shape?.symm.trans shape')
      rw [← Option.some.inj (declared.symm.trans declared'), lost] at resolves
      cases resolves

/-- The interfaces of a node are those of its name, or they are refused. -/
theorem interfacesOf_yields (within : reader.Within world) (valid : workspace.Valid world)
    (has : workspace.Has id name) :
    Yields (do return .names (← (← interfaces reader id).mapM nameOf)) workspace
      (Answered world (world.InterfacesAre name))
      (Refused world reader (∀ answer, ¬ world.InterfacesAre name answer)) := by
  obtain ⟨⟨node, found, rfl⟩, anchored⟩ := has
  obtain ⟨shape, shape?, shows⟩ := valid.faithful.shape found
  have names := shows.interfaceNames_eq
  refine (interfaces_yields valid.faithful.coherent reader anchored found).bind
    (fun targets after h => ?_) fun error after h => ?_
  · obtain ⟨looks, related⟩ := h
    have valid' := valid.looksUp within looks
    rw [names] at related
    refine (mapM_nameOf_yields related).bind ?_ fun _ _ h => h.elim
    rintro found last ⟨rfl, rfl⟩
    refine Yields.pure ⟨valid', .intro shape? fun parent member => ?_⟩
    obtain ⟨id, -, has⟩ := related.exists_left member
    exact valid'.faithful.resolves has.1
  · obtain ⟨looks, parent, listed, fails⟩ := h
    refine ⟨valid.looksUp within looks, fun serves _ answer are => ?_⟩
    have lost := serves.not_resolves fails
    rw [names] at listed
    obtain ⟨shape', resolve⟩ := are
    obtain rfl := Option.some.inj (shape?.symm.trans shape')
    rw [resolve parent listed] at lost
    cases lost

/-- The limit of a walk is taken from the workspace as it is. -/
theorem Yields.nodeWalkLimit_bind {α : Type} {next : Nat → Query α}
    {ok : α → Workspace → Prop} {failed : HierarchyError → Workspace → Prop}
    (h : (next (workspace.walkLimit reader.extent [])).Yields workspace ok failed) :
    (nodeWalkLimit reader >>= next).Yields workspace ok failed := h

/-- A walk from a name failed, which something is to blame for. -/
def Thwarted (world : Universe) (reader : Reader) (limit : Nat) (name : String) (cause : Prop)
    (error : HierarchyError) (after : Workspace) : Prop :=
  after.Valid world ∧ world.Blames reader limit [] name error ∧
    (reader.Serves world → reader.Bounded → cause)

/-- A walk that was thwarted was refused. -/
theorem Thwarted.refused {limit : Nat} {cause : Prop} {error : HierarchyError}
    (h : Thwarted world reader limit name cause error workspace) :
    Refused world reader cause error workspace := ⟨h.1, h.2.2⟩

/-- The flattened list of a node are the ancestors of its name, or the walk is thwarted. -/
theorem flattenOf_yields (within : reader.Within world) (valid : workspace.Valid world)
    (has : workspace.Has id name) :
    Yields (do return .names (← (← flatten reader (← nodeWalkLimit reader) id).mapM nameOf))
      workspace (Answered world (world.AncestorsAre name))
      (Thwarted world reader (workspace.walkLimit reader.extent []) name
        (∀ answer, ¬ world.AncestorsAre name answer)) := by
  refine Yields.nodeWalkLimit_bind ?_
  rw [← bind_assoc]
  refine (ancestors_yields within _ valid.faithful has).bind (fun names after h => ?_)
    fun error after h => ?_
  · exact Yields.pure ⟨valid.looksUp within h.1, names, h.2, rfl⟩
  · refine ⟨valid.looksUp within h.looksUp, h.blame,
      fun serves bounded answer ⟨_, ⟨more, listed⟩, _⟩ => ?_⟩
    rcases h.missing serves with deep | missing
    · exact valid.faithful.not_deep_of_names serves bounded has.1 deep
    · rw [missing more] at listed
      cases listed

/-- Whether a node descends from another is decided by their names, or the walk is thwarted. -/
theorem descendsOf_yields (within : reader.Within world) (valid : workspace.Valid world)
    {base : NodeId} {baseName : String} (has : workspace.Has id name)
    (hasBase : workspace.Has base baseName) :
    Yields (do return Answer.flag (← isSubclassOf reader (← nodeWalkLimit reader) id base)) workspace
      (Answered world (world.Decides name baseName))
      (Thwarted world reader (workspace.walkLimit reader.extent []) name
        (∀ found, world.Finds [] name baseName found → found = true ∧
          ∃ inner, world.Nests baseName inner ∧ world.isInterface inner = true ∧
            ¬ workspace.Pristine inner)) := by
  refine Yields.nodeWalkLimit_bind ?_
  unfold isSubclassOf
  refine (reaches_yields within _ id name workspace
    ⟨valid.faithful, hasBase, fun _ member => (List.not_mem_nil member).elim⟩ has).bind
    (fun found after h => ?_) fun error after h => ?_
  · exact Yields.pure ⟨valid.looksUp within h.looksUp, found, ⟨_, h.answer⟩, rfl⟩
  · refine ⟨valid.looksUp within h.looksUp, h.blame, fun serves bounded => ?_⟩
    rcases h.missed serves with deep | missed
    · exact absurd deep (valid.faithful.not_deep_of_names serves bounded has.1)
    · exact missed

/-- What two names have in common is found and remembered, or something is to blame. -/
theorem commonSuperclass_yields (within : reader.Within world) (valid : workspace.Valid world)
    (a b : String) :
    (commonSuperclass reader a b).Yields workspace
      (fun answer after => Met world reader workspace (layers a + layers b + 1) a b answer after ∧
        after.caches.answers.answer? a b = some answer)
      (fun error after => Unmet world reader workspace (workspace.walkLimit reader.extent [a, b])
          (workspace.walkLimit reader.extent [a, b]) a b error after ∧
        (reader.Serves world → reader.Bounded → world.Barred a b ∧
          (workspace.Unspoilt world a b → ∀ answer, ¬ world.Meets a b answer))) := by
  unfold commonSuperclass
  refine Yields.get_bind ?_
  dsimp only
  refine (common_yields within _ _ a b workspace valid.faithful valid.sure).imp
    (fun answer after h => h) fun error after h => ⟨h, fun serves bounded => ?_⟩
  have shallow := valid.faithful.not_deepFor serves bounded a b
  exact ⟨(h.blame.deepFor_or_barred serves).resolve_left shallow,
    (h.missing serves).resolve_left shallow⟩

end Query

end ClassLattice
