import ClassLattice.Hierarchy.Operation

/-!
# How queries are put together

A query that only explores looks up names and follows edges.  A query that concludes does so too,
and may keep an answer, but only as the last thing that it does.  What an operation does is put
together from such queries and from the few changes to the caches and slots that can be asked for.
A property of workspaces that each of these parts has is a property of every query, by induction on
how the query is put together.
-/

set_option autoImplicit false

namespace ClassLattice.Query

/-- A query that looks up names and follows edges, and does nothing else to a workspace. -/
inductive Explores (reader : Reader) : {α : Type} → Query α → Prop
  | pure {α : Type} (value : α) : Explores reader (pure value : Query α)
  | throw {α : Type} (error : HierarchyError) : Explores reader (throw error : Query α)
  | get : Explores reader (get : Query Workspace)
  | node (id : NodeId) : Explores reader (node id)
  | typeNode (name : String) : Explores reader (typeNode reader name)
  | superclass (id : NodeId) : Explores reader (superclass reader id)
  | interfaces (id : NodeId) : Explores reader (interfaces reader id)
  | bind {α β : Type} {query : Query α} {next : α → Query β} (first : Explores reader query)
      (rest : ∀ value, Explores reader (next value)) : Explores reader (query >>= next)

/-- A query that explores and keeps answers only when nothing after it can fail. -/
inductive Concludes (reader : Reader) : {α : Type} → Query α → Prop
  | explores {α : Type} {query : Query α} (h : Explores reader query) : Concludes reader query
  | bind {α β : Type} {query : Query α} {next : α → Query β} (first : Explores reader query)
      (rest : ∀ value, Concludes reader (next value)) : Concludes reader (query >>= next)
  | map {α β : Type} {query : Query α} (h : Concludes reader query) (change : α → β) :
      Concludes reader (query >>= fun value => pure (change value))
  | keep {query : Query String} (h : Concludes reader query) (first second : String) :
      Concludes reader (query >>= keepAnswer first second)
  | holding {α : Type} (name : String) {next : NodeId → Query α}
      (h : ∀ id, Concludes reader (next id)) :
      Concludes reader (typeNode reader name >>= fun id => holding id (next id))

/-- A query that an operation other than forgetting all answers is made of. -/
inductive Acts (reader : Reader) : {α : Type} → Query α → Prop
  | explores {α : Type} {query : Query α} (h : Explores reader query) : Acts reader query
  | common (first second : String) : Acts reader (commonSuperclass reader first second)
  | bind {α β : Type} {query : Query α} {next : α → Query β} (first : Acts reader query)
      (rest : ∀ value, Acts reader (next value)) : Acts reader (query >>= next)
  | cached (name : String) : Acts reader (cached name)
  | target (target : Target) {next : NodeId → Query Answer} (h : ∀ id, Acts reader (next id)) :
      Acts reader (withTarget reader target next)
  | fillSlot (name slot : String) {next : NodeId → Query Answer} (h : ∀ id, Acts reader (next id)) :
      Acts reader
        (typeNode reader name >>= fun id => modify (·.fillSlot slot id) >>= fun _ => next id)
  | clearSlot (slot : String) : Acts reader (modify (·.clearSlot slot))
  | releaseRetained : Acts reader (modify Workspace.releaseRetained)

variable {α β : Type} {reader : Reader} {query : Query α} {next : α → Query β}

/-! ## Exploring -/

namespace Explores

/-- A choice between two queries explores if both do. -/
theorem ite {condition : Prop} [Decidable condition] {other : Query α}
    (h : Explores reader query) (h' : Explores reader other) :
    Explores reader (if condition then query else other) := by
  split
  · exact h
  · exact h'

/-- A function behind a query changes nothing in what it explores. -/
theorem map (h : Explores reader query) (change : α → β) : Explores reader (change <$> query) := by
  rw [← bind_pure_comp]
  exact h.bind fun value => .pure (change value)

/-- To take the name of a node explores. -/
theorem nameOf (id : NodeId) : Explores reader (nameOf id) :=
  (node id).bind fun this => .pure this.name

/-- To do the same for all members of a list explores. -/
theorem mapM {all : List α} {step : α → Query β} (h : ∀ x, Explores reader (step x)) :
    Explores reader (all.mapM step) := by
  induction all with
  | nil => exact .pure []
  | cons head rest ih =>
    rw [List.mapM_cons]
    exact (h head).bind fun _ => ih.bind fun _ => .pure _

/-- To look for a member of a list explores. -/
theorem anyM {all : List α} {test : α → Query Bool} (h : ∀ x, Explores reader (test x)) :
    Explores reader (all.anyM test) := by
  induction all with
  | nil => exact .pure false
  | cons head rest ih =>
    rw [List.anyM_cons]
    refine (h head).bind fun found => ?_
    cases found with
    | true => exact .pure true
    | false => exact ih

/-- To go through a list with a value at hand explores. -/
theorem foldlM {all : List α} {step : β → α → Query β}
    (h : ∀ value x, Explores reader (step value x)) (start : β) :
    Explores reader (all.foldlM step start) := by
  induction all generalizing start with
  | nil => exact .pure start
  | cons head rest ih =>
    rw [List.foldlM_cons]
    exact (h start head).bind ih

/-- The part of the subtype test above a class or interface. -/
theorem ascends {walk : NodeId → Query Bool} (h : ∀ id, Explores reader (walk id))
    (self : NodeId) (deep : Bool) :
    Explores reader (do
      if let some parent ← Query.superclass reader self then
        if ← walk parent then return true
      if deep then (← Query.interfaces reader self).reverse.anyM walk
      else return false) := by
  have beside : Explores reader (do
      if deep then (← Query.interfaces reader self).reverse.anyM walk else return false) :=
    ite ((interfaces self).bind fun targets => anyM h) (.pure false)
  refine (superclass self).bind fun parent => ?_
  cases parent with
  | none => exact beside
  | some parent =>
    refine (h parent).bind fun found => ?_
    cases found with
    | true => exact .pure true
    | false => exact beside

/-- The search for an ancestor explores. -/
theorem reaches (depth : Nat) (path : List String) (self base : NodeId) :
    Explores reader (reaches reader depth path self base) := by
  induction depth generalizing path self base with
  | zero => exact (nameOf self).bind fun name => .throw _
  | succ depth ih =>
    unfold Query.reaches
    refine (node self).bind fun this => (node base).bind fun that => ?_
    apply ite
    · exact .pure true
    have above := ascends (fun id => ih (this.name :: path) id base) self that.isInterface
    split
    · exact .pure false
    · exact .pure false
    · split
      · exact .pure true
      · exact ih path _ _
      · exact .pure false
    all_goals
      apply ite
      · exact .pure true
      · apply ite
        · exact (throw _).bind fun _ => above
        · exact above

/-- The part of the walk that gathers above a class or interface. -/
theorem collects {limit : Nat}
    (h : ∀ path onChain depth id ancestors,
      Explores reader (Query.collect reader limit path onChain depth id ancestors))
    (this : Node) (id : NodeId) (path : List String) (onChain : Bool) (depth : Nat)
    (withSelf : Ancestors) :
    Explores reader (do
      let withChain ←
        match ← Query.superclass reader id with
        | some parent =>
          Prod.snd <$> Query.collect reader limit path onChain (depth + 1) parent withSelf
        | none => Pure.pure withSelf
      let (strength, withAll) ←
        (← Query.interfaces reader id).reverse.foldlM (fun (strength, met) parent => do
          let (more, met) ← Query.collect reader limit path false (depth + 1) parent met
          return (addStrength strength more, met)) (this.ownStrength, withChain)
      if this.isInterface then
        return (strength, withAll.addInterface ⟨id, this.name, strength, depth⟩)
      else return (0, withAll)) := by
  have beside (withChain : Ancestors) : Explores reader (do
      let (strength, withAll) ←
        (← Query.interfaces reader id).reverse.foldlM (fun (strength, met) parent => do
          let (more, met) ← Query.collect reader limit path false (depth + 1) parent met
          return (addStrength strength more, met)) (this.ownStrength, withChain)
      if this.isInterface then
        return (strength, withAll.addInterface ⟨id, this.name, strength, depth⟩)
      else return (0, withAll)) := by
    refine (interfaces id).bind fun targets => ?_
    refine (foldlM (fun value parent => (h _ _ _ _ _).bind fun found => .pure _) _).bind ?_
    rintro ⟨strength, withAll⟩
    exact ite (.pure _) (.pure _)
  refine (superclass id).bind fun parent => ?_
  cases parent with
  | none => exact (pure withSelf).bind beside
  | some parent => exact ((h _ _ _ _ _).map Prod.snd).bind beside

/-- The walk that collects ancestors explores. -/
theorem collect (limit : Nat) (path : List String) (onChain : Bool) (depth : Nat) (id : NodeId)
    (ancestors : Ancestors) :
    Explores reader (collect reader limit path onChain depth id ancestors) := by
  induction limit generalizing path onChain depth id ancestors with
  | zero => exact (nameOf id).bind fun name => .throw _
  | succ limit ih =>
    unfold Query.collect
    refine (node id).bind fun this => ?_
    split
    · exact .pure _
    · exact .pure _
    · exact .pure _
    all_goals
      apply ite
      · exact (throw _).bind fun _ => collects ih this id _ _ _ _
      · exact collects ih this id _ _ _ _

/-- To flatten a type explores. -/
theorem flatten (limit : Nat) (id : NodeId) : Explores reader (flatten reader limit id) := by
  refine get.bind fun workspace => (node id).bind fun this => ?_
  split
  · exact .pure _
  · exact .pure _
  · exact .pure _
  all_goals exact (collect limit [] true 0 id {}).bind fun found => .pure _

/-- To take the element of an array explores. -/
theorem referenceElement (id : NodeId) : Explores reader (referenceElement id) := by
  refine (node id).bind fun this => ?_
  split
  · exact .pure none
  · exact (node _).bind fun element => ite (.pure none) (.pure _)

/-- The search for a shared ancestor explores. -/
theorem sharedAncestor (limit : Nat) (a b : NodeId) :
    Explores reader (sharedAncestor reader limit a b) :=
  (flatten limit a).bind fun _ => (mapM nameOf).bind fun _ =>
    (flatten limit b).bind fun _ => (mapM nameOf).bind fun _ => .pure _

/-- To look for an answer explores. -/
theorem knownAnswer (first second : String) : Explores reader (knownAnswer first second) :=
  get.bind fun _ => .pure _

/-- To view a node explores. -/
theorem viewOf (id : NodeId) : Explores reader (viewOf id) := get.bind fun _ => .pure _

/-- To take the limit of a walk explores. -/
theorem nodeWalkLimit : Explores reader (nodeWalkLimit reader) := get.bind fun _ => .pure _

end Explores

/-! ## What two types have in common -/

namespace Concludes

/-- Two nodes meet in a conclusion. -/
theorem meet (limit : Nat) {ofElements : String → String → Query String}
    (h : ∀ x y, Concludes reader (ofElements x y)) (a b : NodeId) :
    Concludes reader (meet reader limit ofElements a b) := by
  refine bind (Explores.reaches limit [] a b) fun up => ?_
  split
  · exact .explores (.nameOf b)
  refine bind (Explores.reaches limit [] b a) fun down => ?_
  split
  · exact .explores (.nameOf a)
  refine bind (Explores.referenceElement a) fun first =>
    bind (Explores.referenceElement b) fun second => ?_
  split
  · exact bind (Explores.nameOf _) fun _ => bind (Explores.nameOf _) fun _ =>
      (h _ _).map arrayDescriptor
  · exact .explores (.sharedAncestor limit a b)

/-- **Finding what two types have in common** keeps the answer for the elements of two arrays
before the one for the arrays, and nothing fails after that. -/
theorem common (limit layers : Nat) (first second : String) :
    Concludes reader (common reader limit layers first second) := by
  induction layers generalizing first second with
  | zero => exact .explores (.throw _)
  | succ layers ih =>
    unfold Query.common
    refine bind (Explores.knownAnswer first second) fun known => ?_
    cases known with
    | some answer => exact .explores (.pure answer)
    | none =>
      exact holding first fun a => holding second fun b => (meet limit ih a b).keep first second

/-- What two types have in common is a conclusion. -/
theorem commonSuperclass (first second : String) :
    Concludes reader (commonSuperclass reader first second) :=
  bind Explores.get fun _ => common _ _ first second

end Concludes

/-! ## Operations -/

namespace Acts

/-- To give a value is an act. -/
theorem pure (value : α) : Acts reader (pure value : Query α) := explores (.pure value)

/-- The question whether a type is a subclass of another is an act. -/
theorem isSubclass (sub sup : String) : Acts reader (isSubclass reader sub sup) :=
  (common sub sup).bind fun _ => pure _

/-- What two field types have in common is found by an act. -/
theorem commonSupertype (first second : FieldType) :
    Acts reader (commonSupertype reader first second) := by
  refine (common _ _).bind fun answer => ?_
  split
  · exact pure _
  · exact explores (.throw _)

/-- **Every operation but the one that clears the answers** is put together from these parts. -/
theorem operation {operation : Operation} (h : operation ≠ .clearAnswers) :
    Acts reader (operation.query reader) := by
  cases operation with
  | commonSuperclass a b => exact (common a b).bind fun _ => pure _
  | isSubclass sub sup => exact (isSubclass sub sup).bind fun _ => pure _
  | isSuperclass sup sub => exact (isSubclass sub sup).bind fun _ => pure _
  | commonSupertype a b => exact (commonSupertype a b).bind fun _ => pure _
  | inspect target => exact Acts.target target fun id => explores (.viewOf id)
  | superclass target =>
    refine Acts.target target fun id => (explores (.superclass id)).bind fun parent => ?_
    cases parent with
    | none => exact pure _
    | some parent => exact explores ((Explores.nameOf parent).bind fun _ => .pure _)
  | interfaces target =>
    exact Acts.target target fun id => explores <|
      (Explores.interfaces id).bind fun _ => (Explores.mapM .nameOf).bind fun _ => .pure _
  | flatten target =>
    exact Acts.target target fun id => explores <| Explores.nodeWalkLimit.bind fun _ =>
      (Explores.flatten _ id).bind fun _ => (Explores.mapM .nameOf).bind fun _ => .pure _
  | describe target =>
    exact Acts.target target fun id => explores ((Explores.node id).bind fun _ => .pure _)
  | descends self base =>
    exact Acts.target self fun a => Acts.target base fun b => explores <|
      Explores.nodeWalkLimit.bind fun _ => (Explores.reaches _ [] a b).bind fun _ => .pure _
  | compare first second =>
    exact Acts.target first fun a => Acts.target second fun b => explores <|
      (Explores.nameOf a).bind fun _ => (Explores.nameOf b).bind fun _ => .pure _
  | keep slot name => exact fillSlot name slot fun id => explores (.viewOf id)
  | drop slot => exact (explores .get).bind fun _ => (clearSlot slot).bind fun _ => pure _
  | cached name =>
    refine (Acts.cached name).bind fun found => ?_
    cases found with
    | none => exact pure _
    | some id => exact explores (.viewOf id)
  | isPinned name => exact explores (Explores.get.bind fun _ => .pure _)
  | primitive base => exact explores (Explores.get.bind fun _ => .viewOf _)
  | root => exact explores (Explores.get.bind fun _ => .viewOf _)
  | releaseRetained => exact Acts.releaseRetained.bind fun _ => pure _
  | retainedCount => exact explores (Explores.get.bind fun _ => .pure _)
  | answerCount => exact explores (Explores.get.bind fun _ => .pure _)
  | knownAnswer first second =>
    refine (explores (.knownAnswer first second)).bind fun found => ?_
    cases found with
    | some answer => exact pure _
    | none => exact pure _
  | clearAnswers => exact absurd rfl h
  | statistics => exact explores (Explores.get.bind fun _ => .pure _)

end Acts

end ClassLattice.Query
