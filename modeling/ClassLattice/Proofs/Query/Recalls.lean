import ClassLattice.Proofs.PairMemo
import ClassLattice.Proofs.Query.Composition
import ClassLattice.Proofs.Query.Yields

/-!
# Answers are not forgotten

Whatever a query does, and whether it ends with an answer or fails, every answer that was kept for
a pair before is kept afterwards.  The only operation that forgets answers is the one that clears
them.
-/

set_option autoImplicit false

namespace ClassLattice

/-- Every answer that an old workspace keeps is kept in a new one. -/
def Workspace.Recalls (old new : Workspace) : Prop :=
  ∀ a b answer, old.caches.answers.answer? a b = some answer →
    new.caches.answers.answer? a b = some answer

/-- A query recalls all answers. -/
def Query.Recalls {α : Type} (query : Query α) : Prop :=
  ∀ workspace, query.Yields workspace (fun _ => workspace.Recalls) fun _ => workspace.Recalls

namespace Query.Recalls

variable {α β : Type} {reader : Reader} {query : Query α} {next : α → Query β}

/-- Queries one after the other keep all answers if both do. -/
theorem bind (h : query.Recalls) (h' : ∀ value, (next value).Recalls) :
    (query >>= next).Recalls := by
  intro workspace
  refine (h workspace).bind (fun value after first => ?_) fun _ _ first => first
  exact (h' value after).imp
    (fun _ _ second a b answer kept => second a b answer (first a b answer kept))
    fun _ _ second a b answer kept => second a b answer (first a b answer kept)

/-- To give a value keeps all answers. -/
theorem pure (value : α) : Recalls (pure value : Query α) := fun _ _ _ _ kept => kept

/-- To fail keeps all answers. -/
theorem throw (error : HierarchyError) : Recalls (throw error : Query α) :=
  fun _ _ _ _ kept => kept

/-- To look at the workspace keeps all answers. -/
theorem get : Recalls (get : Query Workspace) := fun _ _ _ _ kept => kept

/-- A change elsewhere keeps all answers. -/
theorem modify (change : Workspace → Workspace)
    (same : ∀ workspace, (change workspace).caches.answers = workspace.caches.answers) :
    Recalls (modify change : Query Unit) := by
  intro workspace a b answer kept
  show (change workspace).caches.answers.answer? a b = some answer
  rw [same]
  exact kept

/-- To look at a node keeps all answers. -/
theorem node (id : NodeId) : (node id).Recalls := fun _ _ _ _ kept => kept

/-- To put a node in keeps all answers. -/
theorem insert (node : Node) : (insert node).Recalls := by
  intro workspace a b answer kept
  show (workspace.insert node).2.caches.answers.answer? a b = some answer
  have same : (workspace.insert node).2.caches.answers = workspace.caches.answers := by
    unfold Workspace.insert Workspace.noteClash
    split <;> (dsimp only; split <;> rfl)
  rw [same]
  exact kept

/-- To change a node keeps all answers. -/
theorem modifyNode (id : NodeId) (change : Node → Node) : (modifyNode id change).Recalls :=
  fun _ _ _ _ kept => kept

/-- To look among the nodes that there are keeps all answers. -/
theorem cached (name : String) : (cached name).Recalls := by
  intro workspace a b answer kept
  show (workspace.cached name).2.caches.answers.answer? a b = some answer
  have same : (workspace.cached name).2.caches.answers = workspace.caches.answers := by
    unfold Workspace.cached
    split
    · rfl
    · split
      · split <;> rfl
      · rfl
  rw [same]
  exact kept

/-- To read metadata keeps all answers. -/
theorem readMetadata (reader : Reader) (name : String) : (readMetadata reader name).Recalls := by
  intro workspace
  have same : (workspace.noteRead name).caches.answers = workspace.caches.answers := by
    unfold Workspace.noteRead Workspace.noteClash
    split <;> rfl
  unfold Yields Query.readMetadata
  cases reader.read name <;>
  · intro a b answer kept
    rw [same]
    exact kept

/-- To hold a node for a while keeps all answers. -/
theorem holding {id : NodeId} (h : query.Recalls) : (holding id query).Recalls :=
  fun workspace => Yields.holding (h (workspace.hold id))

/-! ## Looking up -/

/-- To look a class up keeps all answers. -/
theorem classNode (reader : Reader) (name : String) : (classNode reader name).Recalls := by
  refine (cached name).bind fun found => ?_
  cases found with
  | some id => exact pure id
  | none => exact (readMetadata reader name).bind fun metadata => insert _

/-- To look a name up by its characters keeps all answers. -/
theorem nodeOfChars (reader : Reader) (chars : List Char) : (nodeOfChars reader chars).Recalls := by
  induction same : chars.length using Nat.strongRecOn generalizing chars with
  | _ length ih =>
    rw [nodeOfChars.eq_def]
    refine (cached _).bind fun found => ?_
    cases found with
    | some id => exact pure id
    | none =>
      dsimp only
      split
      · exact throw _
      · exact throw _
      · rename_i rest
        exact (ih _ (by rw [← same]; simp) ('[' :: rest) rfl).bind fun element => insert _
      · rename_i rest
        cases objectElement rest with
        | error reason => exact throw _
        | ok name => exact (classNode reader name).bind fun element => insert _
      · split
        · exact throw _
        · exact get.bind fun workspace => insert _
      · exact throw _
      · exact (readMetadata reader _).bind fun metadata => insert _

/-- To look a type up keeps all answers. -/
theorem typeNode (reader : Reader) (name : String) : (typeNode reader name).Recalls :=
  nodeOfChars reader name.toList

/-- To look several types up keeps all answers. -/
theorem holdingTypes (reader : Reader) (names : List String) {query : List NodeId → Query α}
    (h : ∀ ids, (query ids).Recalls) : (holdingTypes reader names query).Recalls := by
  induction names generalizing query with
  | nil => exact h []
  | cons name rest ih =>
    exact (typeNode reader name).bind fun id => holding (ih fun ids => h (id :: ids))

/-- To ask for a superclass keeps all answers. -/
theorem superclass (reader : Reader) (id : NodeId) : (superclass reader id).Recalls := by
  refine (node id).bind fun this => ?_
  split
  · exact pure none
  · exact pure none
  · exact get.bind fun workspace => pure _
  all_goals
    split
    · exact pure none
    · exact pure _
    · exact (typeNode reader _).bind fun target => (modifyNode id _).bind fun _ => pure _

/-- To ask for interfaces keeps all answers. -/
theorem interfaces (reader : Reader) (id : NodeId) : (interfaces reader id).Recalls := by
  refine (node id).bind fun this => ?_
  split
  · exact pure []
  · exact pure []
  · exact pure []
  all_goals
    split
    · exact pure _
    · exact holdingTypes reader _ fun targets => (modifyNode id _).bind fun _ => pure _

/-! ## Whole queries -/

/-- **To keep an answer keeps all that were there.** -/
theorem keepAnswer (first second answer : String) : (keepAnswer first second answer).Recalls :=
  fun _ _ _ _ kept => PairMemo.answer?_settle_of_answer? kept

/-- All that explores keeps all answers. -/
theorem explores (h : Explores reader query) : query.Recalls := by
  induction h with
  | pure value => exact pure value
  | throw error => exact throw error
  | get => exact get
  | node id => exact node id
  | typeNode name => exact typeNode reader name
  | superclass id => exact superclass reader id
  | interfaces id => exact interfaces reader id
  | bind _ _ first rest => exact first.bind rest

/-- All that concludes keeps all answers. -/
theorem concludes (h : Concludes reader query) : query.Recalls := by
  induction h with
  | explores h => exact explores h
  | bind first _ rest => exact (explores first).bind rest
  | map _ _ ih => exact ih.bind fun _ => pure _
  | keep _ first second ih => exact ih.bind (keepAnswer first second)
  | holding name _ ih => exact (typeNode reader name).bind fun id => holding (ih id)

/-- To turn to a target keeps all answers. -/
theorem withTarget (target : Target) {query : NodeId → Query Answer}
    (h : ∀ id, (query id).Recalls) : (withTarget reader target query).Recalls := by
  cases target with
  | named name => exact (typeNode reader name).bind fun id => holding (h id)
  | kept slot =>
    refine get.bind fun workspace => ?_
    split
    · exact holding (h _)
    · exact pure _

/-- **All acts keep all answers.** -/
theorem acts (h : Acts reader query) : query.Recalls := by
  induction h with
  | explores h => exact explores h
  | common first second => exact concludes (.commonSuperclass first second)
  | bind _ _ first rest => exact first.bind rest
  | cached name => exact cached name
  | target target _ ih => exact withTarget target ih
  | fillSlot name slot _ ih =>
    exact (typeNode reader name).bind fun id =>
      (modify (·.fillSlot slot id) fun _ => rfl).bind fun _ => ih id
  | clearSlot slot => exact modify (·.clearSlot slot) fun _ => rfl
  | releaseRetained => exact modify Workspace.releaseRetained fun _ => rfl

end Query.Recalls

/-- **Every operation but the one that clears the answers recalls them.** -/
theorem Operation.recalls_perform (reader : Reader) {operation : Operation}
    (h : operation ≠ .clearAnswers) (workspace : Workspace) :
    workspace.Recalls (operation.perform reader workspace).2 :=
  perform_of_yields (fun _ => workspace.Recalls) (Query.Recalls.acts (.operation h) workspace)

/-- **No answer is forgotten in a run that does not clear the answers.** -/
theorem Workspace.recalls_run {history : List (Reader × Operation)}
    (h : ∀ step ∈ history, step.2 ≠ .clearAnswers) (workspace : Workspace) :
    workspace.Recalls (workspace.run history).2 := by
  induction history generalizing workspace with
  | nil => exact fun _ _ _ kept => kept
  | cons step rest ih =>
    intro a b answer kept
    have first := Operation.recalls_perform step.1 (h step List.mem_cons_self) workspace
    exact ih (fun later member => h later (List.mem_cons_of_mem _ member)) _ a b answer
      (first a b answer kept)

end ClassLattice
