import ClassLattice.Proofs.Operation.Soundness
import ClassLattice.Proofs.Universe.Lawful

/-!
# Runs of operations

A run keeps a workspace valid, and what is answered in it is true.  In a lawful universe a reader
that serves it leaves no question about types unanswered, whatever was asked or failed before.
-/

set_option autoImplicit false

namespace ClassLattice

namespace Operation

variable {world : Universe} {reader : Reader} {workspace : Workspace} {operation : Operation}

/-- **An operation keeps a workspace valid**, whether it is answered or fails. -/
theorem valid_perform (within : reader.Within world) (valid : workspace.Valid world)
    (operation : Operation) : (operation.perform reader workspace).2.Valid world := by
  refine perform_of_yields (fun _ after => after.Valid world) ?_
  exact (tells within valid operation).imp (fun _ _ told => told.valid)
    fun _ _ untold => untold.valid

/-- An answer that is no failure is true. -/
theorem admits_perform (within : reader.Within world) (valid : workspace.Valid world)
    (answered : ∀ error, (operation.perform reader workspace).1 ≠ .failure error) :
    world.Admits world.Shares workspace.targetName operation
      (operation.perform reader workspace).1 := by
  have either := perform_of_yields (fun answer _ =>
    world.Admits world.Shares workspace.targetName operation answer ∨
      ∃ error, answer = .failure error)
    ((tells within valid operation).imp (fun _ _ told => .inl told.admits)
      fun error _ _ => .inr ⟨error, rfl⟩)
  rcases either with admits | ⟨error, failure⟩
  · exact admits
  · exact absurd failure (answered error)

end Operation

/-- **Every run keeps a workspace valid.** -/
theorem Workspace.Valid.run {world : Universe} {workspace : Workspace}
    {history : List (Reader × Operation)} (valid : workspace.Valid world)
    (within : ∀ step ∈ history, step.1.Within world) : (workspace.run history).2.Valid world := by
  induction history generalizing workspace with
  | nil => exact valid
  | cons step rest ih =>
    exact ih (Operation.valid_perform (within step List.mem_cons_self) valid step.2)
      fun later member => within later (List.mem_cons_of_mem _ member)

namespace Operation

open Workspace Query

variable {world : Universe} {reader : Reader} {workspace : Workspace} {a b name : String}

/-- What two types have in common is found: what is kept for the two, if anything is. -/
theorem commonSuperclass_found (lawful : world.Lawful) (within : reader.Within world)
    (serves : reader.Serves world) (bounded : reader.Bounded) (valid : workspace.Valid world)
    (resolvesA : world.resolves a = true) (resolvesB : world.resolves b = true) :
    (Query.commonSuperclass reader a b).Yields workspace
      (fun c _ => world.Shares a b c ∧
        ∀ known, workspace.caches.answers.answer? a b = some known → c = known)
      fun _ _ => False := by
  refine (commonSuperclass_yields within valid a b).imp (fun c after h => ⟨h.1.meets, ?_⟩)
    fun error after h => ?_
  · intro known kept
    have later := h.1.proceeds.answer? kept
    exact Option.some.inj (h.2.symm.trans later)
  · exact lawful.not_barred resolvesA resolvesB (h.2 serves bounded).1

/-- **The question what two types have in common is answered.** -/
theorem perform_commonSuperclass (lawful : world.Lawful) (within : reader.Within world)
    (serves : reader.Serves world) (bounded : reader.Bounded) (valid : workspace.Valid world)
    (resolvesA : world.resolves a = true) (resolvesB : world.resolves b = true) :
    ∃ c, ((commonSuperclass a b).perform reader workspace).1 = .text c := by
  refine perform_of_yields (fun answer _ => ∃ c, answer = .text c) ?_
  have found := commonSuperclass_found lawful within serves bounded valid resolvesA resolvesB
  refine found.bind (fun c after _ => ?_) fun _ _ h => h.elim
  exact Yields.pure ⟨c, rfl⟩

/-- **The question whether one type can be assigned to another is answered.** -/
theorem perform_isSubclass (lawful : world.Lawful) (within : reader.Within world)
    (serves : reader.Serves world) (bounded : reader.Bounded) (valid : workspace.Valid world)
    (resolvesA : world.resolves a = true) (resolvesB : world.resolves b = true) :
    ∃ c, ((isSubclass a b).perform reader workspace).1 = .flag (c == b) ∧ world.Shares a b c ∧
      ∀ known, workspace.caches.answers.answer? a b = some known → c = known := by
  refine perform_of_yields (fun answer _ => ∃ c, answer = .flag (c == b) ∧ world.Shares a b c ∧
    ∀ known, workspace.caches.answers.answer? a b = some known → c = known) ?_
  have found := commonSuperclass_found lawful within serves bounded valid resolvesA resolvesB
  show Query.Yields (Query.isSubclass reader a b >>= fun flag => pure (Answer.flag flag)) _ _ _
  unfold Query.isSubclass
  rw [bind_assoc]
  refine found.bind (fun c after h => ?_) fun _ _ h => h.elim
  exact Yields.pure ⟨c, rfl, h⟩

/-- **A look at a name is answered.** -/
theorem perform_inspect (within : reader.Within world) (serves : reader.Serves world)
    (bounded : reader.Bounded) (valid : workspace.Valid world)
    (resolves : world.resolves name = true) :
    ∃ view, ((inspect (.named name)).perform reader workspace).1 = .node view ∧
      view.name = name := by
  refine perform_of_yields (fun answer _ => ∃ view, answer = .node view ∧ view.name = name) ?_
  have looked : (withTarget reader (.named name) viewOf).Yields workspace
      (Answered world (world.LooksLike name)) (Faulted world fun _ => False) := by
    apply withTarget_resolved within serves (.refl valid) (.named name) rfl resolves
    intro id mid serving _ has
    apply (viewOf_yields serving.valid has.1 False).imp
    · intro answer after h
      exact h
    · intro error after h
      exact ⟨h.1, h.2 serves bounded⟩
  refine looked.imp (fun answer after h => ?_) fun error after h => h.2.elim
  obtain ⟨-, -, facts⟩ := h
  exact ⟨_, rfl, congrArg NodeView.name facts⟩

end Operation

end ClassLattice
