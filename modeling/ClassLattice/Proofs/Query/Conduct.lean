import ClassLattice.Proofs.Query.Composition
import ClassLattice.Proofs.Query.Edges
import ClassLattice.Proofs.Workspace.Steps

/-!
# What queries may do to a coherent workspace

Whatever its reader answers, a query that explores only looks up names and follows edges, and a
query that concludes keeps answers only if it has an answer.  So a question about two types that
fails leaves the answers as they were.  Every operation takes steps that keep a workspace coherent.
-/

set_option autoImplicit false

namespace ClassLattice

namespace Query

open Workspace

variable {α : Type} {registry : Registry} {reader : Reader} {workspace : Workspace}
  {query : Query α}

/-- **Exploring looks up names and follows edges**, whether it ends with an answer or fails. -/
theorem Explores.yields (h : Explores reader query) (coherent : workspace.Coherent registry) :
    query.Yields workspace (fun _ after => LooksUp registry reader .everything workspace after)
      fun _ after => LooksUp registry reader .everything workspace after := by
  -- The induction is on how the query is put together; a sequence starts the rest where it is left.
  induction h generalizing workspace with
  | pure value => exact Yields.pure (.refl workspace)
  | throw error => exact Yields.throw (.refl workspace)
  | get => exact Evolves.refl workspace
  | node id => exact Evolves.refl workspace
  | typeNode name =>
    exact (typeNode_yields coherent reader name).imp
      (fun _ _ h => h.1.widen (Scope.within_everything _))
      fun _ _ h => h.1.widen (Scope.within_everything _)
  | superclass id =>
    exact (superclass_looksUp coherent reader id).imp
      (fun _ _ h => h.widen (Scope.within_everything _))
      fun _ _ h => h.widen (Scope.within_everything _)
  | interfaces id =>
    exact (interfaces_looksUp coherent reader id).imp
      (fun _ _ h => h.widen (Scope.within_everything _))
      fun _ _ h => h.widen (Scope.within_everything _)
  | bind _ _ first rest =>
    refine (first coherent).bind (fun value after looks => ?_) fun _ _ looks => looks
    exact (rest value (looks.coherent coherent)).imp (fun _ _ h => looks.trans h)
      fun _ _ h => looks.trans h

/-- **A query that concludes keeps answers only if it has an answer.** -/
theorem Concludes.yields (h : Concludes reader query) (coherent : workspace.Coherent registry) :
    query.Yields workspace (fun _ after => Proceeds registry reader workspace after)
      fun _ after => LooksUp registry reader .everything workspace after := by
  induction h generalizing workspace with
  | explores h => exact (h.yields coherent).imp (fun _ _ looks => looks.proceeds) fun _ _ h => h
  | bind first _ rest =>
    refine (first.yields coherent).bind (fun value after looks => ?_) fun _ _ looks => looks
    exact (rest value (looks.coherent coherent)).imp (fun _ _ h => looks.proceeds.trans h)
      fun _ _ h => looks.trans h
  | map _ _ ih => exact (ih coherent).bind (fun _ _ h => Yields.pure h) fun _ _ h => h
  | keep _ first second ih =>
    refine (ih coherent).bind (fun answer after h => ?_) fun _ _ h => h
    exact h.trans (.move (.keep after first second answer))
  | holding name _ ih =>
    refine (typeNode_yields coherent reader name).bind (fun id after h => ?_)
      fun _ _ h => h.1.widen (Scope.within_everything _)
    obtain ⟨looks, node, found, -⟩ := h
    have wide := looks.widen (Scope.within_everything _)
    have held := (looks.coherent coherent).hold found
    exact Yields.holding ((ih id held).imp (fun _ _ h => looks.proceeds.trans (.holding found h))
      fun _ _ h => wide.trans (.holding found h))

/-- **What the parts of an operation keep, the operation keeps**, whether it is answered or fails.
The property is one of coherent workspaces that no steps spoil which keep no answer and which
questions about two types do not spoil either. -/
theorem Acts.keeps {invariant : Workspace → Prop}
    (coherent : ∀ old, invariant old → old.Coherent registry)
    (steps : ∀ old new, invariant old → Steps registry reader old new →
      new.caches.answers = old.caches.answers → invariant new)
    (commons : ∀ first second old, invariant old →
      (commonSuperclass reader first second).Yields old (fun _ after => invariant after)
        fun _ after => invariant after)
    (h : Acts reader query) (start : invariant workspace) :
    query.Yields workspace (fun _ after => invariant after) fun _ after => invariant after := by
  have looksUp {scope : Scope} {old new : Workspace} (before : invariant old)
      (looks : LooksUp registry reader scope old new) : invariant new :=
    steps old new before looks.proceeds.steps looks.answers
  have step {old new : Workspace} (before : invariant old) (step : Step registry reader old new)
      (same : new.caches.answers = old.caches.answers) : invariant new :=
    steps old new before (.single step) same
  -- A node is held in one step before what is done while it is held, and let go in one after it.
  have holding {β : Type} {old : Workspace} {id : NodeId} {node : Node} {held : Query β}
      (found : old.heap.get? id = some node) (before : invariant old)
      (h : ∀ {old : Workspace}, invariant old →
        held.Yields old (fun _ after => invariant after) fun _ after => invariant after) :
      (holding id held).Yields old (fun _ after => invariant after)
        fun _ after => invariant after :=
    Yields.holding ((h (step before (.hold found) rfl)).imp
      (fun _ after kept => step kept (.letGo after id) rfl)
      fun _ after kept => step kept (.letGo after id) rfl)
  induction h generalizing workspace with
  | explores h =>
    exact (h.yields (coherent workspace start)).imp (fun _ _ looks => looksUp start looks)
      fun _ _ looks => looksUp start looks
  | common first second => exact commons first second workspace start
  | bind _ _ first rest =>
    exact (first start).bind (fun value _ kept => rest value kept) fun _ _ kept => kept
  | cached name =>
    refine (cached_yields (coherent workspace start) reader .everything name).imp
      (fun found after h => ?_) fun _ _ h => h.elim
    cases found with
    | none =>
      obtain ⟨rfl, -⟩ := h.2 rfl
      exact start
    | some id => exact looksUp start (h.1 id rfl).1
  | target target _ ih =>
    cases target with
    | named name =>
      refine (typeNode_yields (coherent workspace start) reader name).bind (fun id after h => ?_)
        fun _ _ h => looksUp start h.1
      obtain ⟨looks, node, found, -⟩ := h
      exact holding found (looksUp start looks) (ih id)
    | kept slot =>
      refine Yields.get_bind ?_
      cases kept : workspace.slots.get? slot with
      | none => exact Yields.pure start
      | some id =>
        obtain ⟨node, found⟩ :=
          (coherent workspace start).slots_alive id (Table.mem_values_of_get? kept)
        exact holding found start (ih id)
  | fillSlot name slot _ ih =>
    refine (typeNode_yields (coherent workspace start) reader name).bind (fun id after h => ?_)
      fun _ _ h => looksUp start h.1
    obtain ⟨looks, node, found, -⟩ := h
    exact Yields.modify_bind (ih id (step (looksUp start looks) (.fillSlot slot found) rfl))
  | clearSlot slot => exact step start (.clearSlot workspace slot) rfl
  | releaseRetained => exact step start (.releaseRetained workspace) rfl

/-- **What an operation is made of takes steps**, whether it is answered or fails. -/
theorem Acts.yields (h : Acts reader query) (coherent : workspace.Coherent registry) :
    query.Yields workspace (fun _ after => Steps registry reader workspace after)
      fun _ after => Steps registry reader workspace after := by
  refine h.keeps (fun _ before => before.coherent coherent) (fun _ _ before h _ => before.trans h)
    (fun first second mid before => ?_) .refl
  exact ((Concludes.commonSuperclass first second).yields (before.coherent coherent)).imp
    (fun _ _ h => before.trans h.steps) fun _ _ h => before.trans h.proceeds.steps

end Query

open Workspace

variable {registry : Registry} {workspace : Workspace}

/-- **Every operation takes steps**, whatever its reader answers. -/
theorem Operation.steps_perform (operation : Operation) (reader : Reader)
    (coherent : workspace.Coherent registry) :
    Steps registry reader workspace (operation.perform reader workspace).2 := by
  by_cases clears : operation = .clearAnswers
  · subst clears
    exact Relation.ReflTransGen.single (.clearAnswers workspace)
  · exact perform_of_yields (fun _ after => Steps registry reader workspace after)
      ((Query.Acts.operation clears).yields coherent)

/-- **A run passes from where it starts to where it ends.** -/
theorem Workspace.Coherent.passes_run (coherent : workspace.Coherent registry)
    (history : List (Reader × Operation)) :
    Passes registry workspace (workspace.run history).2 := by
  induction history generalizing workspace with
  | nil => exact .refl
  | cons step rest ih =>
    have steps := step.2.steps_perform step.1 coherent
    exact steps.passes.trans (ih (steps.coherent coherent))

/-- **Every run keeps a workspace coherent**, whatever the readers answer. -/
theorem Workspace.Coherent.run (coherent : workspace.Coherent registry)
    (history : List (Reader × Operation)) : (workspace.run history).2.Coherent registry :=
  (coherent.passes_run history).coherent coherent

end ClassLattice
