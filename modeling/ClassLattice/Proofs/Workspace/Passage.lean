import ClassLattice.Proofs.Query.Conduct
import ClassLattice.Proofs.Workspace.Created

/-!
# What becomes of a node

A workspace passes from one state to another by the steps of operations with any readers.  As long
as a node is in use its edges settle: a pending edge stays pending or is resolved, and a resolved
one stays as it is.  And every class or interface that is not pinned was made by one operation, from
what the reader of that operation answered for its name.
-/

set_option autoImplicit false

namespace ClassLattice.Workspace

variable {registry : Registry} {reader : Reader} {workspace old new : Workspace} {id : NodeId}
  {node later : Node}

/-- **A node that was in use before and is in use after was in use all the time**, and has only had
edges resolved. -/
theorem Passes.advances (h : Passes registry old new) (found : old.heap.get? id = some node)
    (found' : new.heap.get? id = some later) : node.Advances later := by
  have used := Heap.index_lt_of_get? found
  induction h generalizing later with
  | refl => exact Option.some.inj (found.symm.trans found') ▸ .refl node
  | @tail mid new path step ih =>
    obtain ⟨reader, step⟩ := step
    rcases step.origin found' with ⟨between, here, advances⟩ | arrives
    · exact (ih here).trans advances
    · exact absurd arrives.new (Nat.not_le.2 (Nat.lt_of_lt_of_le used (size_le path)))

/-! ## The operation that made a node -/

/-- An operation of a history made the node of an identity: the identity was not given out before,
and it was when the operation had ended. -/
def MadeBy (workspace : Workspace) (history : List (Reader × Operation)) (id : NodeId)
    (reader : Reader) : Prop :=
  ∃ done operation rest, history = done ++ (reader, operation) :: rest ∧
    (workspace.run done).2.heap.cells.size ≤ id.index ∧
    id.index < (workspace.run (done ++ [(reader, operation)])).2.heap.cells.size

/-- What a later operation made was made by the history with an operation in front. -/
theorem MadeBy.cons {history : List (Reader × Operation)} {step : Reader × Operation}
    (h : MadeBy (step.2.perform step.1 workspace).2 history id reader) :
    MadeBy workspace (step :: history) id reader := by
  obtain ⟨done, operation, rest, rfl, new, made⟩ := h
  exact ⟨step :: done, operation, rest, rfl, new, made⟩

end ClassLattice.Workspace
