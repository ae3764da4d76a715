import ClassLattice.Hierarchy.Operation
import ClassLattice.Proofs.Heap.Reclaim

/-!
# What a query leaves behind

A query yields two conditions from a workspace if it ends with an answer and a workspace that meet
the first, or fails with a workspace that meets the second.  There is one rule for each way in
which queries are put together, so that the specification of a query follows its text.
-/

set_option autoImplicit false

namespace ClassLattice

namespace Query

variable {α β : Type} {query : Query α} {workspace : Workspace} {ok : α → Workspace → Prop}
  {failed : HierarchyError → Workspace → Prop}

/-- What follows an answer starts from the workspace that was left with it. -/
theorem bind_of_ok {next : α → Query β} {value : α} {mid : Workspace}
    (ran : query workspace = .ok value mid) : (query >>= next) workspace = next value mid := by
  show EStateM.bind query next workspace = _
  unfold EStateM.bind
  rw [ran]

/-- Nothing follows a failure. -/
theorem bind_of_error {next : α → Query β} {error : HierarchyError} {mid : Workspace}
    (ran : query workspace = .error error mid) :
    (query >>= next) workspace = .error error mid := by
  show EStateM.bind query next workspace = _
  unfold EStateM.bind
  rw [ran]

/-- A query ends with an answer that meets one condition, or fails with another. -/
def Yields (query : Query α) (workspace : Workspace) (ok : α → Workspace → Prop)
    (failed : HierarchyError → Workspace → Prop) : Prop :=
  match query workspace with
  | .ok value after => ok value after
  | .error error after => failed error after

namespace Yields

/-- What a query yields may be told in weaker words. -/
theorem imp {ok' : α → Workspace → Prop} {failed' : HierarchyError → Workspace → Prop}
    (h : query.Yields workspace ok failed) (imp : ∀ value after, ok value after → ok' value after)
    (imp' : ∀ error after, failed error after → failed' error after) :
    query.Yields workspace ok' failed' := by
  unfold Yields at h ⊢
  split
  · rename_i value after ran
    rw [ran] at h
    exact imp value after h
  · rename_i error after ran
    rw [ran] at h
    exact imp' error after h

/-- A query yields both of what it is known to yield. -/
theorem and {ok' : α → Workspace → Prop} {failed' : HierarchyError → Workspace → Prop}
    (h : query.Yields workspace ok failed) (h' : query.Yields workspace ok' failed') :
    query.Yields workspace (fun value after => ok value after ∧ ok' value after)
      fun error after => failed error after ∧ failed' error after := by
  unfold Yields at h h' ⊢
  split
  · rename_i value after ran
    rw [ran] at h h'
    exact ⟨h, h'⟩
  · rename_i error after ran
    rw [ran] at h h'
    exact ⟨h, h'⟩

/-- **Queries one after the other yield what the second does from wherever the first one leads.** -/
theorem bind {next : α → Query β} {ok' : β → Workspace → Prop}
    {failed' : HierarchyError → Workspace → Prop}
    (h : query.Yields workspace ok failed)
    (step : ∀ value after, ok value after → (next value).Yields after ok' failed')
    (imp : ∀ error after, failed error after → failed' error after) :
    (query >>= next).Yields workspace ok' failed' := by
  unfold Yields at h
  split at h
  · rename_i value after ran
    have follows := step value after h
    unfold Yields at follows ⊢
    rwa [bind_of_ok ran]
  · rename_i error after ran
    unfold Yields
    rw [bind_of_error ran]
    exact imp error after h

/-- To give a value yields that value. -/
theorem pure {value : α} (h : ok value workspace) :
    Yields (pure value) workspace ok failed := h

/-- To fail yields that failure. -/
theorem throw {error : HierarchyError} (h : failed error workspace) :
    Yields (throw error : Query α) workspace ok failed := h

/-- A query that cannot fail ends with an answer. -/
theorem exists_ok (h : query.Yields workspace ok fun _ _ => False) :
    ∃ value after, query workspace = .ok value after ∧ ok value after := by
  unfold Yields at h
  cases ran : query workspace with
  | ok value after =>
    rw [ran] at h
    exact ⟨value, after, rfl, h⟩
  | error error after =>
    rw [ran] at h
    exact h.elim

/-- A failure that came about is one that may come about. -/
theorem of_error {error : HierarchyError} {after : Workspace}
    (h : query.Yields workspace ok failed) (ran : query workspace = .error error after) :
    failed error after := by
  unfold Yields at h
  rw [ran] at h
  exact h

/-- A function behind a query is applied to what it yields. -/
theorem map {change : α → β} {ok : β → Workspace → Prop}
    (h : query.Yields workspace (fun value after => ok (change value) after) failed) :
    (change <$> query).Yields workspace ok failed := by
  unfold Yields at h
  show Yields (EStateM.map change query) workspace ok failed
  unfold Yields EStateM.map
  split at h
  · rename_i value after ran
    rw [ran]
    exact h
  · rename_i error after ran
    rw [ran]
    exact h

/-- What follows a look at the workspace goes on with the workspace as it is. -/
theorem get_bind {next : Workspace → Query α} (h : (next workspace).Yields workspace ok failed) :
    (MonadStateOf.get >>= next).Yields workspace ok failed := h

/-- What follows a change goes on in the changed workspace. -/
theorem modify_bind {change : Workspace → Workspace} {next : Unit → Query α}
    (h : (next ()).Yields (change workspace) ok failed) :
    ((MonadStateOf.modifyGet fun state => ((), change state)) >>= next).Yields workspace ok
      failed := h

/-- What follows a look at a node goes on with the node as it is. -/
theorem node_bind {id : NodeId} {found : Node} {next : Node → Query α}
    (alive : workspace.heap.get? id = some found)
    (h : (next found).Yields workspace ok failed) :
    (node id >>= next).Yields workspace ok failed := by
  show (next (workspace.heap.node id)).Yields workspace ok failed
  rw [Heap.node_of_get? alive]
  exact h

/-- A node that is not in use reads as the root. -/
theorem node_bind_of_unused {id : NodeId} {next : Node → Query α}
    (unused : workspace.heap.get? id = none) (h : (next Node.ofRoot).Yields workspace ok failed) :
    (node id >>= next).Yields workspace ok failed := by
  show (next (workspace.heap.node id)).Yields workspace ok failed
  rw [Heap.node, unused]
  exact h

/-- What follows a look at the name of a node goes on with the name. -/
theorem nameOf_bind {id : NodeId} {found : Node} {next : String → Query α}
    (alive : workspace.heap.get? id = some found)
    (h : (next found.name).Yields workspace ok failed) :
    (nameOf id >>= next).Yields workspace ok failed := by
  show (next (workspace.heap.node id).name).Yields workspace ok failed
  rw [Heap.node_of_get? alive]
  exact h

/-- The name of a node is what it is called. -/
theorem nameOf {id : NodeId} {found : Node} {ok : String → Workspace → Prop}
    (alive : workspace.heap.get? id = some found) (h : ok found.name workspace) :
    (Query.nameOf id).Yields workspace ok failed := by
  show ok (workspace.heap.node id).name workspace
  rw [Heap.node_of_get? alive]
  exact h

/-- A query under which a node is held goes on from the workspace that holds it, and lets go of it
in the end. -/
theorem holding {id : NodeId}
    (h : query.Yields (workspace.hold id) (fun value after => ok value (after.letGo id))
      (fun error after => failed error (after.letGo id))) :
    (holding id query).Yields workspace ok failed := by
  unfold Yields at h
  unfold Yields Query.holding
  cases ran : query (workspace.hold id) with
  | ok value after =>
    rw [ran] at h
    exact h
  | error error after =>
    rw [ran] at h
    exact h

/-- **A test of one member after the other**: the invariant holds of the members that did not
pass. -/
theorem anyM {test : β → Query Bool} {ok : Bool → Workspace → Prop}
    (invariant : List β → Workspace → Prop) (all : List β)
    (step : ∀ passed member rest before, all = passed ++ member :: rest →
      invariant passed before → (test member).Yields before
        (fun found after => if found then ok true after
          else invariant (passed ++ [member]) after) failed)
    (finish : ∀ after, invariant all after → ok false after)
    (start : invariant [] workspace) : (all.anyM test).Yields workspace ok failed := by
  have from_here (rest passed : List β) (workspace : Workspace) (split : all = passed ++ rest)
      (start : invariant passed workspace) : (rest.anyM test).Yields workspace ok failed := by
    induction rest generalizing passed workspace with
    | nil =>
      rw [List.append_nil] at split
      exact Yields.pure (finish workspace (split ▸ start))
    | cons member rest ih =>
      rw [List.anyM_cons]
      refine (step passed member rest workspace split start).bind (fun found after h => ?_)
        fun _ _ h => h
      cases found with
      | true => exact Yields.pure h
      | false => exact ih _ after (by rw [split, List.append_assoc]; rfl) h
  exact from_here all [] workspace rfl start

/-- **A step for one member after the other**: the invariant holds of the members that were done
and what was gathered from them. -/
theorem foldlM {γ : Type} {next : γ → β → Query γ} {ok : γ → Workspace → Prop}
    (invariant : List β → γ → Workspace → Prop) (all : List β) (value : γ)
    (step : ∀ passed member rest value before, all = passed ++ member :: rest →
      invariant passed value before →
        (next value member).Yields before (invariant (passed ++ [member])) failed)
    (finish : ∀ value after, invariant all value after → ok value after)
    (start : invariant [] value workspace) :
    (all.foldlM next value).Yields workspace ok failed := by
  have from_here (rest passed : List β) (value : γ) (workspace : Workspace)
      (split : all = passed ++ rest) (start : invariant passed value workspace) :
      (rest.foldlM next value).Yields workspace ok failed := by
    induction rest generalizing passed workspace value with
    | nil =>
      rw [List.append_nil] at split
      exact Yields.pure (finish value workspace (split ▸ start))
    | cons member rest ih =>
      rw [List.foldlM_cons]
      exact (step passed member rest value workspace split start).bind
        (fun value after h => ih _ value after (by rw [split, List.append_assoc]; rfl) h)
        fun _ _ h => h
  exact from_here all [] value workspace rfl start

end Yields

end Query

/-- What the query of an operation yields is true of the operation carried out. -/
theorem Operation.perform_of_yields {reader : Reader} {operation : Operation}
    {workspace : Workspace} (outcome : Answer → Workspace → Prop)
    (h : (operation.query reader).Yields workspace outcome
      fun error after => outcome (.failure error) after) :
    outcome (operation.perform reader workspace).1 (operation.perform reader workspace).2 := by
  unfold Query.Yields at h
  unfold perform
  split at h
  · rename_i ran
    rw [ran]
    exact h
  · rename_i ran
    rw [ran]
    exact h

end ClassLattice
