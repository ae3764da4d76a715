import ClassLattice.Proofs.Query.Conduct
import Mathlib.Data.List.Chain

/-!
# One node for each name

Whatever is asked of a workspace and whatever the readers answer, at no time are two nodes of one
name in use, and the reader is asked only for names that have no node in use.

What is so at every moment of an operation is told by a log: a query that asks a reader for a name,
or that makes a node for it, looks at the heap as it is just then and notes the name if it has a node
in use.  Nothing is ever noted.
-/

set_option autoImplicit false

namespace ClassLattice.Workspace

variable {registry : Registry} {reader : Reader} {workspace : Workspace} {id : NodeId}

/-- The places from which a node can be had. -/
inductive Offers (workspace : Workspace) : NodeId → Prop
  | pinned {name : String} {id : NodeId} (h : workspace.store.pinned.get? name = some id) :
      Offers workspace id
  | cached {name : String} {id : NodeId} (h : (workspace.cached name).1 = some id) :
      Offers workspace id
  | retained {id : NodeId} (h : id ∈ workspace.store.recent) : Offers workspace id
  | held {id : NodeId} (h : id ∈ workspace.held) : Offers workspace id
  | kept {slot : String} {id : NodeId} (h : workspace.slots.get? slot = some id) :
      Offers workspace id
  /-- The element of an array, or the target of a resolved edge. -/
  | referred {id target : NodeId} (h : workspace.heap.Refers id target) : Offers workspace target

/-- From wherever a node is had, it is in use, and no other node in use has its name. -/
structure Unambiguous (workspace : Workspace) : Prop where
  inUse : ∀ id, workspace.Offers id → ∃ node, workspace.heap.get? id = some node
  single : ∀ id other name, workspace.heap.Names id name → workspace.heap.Names other name →
    id = other

/-- A coherent workspace has one node in use for a name at most. -/
theorem Coherent.unambiguous (coherent : workspace.Coherent registry) : workspace.Unambiguous where
  inUse := by
    intro id offers
    cases offers with
    | pinned entry => exact (coherent.names_of_pinned entry).imp fun _ h => h.1
    | cached found => exact (coherent.names_of_cached found).imp fun _ h => h.1
    | retained member => exact coherent.recent_alive id member
    | held member => exact coherent.held_alive id member
    | kept entry => exact coherent.slots_alive id (Table.mem_values_of_get? entry)
    | referred refers => exact coherent.closed _ id refers
  single := fun _ _ _ named named' => coherent.id_unique named named'

/-- **At any time a name has one node, and no reader is asked for it while it has.**  After any
history with any readers nodes in use of one name are one node, wherever they are had from, and the
log of clashes is empty: whenever a reader was asked for a name, and whenever a node was made for
one, no node of the name was in use.  The operation passes through states in each of which this is
so.  Between two of these states the reader is asked for nothing, or for one name that has no node in
use, so that the name of a node which stays in use is not asked for at all. -/
theorem one_node_per_name (capacity : Nat) (registry : Registry)
    (history : List (Reader × Operation)) (reader : Reader) (operation : Operation) :
    let before := ((create capacity registry).run history).2
    let after := (operation.perform reader before).2
    (after.Unambiguous ∧ after.clashes = []) ∧
    (∃ states : List Workspace, states.head? = some before ∧ states.getLast? = some after ∧
      states.IsChain (Step registry reader) ∧
      (∀ state ∈ states, state.Unambiguous ∧ state.clashes = []) ∧
      states.IsChain fun old new => new.reads = old.reads ∨
        ∃ name, new.reads = old.reads.push name ∧ ∀ id, ¬ old.heap.Names id name) ∧
    ∀ id name, before.heap.Names id name → after.heap.Names id name →
      after.reads.toList.count name = before.reads.toList.count name := by
  intro before after
  have created := coherent_create capacity registry
  have passes : Passes registry (create capacity registry) before := created.passes_run history
  have coherent : before.Coherent registry := passes.coherent created
  have quiet : before.clashes = [] := passes.clashes_eq
  have steps : Steps registry reader before after := operation.steps_perform reader coherent
  refine ⟨?_, ?_, ?_⟩
  · exact ⟨(steps.coherent coherent).unambiguous, steps.passes.clashes_eq.trans quiet⟩
  · obtain ⟨rest, chain, last⟩ := List.exists_isChain_cons_of_relationReflTransGen steps
    have all : ∀ state ∈ before :: rest, state.Coherent registry ∧ state.clashes = [] := by
      apply chain.induction (fun state => state.Coherent registry ∧ state.clashes = [])
      · rintro old new step ⟨held, empty⟩
        exact ⟨step.coherent held, step.clashes_eq.trans empty⟩
      · intro _
        exact ⟨coherent, quiet⟩
    refine ⟨before :: rest, rfl, ?_, chain, ?_, ?_⟩
    · rw [List.getLast?_eq_some_getLast (List.cons_ne_nil before rest), last]
    · intro state member
      obtain ⟨held, empty⟩ := all state member
      exact ⟨held.unambiguous, empty⟩
    · apply chain.imp
      intro old new step
      apply step.asks.imp_right
      rintro ⟨name, asks⟩
      exact ⟨name, asks.reads, asks.unused⟩
  · intro id name named named'
    exact steps.count_reads named named'

end ClassLattice.Workspace
