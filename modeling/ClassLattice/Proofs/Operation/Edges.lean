import ClassLattice.Proofs.Query.Climb
import ClassLattice.Proofs.Universe.OfTypes
import ClassLattice.Proofs.Workspace.Passage

/-!
# Edges resolve once

The edges of a class or interface are names at first, and lead to nodes once they were needed.  From
then on they lead to the same nodes for as long as the class or interface is in use, whatever is
done and whatever the readers answer; nothing is looked up to follow them.  They lead to nodes of
the names that were declared where the class or interface comes from, and an edge that cannot be
resolved stays as it was.
-/

set_option autoImplicit false

namespace ClassLattice

namespace Operation

open Workspace

variable {registry : Registry} {reader : Reader} {workspace old new : Workspace} {id : NodeId}
  {node later : Node} {declaration : Declaration} {capacity : Nat}
  {history : List (Reader × Operation)}

/-- A node is as it was as long as it is in use, and in use if something held leads to it. -/
structure Untouched (old new : Workspace) (id : NodeId) (node : Node) : Prop where
  same : ∀ later, new.heap.get? id = some later → later = node
  used : old.Anchored id → new.heap.get? id = some node

/-- Resolved edges to the interfaces lead to nodes of the declared names, and are followed there
without a look-up. -/
theorem interfaces_resolved (coherent : workspace.Coherent registry)
    (found : workspace.heap.get? id = some node) (declared : node.outline = .declared declaration)
    (resolved : node.areInterfacesResolved = true) :
    ∃ targets, node.interfaceTargets? = some targets ∧
      List.Forall₂ workspace.heap.Names targets declaration.interfaceNames ∧
        ∀ reader, Query.interfaces reader id workspace = .ok targets workspace := by
  obtain ⟨supertypes, declares⟩ := Node.exists_supertypes declared
  have names := (Node.links_of_outline declared).2
  cases link : node.interfaceLink? with
  | none =>
    rw [link] at names
    cases names
  | some edges =>
    cases edges with
    | pending pending => cases Node.areInterfacesResolved_iff.1 resolved _ link
    | resolved declared targets =>
      rw [link] at names
      have leads : node.interfaceTargets? = some targets := by
        rw [Node.interfaceTargets?, link]
        rfl
      refine ⟨targets, leads, ?_, fun reader => ?_⟩
      · exact Option.some.inj names ▸ coherent.interfaceLinks id node found declared targets link
      · obtain ⟨given, leads', ran⟩ := Query.interfaces_of_resolved reader found declares resolved
        obtain rfl := Option.some.inj (leads.symm.trans leads')
        exact ran

/-- What resolves no edge leaves a node as it was. -/
theorem untouched (coherent : old.Coherent registry) (found : old.heap.get? id = some node)
    (looks : LooksUp registry reader .ofNames old new) : Untouched old new id node where
  same := fun _ found' => looks.unchanged (Heap.index_lt_of_get? found)
    (fun _ here => Option.some.inj (here.symm.trans found)) (fun h => h) (fun h => h) found'
  used := fun anchored =>
    looks.get?_of_anchored coherent anchored (fun h => h) (fun h => h) found

end Operation

end ClassLattice
