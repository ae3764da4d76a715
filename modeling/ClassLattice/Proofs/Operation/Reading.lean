import ClassLattice.Proofs.Query.Climb
import ClassLattice.Proofs.Query.Ownership
import ClassLattice.Proofs.Universe.OfTypes

/-!
# What a question reads

A reader may be slow, so it matters what it is asked for.  One question never asks for a name twice,
whatever the caches have dropped before or drop meanwhile.  And where superclasses lead from one
class to the other, a question about the two reads these classes and the ones in between, and
nothing above.
-/

set_option autoImplicit false

namespace ClassLattice

namespace Operation

open Workspace

variable {registry : Registry} {reader : Reader} {first last : String} {between : List String}

/-- **A question about two types asks for no name twice**, whether it is answered or fails, after
any history with any readers and at any capacity. -/
theorem perform_common_asks_once (capacity : Nat) (registry : Registry)
    (history : List (Reader × Operation)) (reader : Reader) (first second : String) :
    let before := ((create capacity registry).run history).2
    let after := ((commonSuperclass first second).perform reader before).2
    ∃ asked, after.reads.toList = before.reads.toList ++ asked ∧ asked.Nodup := by
  intro before after
  have coherent : before.Coherent registry := (coherent_create capacity registry).run history
  refine perform_of_yields (fun _ after => Once before after) ?_
  exact (Query.commonSuperclass_once coherent first second).bind (fun _ _ h => Query.Yields.pure h)
    fun _ _ h => h

/-- **A class and one that superclasses lead to** have the latter in common in a new workspace of
any capacity.  The reader is asked for the former, for the latter unless it is pinned, and then for
the classes in between.  No edge of the latter is resolved, and it stays in use if it is pinned or
there is room for it. -/
theorem fresh_common_climbs (capacity : Nat) (bounded : reader.Bounded)
    (chain : SuperChain registry reader last first (first :: between))
    (above : ClassAt registry reader last) (distinct : (first :: between ++ [last]).Nodup) :
    let outcome := (commonSuperclass first last).perform reader (create capacity registry)
    outcome.1 = .text last ∧
      outcome.2.reads.toList =
        first :: (if (registry.shape? last).isSome then between else last :: between) ∧
      (∀ id node, outcome.2.heap.get? id = some node → node.name = last → IsNew node) ∧
      ((registry.shape? last).isSome ∨ between.length < capacity →
        ∃ id, outcome.2.heap.Names id last) := by
  intro outcome
  refine perform_of_yields (fun answer after => answer = .text last ∧
    after.reads.toList =
      first :: (if (registry.shape? last).isSome then between else last :: between) ∧
    (∀ id node, after.heap.get? id = some node → node.name = last → IsNew node) ∧
    ((registry.shape? last).isSome ∨ between.length < capacity →
      ∃ id, after.heap.Names id last)) ?_
  refine (Query.commonSuperclass_climbs bounded chain above distinct capacity).bind ?_
    fun _ _ h => h.elim
  rintro answer after ⟨answered, goal, named, isNew, below, top, more, names, climbed⟩
  have length : more.length = between.length := by
    simpa using congrArg List.length names
  refine Query.Yields.pure ⟨congrArg Answer.text answered, ?_, fun id node found same => ?_,
    fun kept => ?_⟩
  · rw [climbed.ledger.reads, List.map_append, names, lookedUp]
    split <;> simp
  · obtain rfl := climbed.only id node found (same.trans named.symm)
    exact climbed.same node found ▸ isNew
  · cases shape? : registry.shape? last with
    | some shape =>
      obtain ⟨id, entry⟩ := climbed.coherent.pinned last shape shape?
      exact ⟨id, climbed.coherent.names_of_pinned entry⟩
    | none =>
      have fits : more.length < capacity := by simpa [shape?, length] using kept
      obtain ⟨node, found⟩ := climbed.coherent.recent_alive top
        (climbed.mem_recent shape? fits)
      exact ⟨top, node, found, climbed.same node found ▸ named⟩

/-- A chain of three classes is read from the lowest one upwards, once each. -/
theorem fresh_common_climbs_stairs :
    let outcome :=
      (commonSuperclass "demo/C" "demo/A").perform Universe.stairTypes.reader (create 2 .empty)
    outcome.1 = .text "demo/A" ∧ outcome.2.reads.toList = ["demo/C", "demo/A", "demo/B"] ∧
      ∃ id node, outcome.2.heap.get? id = some node ∧ node.name = "demo/A" ∧ IsNew node := by
  intro outcome
  have arrived : SuperChain .empty Universe.stairTypes.reader "demo/A" "demo/A" [] := .arrives
  have chain :
      SuperChain .empty Universe.stairTypes.reader "demo/A" "demo/C" ["demo/C", "demo/B"] :=
    .step (by decide) (by decide) (by decide) rfl rfl
      (.step (by decide) (by decide) (by decide) rfl rfl arrived)
  have above : ClassAt .empty Universe.stairTypes.reader "demo/A" :=
    .read (by decide) (by decide) (by decide) rfl rfl
  obtain ⟨answer, reads, unresolved, used⟩ :=
    fresh_common_climbs 2 (MetadataMap.bounded Universe.stairTypes) chain above (by decide)
  obtain ⟨id, node, found, named⟩ := used (.inr (by decide))
  exact ⟨answer, reads, id, node, found, named, unresolved id node found named⟩

end Operation

end ClassLattice
