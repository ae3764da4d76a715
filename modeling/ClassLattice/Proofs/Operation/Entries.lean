import ClassLattice.Proofs.Query.Conduct
import ClassLattice.Proofs.Workspace.Sweeping
import Mathlib.Data.List.Induction

/-!
# Entries of freed nodes

Nodes may be freed at any time, and what is listed does not change by that.  Still the entries of
freed nodes cannot pile up: after any history, whatever the readers answered, there are fewer entries
than twice the largest number of nodes that were in use at one moment so far, or than the least
threshold.  And no operation takes out the entry of a node that stays in use.
-/

set_option autoImplicit false

namespace ClassLattice

namespace Workspace

variable {registry : Registry} {start : Workspace}

/-- The last operation of a history works on what all before it left. -/
theorem run_concat (workspace : Workspace) (history : List (Reader × Operation))
    (last : Reader × Operation) :
    (workspace.run (history ++ [last])).2 = (last.2.perform last.1 (workspace.run history).2).2 := by
  induction history generalizing workspace with
  | nil => rfl
  | cons first rest ih => exact ih _

/-- **A history takes a course that passes the end of each of its operations.** -/
theorem Coherent.exists_course (coherent : start.Coherent registry)
    (history : List (Reader × Operation)) :
    ∃ moments, Course registry start moments (start.run history).2 ∧
      ∀ done, done <+: history → (start.run done).2 ∈ moments := by
  -- A course grows at its end, so the last operation is taken off.
  induction history using List.reverseRecOn with
  | nil =>
    refine ⟨[start], .start, fun done front => ?_⟩
    rw [List.prefix_nil.1 front]
    exact List.mem_singleton_self start
  | append_singleton history last ih =>
    obtain ⟨moments, course, passed⟩ := ih
    have steps := last.2.steps_perform last.1 (coherent.run history)
    obtain ⟨later, longer⟩ := course.exists_append steps
    rw [run_concat]
    refine ⟨later ++ moments, longer, fun done front => ?_⟩
    rcases List.prefix_concat_iff.1 front with rfl | before
    · rw [run_concat]
      exact longer.mem
    · exact List.mem_append_right later (passed done before)

end Workspace

namespace Operation

open Workspace

/-- **Entries of freed nodes cannot pile up.**  After any history with any readers there are fewer
entries than the larger of 1024 and twice the largest number of nodes besides the pinned ones that
were in use at one moment so far.  This is so whichever moments have led there, and there are such
that pass the end of each operation.  An entry that an operation takes out is for a node that is not
in use after it.  A sweep takes out only entries of freed nodes, and so does giving up what is
retained; after that every entry is for a node in use, and each node in use besides the pinned ones
has one.

The moments are those between steps.  While a step makes a node, there may be one more in use until
those that it displaces are freed; it is not counted, which makes the bound the sharper. -/
theorem entries_bounded (capacity : Nat) (registry : Registry)
    (history : List (Reader × Operation)) :
    let workspace := ((create capacity registry).run history).2
    (∃ moments, Course registry (create capacity registry) moments workspace ∧
      ∀ done, done <+: history → ((create capacity registry).run done).2 ∈ moments) ∧
    (∀ moments, Course registry (create capacity registry) moments workspace →
      workspace.store.live.size < max 1024 (2 * peak moments)) ∧
    (∀ reader operation name id, (name, id) ∈ workspace.store.live.entries →
      (name, id) ∉ (perform operation reader workspace).2.store.live.entries →
        (perform operation reader workspace).2.heap.isAlive id = false) ∧
    (∀ (store : NodeStore) heap, NodeStore.LosesFreed heap store.live (store.sweep heap).live) ∧
    ∀ reader,
      let released := (releaseRetained.perform reader workspace).2
      NodeStore.LosesFreed released.heap workspace.store.live released.store.live ∧
      (∀ name id, (name, id) ∈ released.store.live.entries → released.heap.isAlive id = true) ∧
      released.store.live.size = released.unpinned.length := by
  intro workspace
  have created := coherent_create capacity registry
  have coherent : workspace.Coherent registry := created.run history
  have bounded (moments : List Workspace)
      (course : Course registry (create capacity registry) moments workspace) :
      workspace.Uncrowded (peak moments) :=
    course.uncrowded created (.create capacity registry 0)
  obtain ⟨moments, course, passed⟩ := created.exists_course history
  refine ⟨⟨moments, course, passed⟩, ?_, ?_, NodeStore.losesFreed_sweep, ?_⟩
  · intro moments course
    exact Nat.lt_of_lt_of_le (bounded moments course).below (bounded moments course).threshold
  · intro reader operation name id listed gone
    exact (operation.steps_perform reader coherent).isAlive_eq_false coherent listed gone
  · intro reader released
    have alive (name : String) (id : NodeId) (listed : (name, id) ∈ released.store.live.entries) :
        released.heap.isAlive id = true := (NodeStore.mem_dropFreed.1 listed).2
    refine ⟨NodeStore.losesFreed_dropFreed workspace.store released.heap, alive, ?_⟩
    exact coherent.releaseRetained.size_of_isAlive (bounded moments course).releaseRetained.once
      alive

end Operation

end ClassLattice
