import ClassLattice.Proofs.Workspace.Valid
import Mathlib.Logic.Relation

/-!
# The steps of an operation

All that an operation does to a workspace is a sequence of steps: what its queries do, and holding
and giving up references in between.  Each step keeps the workspace coherent.  What is in use after
a sequence of steps was in use before and has at most had edges resolved, or was made on the way;
identities are never given out twice, so what is in use before and after was in use all the time.
-/

set_option autoImplicit false

namespace ClassLattice.Workspace

open Relation

variable {registry : Registry} {reader : Reader} {old mid new : Workspace} {id : NodeId}
  {node : Node} {name : String}

/-- One change that an operation makes to a workspace. -/
inductive Step (registry : Registry) (reader : Reader) : Workspace → Workspace → Prop
  | turn {old new : Workspace} (h : Turn registry reader old new) : Step registry reader old new
  | hold {workspace : Workspace} {id : NodeId} {node : Node}
      (found : workspace.heap.get? id = some node) :
      Step registry reader workspace (workspace.hold id)
  | letGo (workspace : Workspace) (id : NodeId) :
      Step registry reader workspace (workspace.letGo id)
  | fillSlot {workspace : Workspace} (slot : String) {id : NodeId} {node : Node}
      (found : workspace.heap.get? id = some node) :
      Step registry reader workspace (workspace.fillSlot slot id)
  | clearSlot (workspace : Workspace) (slot : String) :
      Step registry reader workspace (workspace.clearSlot slot)
  | releaseRetained (workspace : Workspace) :
      Step registry reader workspace workspace.releaseRetained
  | clearAnswers (workspace : Workspace) : Step registry reader workspace workspace.clearAnswers

/-- The steps that an operation takes. -/
abbrev Steps (registry : Registry) (reader : Reader) : Workspace → Workspace → Prop :=
  ReflTransGen (Step registry reader)

/-- Turns are steps. -/
theorem Proceeds.steps (h : Proceeds registry reader old new) : Steps registry reader old new := by
  induction h with
  | refl => exact .refl
  | move turn => exact .single (.turn turn)
  | trans _ _ first second => exact first.trans second
  | holding found _ ih => exact .head (.hold found) (ih.tail (.letGo _ _))

/-! ## What one step keeps -/

/-- A turn keeps a workspace coherent. -/
theorem Turn.coherent (h : Turn registry reader old new) (coherent : old.Coherent registry) :
    new.Coherent registry := by
  cases h with
  | look move => exact move.coherent coherent
  | keep first second answer => exact coherent.keeping first second answer

/-- A turn keeps all that is anchored. -/
theorem Turn.persists (h : Turn registry reader old new) (coherent : old.Coherent registry) :
    Persists old new := by
  cases h with
  | look move => exact move.persists coherent
  | keep => exact .of_advances rfl rfl rfl fun _ node found => ⟨node, found, .refl node⟩

/-- Turns keep all that is anchored. -/
theorem Proceeds.persists (h : Proceeds registry reader old new)
    (coherent : old.Coherent registry) : Persists old new :=
  (h.coherent_persists (fun _ _ turn coherent => ⟨turn.coherent coherent, turn.persists coherent⟩)
    coherent).2

/-- **A step keeps a workspace coherent.** -/
theorem Step.coherent (h : Step registry reader old new) (coherent : old.Coherent registry) :
    new.Coherent registry := by
  cases h with
  | turn turn => exact turn.coherent coherent
  | hold found => exact coherent.hold found
  | letGo => exact coherent.letGo
  | fillSlot slot found => exact coherent.fillSlot slot found
  | clearSlot slot => exact coherent.clearSlot slot
  | releaseRetained => exact coherent.releaseRetained
  | clearAnswers => exact { coherent with }

/-- A step gives no cell back. -/
theorem Step.size_le (h : Step registry reader old new) :
    old.heap.cells.size ≤ new.heap.cells.size := by
  cases h with
  | turn turn =>
    cases turn with
    | look move => exact move.size_le
    | keep => exact Nat.le_refl _
  | hold => exact Nat.le_refl _
  | letGo => exact Nat.le_of_eq Heap.size_reclaim.symm
  | fillSlot => exact Nat.le_of_eq Heap.size_reclaim.symm
  | clearSlot => exact Nat.le_of_eq Heap.size_reclaim.symm
  | releaseRetained => exact Nat.le_of_eq Heap.size_reclaim.symm
  | clearAnswers => exact Nat.le_refl _

/-- A node came into use: it was made for a name that had no node, and its identity is new. -/
structure Arrives (registry : Registry) (reader : Reader) (old : Workspace) (id : NodeId)
    (node : Node) : Prop where
  new : old.heap.cells.size ≤ id.index
  free : registry.shape? node.name = none
  makes : ∃ heap, Heap.Makes heap reader node

/-- **Where a node comes from**: it was in use before, with the same edges as far as they were
resolved, or it was made by the step. -/
theorem Move.origin (h : Move registry reader .everything old new)
    (found : new.heap.get? id = some node) :
    (∃ before, old.heap.get? id = some before ∧ before.Advances node) ∨
      Arrives registry reader old id node := by
  cases h with
  | touch => exact .inl ⟨node, Heap.get?_of_get?_reclaim found, .refl node⟩
  | read => exact .inl ⟨node, found, .refl node⟩
  | publish _ free _ makes =>
    rcases get?_of_get?_publish found with ⟨rfl, rfl⟩ | before
    · exact .inr ⟨Nat.le_refl _, free, _, makes⟩
    · exact .inl ⟨node, before, .refl node⟩
  | resolveSuperclass =>
    rw [Heap.get?_modify] at found
    split at found
    · rename_i same
      obtain ⟨before, here, rfl⟩ := Option.map_eq_some_iff.1 found
      exact .inl ⟨before, same ▸ here, (Node.Advances.refl before).superclass _⟩
    · exact .inl ⟨node, found, .refl node⟩
  | resolveInterfaces =>
    rw [Heap.get?_modify] at found
    split at found
    · rename_i same
      obtain ⟨before, here, rfl⟩ := Option.map_eq_some_iff.1 found
      exact .inl ⟨before, same ▸ here, (Node.Advances.refl before).interfaces _⟩
    · exact .inl ⟨node, found, .refl node⟩

/-- **A node that is in use after a step was so before, or the step made it.** -/
theorem Step.origin (h : Step registry reader old new) (found : new.heap.get? id = some node) :
    (∃ before, old.heap.get? id = some before ∧ before.Advances node) ∨
      Arrives registry reader old id node := by
  cases h with
  | turn turn =>
    cases turn with
    | look move => exact move.origin found
    | keep => exact .inl ⟨node, found, .refl node⟩
  | hold => exact .inl ⟨node, found, .refl node⟩
  | letGo => exact .inl ⟨node, Heap.get?_of_get?_reclaim found, .refl node⟩
  | fillSlot => exact .inl ⟨node, Heap.get?_of_get?_reclaim found, .refl node⟩
  | clearSlot => exact .inl ⟨node, Heap.get?_of_get?_reclaim found, .refl node⟩
  | releaseRetained => exact .inl ⟨node, Heap.get?_of_get?_reclaim found, .refl node⟩
  | clearAnswers => exact .inl ⟨node, found, .refl node⟩

/-- A step asks the reader for a name, which has no node in use then. -/
structure Asks (old new : Workspace) (name : String) : Prop where
  reads : new.reads = old.reads.push name
  plain : layout name = .ok none
  unused : ∀ id, ¬ old.heap.Names id name
  heap : new.heap = old.heap

/-- **A step asks the reader for at most one name**, and only for one that has no node in use. -/
theorem Step.asks (h : Step registry reader old new) :
    new.reads = old.reads ∨ ∃ name, Asks old new name := by
  cases h with
  | turn turn =>
    cases turn with
    | look move =>
      cases move with
      | read _ _ plain unused => exact .inr ⟨_, rfl, plain, unused, rfl⟩
      | _ => exact .inl rfl
    | keep => exact .inl rfl
  | _ => exact .inl rfl

/-- **No step notes a clash**: what it asks the reader for and what it makes a node for has no node
in use at that moment. -/
theorem Step.clashes_eq (h : Step registry reader old new) : new.clashes = old.clashes := by
  cases h with
  | turn turn =>
    cases turn with
    | look move => cases move <;> rfl
    | keep => rfl
  | _ => rfl

/-! ## What a sequence of steps keeps -/

/-- One state of a workspace is reached from another by steps of operations, with any readers. -/
abbrev Passes (registry : Registry) : Workspace → Workspace → Prop :=
  ReflTransGen fun old new => ∃ reader, Step registry reader old new

namespace Passes

/-- Steps with any readers keep a workspace coherent. -/
theorem coherent (h : Passes registry old new) (coherent : old.Coherent registry) :
    new.Coherent registry := by
  induction h with
  | refl => exact coherent
  | tail _ step ih =>
    obtain ⟨reader, step⟩ := step
    exact step.coherent ih

/-- Steps with any readers give no cell back. -/
theorem size_le (h : Passes registry old new) :
    old.heap.cells.size ≤ new.heap.cells.size := by
  induction h with
  | refl => exact Nat.le_refl _
  | tail _ step ih =>
    obtain ⟨reader, step⟩ := step
    exact Nat.le_trans ih step.size_le

/-- No sequence of steps notes a clash, whatever the readers answer. -/
theorem clashes_eq (h : Passes registry old new) : new.clashes = old.clashes := by
  induction h with
  | refl => rfl
  | tail _ step ih =>
    obtain ⟨reader, step⟩ := step
    exact step.clashes_eq.trans ih

end Passes

namespace Steps

/-- Steps with one reader are steps with some readers. -/
theorem passes (h : Steps registry reader old new) : Passes registry old new :=
  h.lift id fun _ _ step => ⟨reader, step⟩

/-- Steps with one reader keep a workspace coherent. -/
theorem coherent (h : Steps registry reader old new) (coherent : old.Coherent registry) :
    new.Coherent registry := h.passes.coherent coherent

/-- Steps with one reader give no cell back. -/
theorem size_le (h : Steps registry reader old new) :
    old.heap.cells.size ≤ new.heap.cells.size := h.passes.size_le

/-- **Where a node comes from**: it was in use before the steps, or it was made on the way. -/
theorem origin (h : Steps registry reader old new) (found : new.heap.get? id = some node) :
    (∃ before, old.heap.get? id = some before ∧ before.Advances node) ∨
      ∃ made : Node, made.Advances node ∧ Arrives registry reader old id made := by
  induction h generalizing node with
  | refl => exact .inl ⟨node, found, .refl node⟩
  | @tail mid new path step ih =>
    rcases step.origin found with ⟨between, here, advances⟩ | arrives
    · rcases ih here with ⟨before, there, earlier⟩ | ⟨made, earlier, arrives⟩
      · exact .inl ⟨before, there, earlier.trans advances⟩
      · exact .inr ⟨made, earlier.trans advances, arrives⟩
    · have le : old.heap.cells.size ≤ mid.heap.cells.size := size_le path
      exact .inr ⟨node, .refl node, Nat.le_trans le arrives.new, arrives.free, arrives.makes⟩

/-- An identity that was given out before and is in use after some steps was in use all the time. -/
theorem names_of_used (h : Steps registry reader old new)
    (used : id.index < old.heap.cells.size) (named : new.heap.Names id name) :
    old.heap.Names id name := by
  obtain ⟨node, found, rfl⟩ := named
  rcases h.origin found with ⟨before, here, advances⟩ | ⟨made, -, arrives⟩
  · exact ⟨before, here, advances.name_eq.symm⟩
  · exact absurd arrives.new (by omega)

/-- **The reader is not asked for the name of a node that stays in use.** -/
theorem count_reads (h : Steps registry reader old new) (before : old.heap.Names id name)
    (after : new.heap.Names id name) :
    new.reads.toList.count name = old.reads.toList.count name := by
  have used : id.index < old.heap.cells.size := by
    obtain ⟨node, found, -⟩ := before
    exact Heap.index_lt_of_get? found
  induction h with
  | refl => rfl
  | @tail mid new path step ih =>
    have usedMid : id.index < mid.heap.cells.size := Nat.lt_of_lt_of_le used (size_le path)
    have between := names_of_used (.single step) usedMid after
    rcases step.asks with same | ⟨asked, asks⟩
    · rw [same, ih between]
    · have apart : asked ≠ name := fun same => asks.unused id (same ▸ between)
      rw [asks.reads, Array.toList_push, List.count_append, ih between]
      simp [apart]

/-- **A name for which the reader fails gets no node.** -/
theorem unused_of_failed (h : Steps registry reader old new) :
    ∃ asked, new.reads.toList = old.reads.toList ++ asked ∧ ∀ name ∈ asked,
      ∀ error, reader.read name = .error error →
        layout name = .ok none ∧ ∀ id, ¬ new.heap.Names id name := by
  induction h with
  | refl => exact ⟨[], (List.append_nil _).symm, fun _ member => (List.not_mem_nil member).elim⟩
  | @tail mid new path step ih =>
    obtain ⟨asked, reads, unused⟩ := ih
    -- A node of the name could only have been made from what the reader answers.
    have still (name) (member : name ∈ asked) (error) (failed : reader.read name = .error error) :
        layout name = .ok none ∧ ∀ id, ¬ new.heap.Names id name := by
      obtain ⟨plain, none⟩ := unused name member error failed
      refine ⟨plain, ?_⟩
      rintro id ⟨node, found, rfl⟩
      rcases step.origin found with ⟨before, here, advances⟩ | ⟨-, -, heap, makes⟩
      · exact none id ⟨before, here, advances.name_eq.symm⟩
      · cases makes with
        | array laid =>
          have laid' := plain.symm.trans laid
          cases laid'
        | declared _ answer =>
          have answered := failed.symm.trans answer
          cases answered
    rcases step.asks with same | ⟨name, asks⟩
    · exact ⟨asked, same ▸ reads, still⟩
    · refine ⟨asked ++ [name], ?_, fun other member error failed => ?_⟩
      · rw [asks.reads, Array.toList_push, reads, List.append_assoc]
      · rcases List.mem_append.1 member with before | here
        · exact still other before error failed
        · obtain rfl := List.mem_singleton.1 here
          exact ⟨asks.plain, fun id named => asks.unused id (asks.heap ▸ named)⟩

end Steps

end ClassLattice.Workspace
