import ClassLattice.Proofs.Workspace.Steps

/-!
# What a store retains

Finding or making a node puts it first in the order of use, and what no longer fits falls out at
the end.  So the retained nodes are those that were used last: their names are the first distinct
ones in the log of uses, which has the latest use first, as many as fit.

The order is kept by identity and the log by name.  They fit because a name has one node in use:
the node that is moved to the front is the one that was retained under its name, if there was one.
A retained node is in use, so it keeps its name, whatever else happens to the heap.
-/

set_option autoImplicit false

namespace ClassLattice

/-! ## Distinct elements in order -/

section Distinct

variable {α β : Type} [BEq α] [LawfulBEq α]

omit [LawfulBEq α] in
/-- Taking each element once takes the first element out of all that follows. -/
theorem induction_eraseDups {P : List α → Prop} (nil : P [])
    (cons : ∀ first rest, P (rest.filter fun other => !other == first) → P (first :: rest)) :
    ∀ list, P list
  | [] => nil
  | first :: rest => cons first rest (induction_eraseDups nil cons _)
termination_by list => list.length
decreasing_by exact Nat.lt_succ_of_le (List.length_filter_le _ _)

/-- Leaving out and taking each element once can be done in either order. -/
theorem eraseDups_filter (keep : α → Bool) (list : List α) :
    (list.filter keep).eraseDups = list.eraseDups.filter keep := by
  induction list using induction_eraseDups with
  | nil => simp
  | cons first rest ih =>
    rw [List.eraseDups_cons, List.filter_cons, List.filter_cons, ← ih, List.filter_filter]
    by_cases kept : keep first = true
    · rw [if_pos kept, if_pos kept, List.eraseDups_cons, List.filter_filter]
      simp only [Bool.and_comm]
    · rw [if_neg kept, if_neg kept]
      congr 1
      apply List.filter_congr
      intro other _
      by_cases same : other = first <;> simp [same, kept]

/-- A list without its repetitions has none. -/
theorem nodup_eraseDups (list : List α) : list.eraseDups.Nodup := by
  induction list using induction_eraseDups with
  | nil => simp
  | cons first rest ih =>
    rw [List.eraseDups_cons, List.nodup_cons]
    exact ⟨by simp, ih⟩

/-- **The latest element comes first among the distinct ones** and not a second time. -/
theorem eraseDups_cons_erase (first : α) (rest : List α) :
    (first :: rest).eraseDups = first :: rest.eraseDups.erase first := by
  rw [List.eraseDups_cons, eraseDups_filter, (nodup_eraseDups rest).erase_eq_filter]
  rfl

omit [LawfulBEq α] in
/-- What is moved to the front from beyond the end pushes one element out, and what is moved from
before the end pushes none. -/
theorem take_erase_take (list : List α) (x : α) (size : Nat) :
    ((list.take (size + 1)).erase x).take size = (list.erase x).take size := by
  induction list generalizing size with
  | nil => simp
  | cons first rest ih =>
    by_cases same : (first == x) = true
    · simp [List.erase_cons, same, List.take_take]
    · cases size with
      | zero => simp
      | succ size => simp [same, ih size]

omit [LawfulBEq α] in
/-- To cut a list before or after a member is moved to its front comes to the same. -/
theorem take_cons_erase_take (list : List α) (x : α) (size : Nat) :
    (x :: (list.take size).erase x).take size = (x :: list.erase x).take size := by
  cases size with
  | zero => simp
  | succ size => simp [take_erase_take]

/-- Related elements can be left out of related lists. -/
theorem forall₂_erase [BEq β] [LawfulBEq β] {related : α → β → Prop}
    (left : ∀ x x' y, related x y → related x' y → x = x')
    (right : ∀ x y y', related x y → related x y' → y = y') {first : List α} {second : List β}
    (all : List.Forall₂ related first second) {x : α} {y : β} (h : related x y) :
    List.Forall₂ related (first.erase x) (second.erase y) := by
  induction all with
  | nil => simp
  | @cons x' y' _ _ h' rest ih =>
    by_cases same : x' = x
    · subst same
      obtain rfl := right x' y' y h' h
      simpa using rest
    · have apart : y' ≠ y := by
        rintro rfl
        exact same (left x' x y' h' h)
      rw [List.erase_cons_tail (by simpa using same), List.erase_cons_tail (by simpa using apart)]
      exact .cons h' ih

end Distinct

namespace NodeStore

/-- A sweep leaves the order of use as it is. -/
theorem recent_sweep (store : NodeStore) (heap : Heap) :
    (store.sweep heap).recent = store.recent := by
  unfold sweep
  split <;> rfl

/-- A sweep leaves the capacity as it is. -/
theorem capacity_sweep (store : NodeStore) (heap : Heap) :
    (store.sweep heap).capacity = store.capacity := by
  unfold sweep
  split <;> rfl

/-- A name is not pinned if nothing is pinned under it. -/
theorem isPinned_eq_false_iff {store : NodeStore} {name : String} :
    store.isPinned name = false ↔ store.pinned.get? name = none := by
  rw [isPinned, Bool.eq_false_iff, ne_eq, Table.contains_iff_get?, Option.eq_none_iff_forall_ne_some]
  simp

end NodeStore

namespace Workspace

variable {registry : Registry} {reader : Reader} {workspace old new : Workspace} {id : NodeId}
  {node : Node}

/-- The retained nodes are, in order, those of the first distinct names in the log of uses, as many
as the store may retain; and no use of a pinned node is in the log. -/
structure RetainsLatest (registry : Registry) (workspace : Workspace) : Prop where
  latest : List.Forall₂ workspace.heap.Names workspace.store.recent
    (workspace.uses.eraseDups.take workspace.store.capacity)
  free : ∀ name ∈ workspace.uses, registry.shape? name = none

namespace RetainsLatest

/-- A new workspace retains nothing, and nothing was used. -/
theorem create (capacity : Nat) (registry : Registry) :
    (create capacity registry).RetainsLatest registry where
  latest := by
    show List.Forall₂ _ [] (List.take _ [].eraseDups)
    simp
  free := by
    intro name member
    cases member

/-- **What touches neither the order of use nor the log keeps them in step**, as long as nodes in
use keep their names. -/
theorem keep (retains : old.RetainsLatest registry) (coherent : new.Coherent registry)
    (recent : new.store.recent = old.store.recent)
    (capacity : new.store.capacity = old.store.capacity) (uses : new.uses = old.uses)
    (before : ∀ id ∈ old.store.recent, ∀ node, new.heap.get? id = some node →
      old.heap.Names id node.name) : new.RetainsLatest registry where
  latest := by
    rw [recent, capacity, uses]
    apply List.Forall₂.imp_of_mem retains.latest
    intro id member name named
    obtain ⟨node, found⟩ := coherent.recent_alive id (recent ▸ member)
    exact ⟨node, found, (before id member node found).unique named⟩
  free := by
    rw [uses]
    exact retains.free

/-- **Using a node puts it first in both.** -/
theorem touch (retains : workspace.RetainsLatest registry) (coherent : workspace.Coherent registry)
    (found : workspace.heap.get? id = some node) (free : registry.shape? node.name = none) :
    ((workspace.noteUse node.name).touch id).RetainsLatest registry where
  latest := by
    have named : workspace.heap.Names id node.name := ⟨node, found, rfl⟩
    have moved : List.Forall₂ workspace.heap.Names
        ((id :: workspace.store.recent.erase id).take workspace.store.capacity)
        ((node.name :: workspace.uses).eraseDups.take workspace.store.capacity) := by
      rw [eraseDups_cons_erase, ← take_cons_erase_take workspace.uses.eraseDups]
      apply List.forall₂_take
      apply List.Forall₂.cons named
      apply forall₂_erase _ _ retains.latest named
      · intro id other name h h'
        exact coherent.id_unique h h'
      · intro id name other h h'
        exact h.unique h'
    -- What was displaced is freed, but none of what is retained now.
    have alive := ((coherent.noteUse node.name).touch found).recent_alive
    apply List.Forall₂.imp_of_mem moved
    intro other member name named
    obtain ⟨after, found⟩ := alive other member
    have same : workspace.heap.Names other after.name :=
      ⟨after, Heap.get?_of_get?_reclaim found, rfl⟩
    exact ⟨after, found, same.unique named⟩
  free := by
    intro name member
    rcases List.mem_cons.1 member with rfl | before
    · exact free
    · exact retains.free name before

/-- **A node that is made is used by that**, and listing it leaves the others where they are. -/
theorem publish (retains : workspace.RetainsLatest registry)
    (coherent : workspace.Coherent registry) (free : registry.shape? node.name = none)
    (unused : ∀ id, ¬ workspace.heap.Names id node.name)
    (makes : workspace.heap.Makes reader node) :
    (workspace.publish node).2.RetainsLatest registry := by
  have unlisted := unlisted_of_unused unused
  have allocated := coherent.allocate free unlisted (makes.shape free) makes.isNew
  have listed := retains.keep allocated rfl rfl rfl (by
    intro id member other found
    rcases Heap.of_get?_allocate found with ⟨rfl, -⟩ | before
    · obtain ⟨_, here⟩ := coherent.recent_alive _ member
      simp [Heap.get?_allocate_fst] at here
    · exact ⟨other, before, rfl⟩)
  have used := listed.touch allocated Heap.get?_allocate_self free
  have published := coherent.publish free unlisted (makes.shape free) makes.isNew
  apply used.keep published
  · exact NodeStore.recent_sweep _ _
  · exact NodeStore.capacity_sweep _ _
  · rfl
  · intro id _ other found
    exact ⟨other, found, rfl⟩

/-- Giving up what is retained empties both. -/
theorem releaseRetained (workspace : Workspace) :
    workspace.releaseRetained.RetainsLatest registry where
  latest := by
    show List.Forall₂ _ [] (List.take _ [].eraseDups)
    simp
  free := by
    intro name member
    cases member

end RetainsLatest

/-! ## Steps and runs -/

/-- A node that is retained and in use after a step was in use under its name before. -/
theorem Step.names_of_recent (h : Step registry reader old new)
    (coherent : old.Coherent registry) (member : id ∈ old.store.recent)
    (found : new.heap.get? id = some node) : old.heap.Names id node.name := by
  rcases h.origin found with ⟨before, here, advances⟩ | arrives
  · exact ⟨before, here, advances.name_eq.symm⟩
  · obtain ⟨before, here⟩ := coherent.recent_alive id member
    have used := Heap.index_lt_of_get? here
    have new := arrives.new
    omega

/-- A step leaves the capacity as it is. -/
theorem Step.capacity_eq (h : Step registry reader old new) :
    new.store.capacity = old.store.capacity := by
  cases h with
  | turn turn =>
    cases turn with
    | look move =>
      cases move with
      | publish => exact NodeStore.capacity_sweep _ _
      | _ => rfl
    | keep => rfl
  | _ => rfl

/-- **A step keeps the order of use in step with the log.** -/
theorem Step.retainsLatest (h : Step registry reader old new) (coherent : old.Coherent registry)
    (retains : old.RetainsLatest registry) : new.RetainsLatest registry := by
  have after := h.coherent coherent
  have before : ∀ id ∈ old.store.recent, ∀ node, new.heap.get? id = some node →
      old.heap.Names id node.name := by
    intro id member node found
    exact h.names_of_recent coherent member found
  cases h with
  | turn turn =>
    cases turn with
    | look move =>
      cases move with
      | touch found free => exact retains.touch coherent found free
      | publish _ free unused makes => exact retains.publish coherent free unused makes
      | _ => exact retains.keep after rfl rfl rfl before
    | keep => exact retains.keep after rfl rfl rfl before
  | releaseRetained => exact .releaseRetained old
  | _ => exact retains.keep after rfl rfl rfl before

/-- **So does every sequence of steps**, whatever the readers answer. -/
theorem Passes.retainsLatest (h : Passes registry old new) (coherent : old.Coherent registry)
    (retains : old.RetainsLatest registry) :
    new.RetainsLatest registry ∧ new.store.capacity = old.store.capacity := by
  induction h with
  | refl => exact ⟨retains, rfl⟩
  | tail path step ih =>
    obtain ⟨reader, step⟩ := step
    obtain ⟨mid, capacity⟩ := ih
    have between : Coherent registry _ := Passes.coherent path coherent
    exact ⟨step.retainsLatest between mid, step.capacity_eq.trans capacity⟩

/-! ## What is retained -/

/-- The store retains a node under a name: the node is in use, it is the one that is listed under
the name, and the name is not pinned. -/
structure Retains (workspace : Workspace) (id : NodeId) (name : String) : Prop where
  named : workspace.heap.Names id name
  listed : workspace.store.live.get? name = some id
  unpinned : workspace.store.isPinned name = false

/-- A name that is not registered is not pinned. -/
theorem Coherent.isPinned_eq_false {name : String} (coherent : workspace.Coherent registry)
    (free : registry.shape? name = none) : workspace.store.isPinned name = false := by
  rw [NodeStore.isPinned_eq_false_iff, Option.eq_none_iff_forall_ne_some]
  intro id entry
  obtain ⟨-, shape, told⟩ := coherent.pinned_entries name id (Table.mem_entries_of_get? entry)
  simp [free] at told

/-- **The retained nodes are those that were used last**, each the one that is listed under its
name. -/
theorem RetainsLatest.retains (retains : workspace.RetainsLatest registry)
    (coherent : workspace.Coherent registry) :
    List.Forall₂ workspace.Retains workspace.store.recent
      (workspace.uses.eraseDups.take workspace.store.capacity) := by
  have all : List.Forall₂ (fun name id => workspace.Retains id name)
      (workspace.uses.eraseDups.take workspace.store.capacity) workspace.store.recent := by
    apply retains.latest.flip.imp_of_mem
    rintro name member id ⟨node, found, rfl⟩
    have free := retains.free node.name (List.mem_eraseDups.1 (List.mem_of_mem_take member))
    constructor
    · exact ⟨node, found, rfl⟩
    · exact coherent.listed id node found free
    · exact coherent.isPinned_eq_false free
  exact all.flip

end Workspace

end ClassLattice
