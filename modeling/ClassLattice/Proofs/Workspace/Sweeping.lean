import ClassLattice.Proofs.Workspace.Steps
import Mathlib.Data.List.Nodup

/-!
# How many nodes are listed

An entry stays listed when its node is freed, until a sweep takes it out or a new node of the name
takes its place.  A sweep leaves one entry for each node that is in use and not pinned, and lets the
table grow to twice that size before the next one, or to the least threshold.  So there are always
fewer entries than twice the largest number of such nodes that were in use at one moment so far, or
than the least threshold.

The nodes are counted in the heap, which knows nothing of the tables.  The count fits what a sweep
leaves because every node in use is listed under its own name: no two entries for nodes in use are
for the same one.
-/

set_option autoImplicit false

namespace ClassLattice

namespace NodeStore

/-- A table of nodes has the entries of another, in the same order, but for some whose nodes are not
in use. -/
structure LosesFreed (heap : Heap) (old new : Table String NodeId) : Prop where
  sublist : new.entries.Sublist old.entries
  freed : ∀ name id, (name, id) ∈ old.entries → (name, id) ∉ new.entries →
    heap.isAlive id = false

variable {store : NodeStore} {heap : Heap} {name : String} {id : NodeId}

/-- An entry is left if it was there and its node is in use. -/
theorem mem_dropFreed :
    (name, id) ∈ (store.dropFreed heap).live.entries ↔
      (name, id) ∈ store.live.entries ∧ heap.isAlive id = true :=
  List.mem_filter

/-- To drop the entries of freed nodes loses no others. -/
theorem losesFreed_dropFreed (store : NodeStore) (heap : Heap) :
    LosesFreed heap store.live (store.dropFreed heap).live where
  sublist := List.filter_sublist
  freed := by
    intro name id listed gone
    rw [mem_dropFreed, not_and, Bool.not_eq_true] at gone
    exact gone listed

/-- **A sweep takes out only entries of freed nodes.** -/
theorem losesFreed_sweep (store : NodeStore) (heap : Heap) :
    LosesFreed heap store.live (store.sweep heap).live := by
  unfold sweep
  split
  · exact ⟨List.Sublist.refl _, fun _ _ listed gone => absurd listed gone⟩
  · exact losesFreed_dropFreed store heap

end NodeStore

namespace Workspace

variable {registry : Registry} {reader : Reader} {workspace old new start finish : Workspace}
  {id : NodeId} {node : Node} {name : String} {most : Nat} {moments : List Workspace}

/-! ## Nodes that are not pinned -/

/-- The nodes that are in use and not pinned. -/
def unpinned (workspace : Workspace) : List NodeId :=
  ((List.range workspace.heap.cells.size).map NodeId.mk).filter fun id =>
    workspace.heap.isAlive id && !workspace.store.pinned.values.contains id

/-- A node is unpinned if it is in use and not among the pinned ones. -/
theorem mem_unpinned :
    id ∈ workspace.unpinned ↔
      workspace.heap.isAlive id = true ∧ id ∉ workspace.store.pinned.values := by
  have allocated (alive : workspace.heap.isAlive id = true) :
      id ∈ (List.range workspace.heap.cells.size).map NodeId.mk := by
    obtain ⟨node, found⟩ := Heap.isAlive_iff.1 alive
    exact List.mem_map.2 ⟨id.index, List.mem_range.2 (Heap.index_lt_of_get? found), rfl⟩
  simp only [unpinned, List.mem_filter, Bool.and_eq_true, Bool.not_eq_true', List.contains_eq_mem,
    decide_eq_false_iff_not]
  exact ⟨And.right, fun h => ⟨allocated h.1, h⟩⟩

/-- Unpinned nodes are listed once. -/
theorem nodup_unpinned (workspace : Workspace) : workspace.unpinned.Nodup := by
  have injective : Function.Injective NodeId.mk := fun _ _ same => NodeId.mk.inj same
  exact (List.nodup_range.map injective).filter _

/-- No two entries for nodes in use are for the same one. -/
theorem Coherent.nodup_values_dropFreed (coherent : workspace.Coherent registry)
    (once : workspace.store.live.keys.Nodup) :
    (workspace.store.dropFreed workspace.heap).live.values.Nodup := by
  have entries : (workspace.store.dropFreed workspace.heap).live.entries.Nodup :=
    once.of_map.sublist List.filter_sublist
  apply entries.map_on
  rintro ⟨name, id⟩ entry ⟨other, _⟩ entry' rfl
  obtain ⟨listed, alive⟩ := NodeStore.mem_dropFreed.1 entry
  obtain ⟨listed', -⟩ := NodeStore.mem_dropFreed.1 entry'
  obtain ⟨node, found⟩ := Heap.isAlive_iff.1 alive
  obtain ⟨rfl, -⟩ := coherent.live_entries name id node listed found
  obtain ⟨rfl, -⟩ := coherent.live_entries other id node listed' found
  rfl

/-- The entries for nodes in use are for all those that are not pinned. -/
theorem Coherent.mem_values_dropFreed (coherent : workspace.Coherent registry) :
    id ∈ (workspace.store.dropFreed workspace.heap).live.values ↔ id ∈ workspace.unpinned := by
  rw [mem_unpinned]
  constructor
  · intro member
    obtain ⟨⟨name, id⟩, entry, rfl⟩ := List.mem_map.1 member
    obtain ⟨listed, alive⟩ := NodeStore.mem_dropFreed.1 entry
    obtain ⟨node, found⟩ := Heap.isAlive_iff.1 alive
    obtain ⟨rfl, free⟩ := coherent.live_entries name id node listed found
    refine ⟨alive, fun pinned => ?_⟩
    obtain ⟨⟨other, id⟩, pinnedEntry, rfl⟩ := List.mem_map.1 pinned
    obtain ⟨named, shape, told⟩ := coherent.pinned_entries other id pinnedEntry
    obtain rfl := named.unique ⟨node, found, rfl⟩
    rw [free] at told
    cases told
  · rintro ⟨alive, unpinned⟩
    obtain ⟨node, found⟩ := Heap.isAlive_iff.1 alive
    cases free : registry.shape? node.name with
    | some shape =>
      have entry := coherent.pinned_unique id node found shape free
      exact absurd (Table.mem_values_of_get? entry) unpinned
    | none =>
      have listed := Table.mem_entries_of_get? (coherent.listed id node found free)
      exact List.mem_map.2 ⟨(node.name, id), NodeStore.mem_dropFreed.2 ⟨listed, alive⟩, rfl⟩

/-- **Without the entries of freed nodes there is one entry for each node in use that is not
pinned.** -/
theorem Coherent.size_dropFreed (coherent : workspace.Coherent registry)
    (once : workspace.store.live.keys.Nodup) :
    (workspace.store.dropFreed workspace.heap).live.size = workspace.unpinned.length := by
  have same : (workspace.store.dropFreed workspace.heap).live.values.Perm workspace.unpinned := by
    rw [List.perm_ext_iff_of_nodup (coherent.nodup_values_dropFreed once) workspace.nodup_unpinned]
    intro id
    exact coherent.mem_values_dropFreed
  rw [← same.length_eq, Table.values, List.length_map, Table.size]

/-- Where no entry is for a freed node there is one for each node in use that is not pinned. -/
theorem Coherent.size_of_isAlive (coherent : workspace.Coherent registry)
    (once : workspace.store.live.keys.Nodup)
    (alive : ∀ name id, (name, id) ∈ workspace.store.live.entries →
      workspace.heap.isAlive id = true) :
    workspace.store.live.size = workspace.unpinned.length := by
  have same : (workspace.store.dropFreed workspace.heap).live.entries =
      workspace.store.live.entries :=
    List.filter_eq_self.2 fun entry member => alive entry.1 entry.2 member
  rw [← coherent.size_dropFreed once, Table.size, Table.size, same]

/-- A sweep leaves the unpinned nodes as they are. -/
theorem unpinned_sweep (workspace : Workspace) :
    (workspace.setStore (workspace.store.sweep workspace.heap)).unpinned = workspace.unpinned := by
  have same : (workspace.setStore (workspace.store.sweep workspace.heap)).store.pinned =
      workspace.store.pinned := pinned_sweep _ _
  rw [unpinned, same]
  rfl

/-! ## The bound and what keeps it -/

/-- Each name is listed once, there are fewer entries than the sweep threshold, and the threshold is
at most twice a number of nodes, or the least one. -/
structure Uncrowded (most : Nat) (workspace : Workspace) : Prop where
  once : workspace.store.live.keys.Nodup
  below : workspace.store.live.size < workspace.store.sweepThreshold
  threshold : workspace.store.sweepThreshold ≤ max leastSweepThreshold (2 * most)

namespace Uncrowded

/-- A new workspace is not crowded. -/
theorem create (capacity : Nat) (registry : Registry) (most : Nat) :
    (create capacity registry).Uncrowded most where
  once := List.nodup_nil
  below := by
    show 0 < leastSweepThreshold
    decide
  threshold := Nat.le_max_left _ _

/-- What is not crowded by one measure is not crowded by a greater one. -/
theorem mono {more : Nat} (uncrowded : workspace.Uncrowded most) (le : most ≤ more) :
    workspace.Uncrowded more where
  once := uncrowded.once
  below := uncrowded.below
  threshold := by
    have threshold := uncrowded.threshold
    omega

/-- What touches neither the entries nor the threshold keeps the bound. -/
theorem keep (uncrowded : old.Uncrowded most) (live : new.store.live = old.store.live)
    (threshold : new.store.sweepThreshold = old.store.sweepThreshold) : new.Uncrowded most where
  once := by
    rw [live]
    exact uncrowded.once
  below := by
    rw [live, threshold]
    exact uncrowded.below
  threshold := by
    rw [threshold]
    exact uncrowded.threshold

/-- **A sweep brings the entries below the threshold** that it sets, however many there were. -/
theorem sweep (coherent : workspace.Coherent registry) (once : workspace.store.live.keys.Nodup)
    (threshold : workspace.store.sweepThreshold ≤ max leastSweepThreshold (2 * most))
    (counted : (workspace.setStore (workspace.store.sweep workspace.heap)).unpinned.length ≤ most) :
    (workspace.setStore (workspace.store.sweep workspace.heap)).Uncrowded most := by
  rw [unpinned_sweep] at counted
  by_cases few : workspace.store.live.size < workspace.store.sweepThreshold
  · have same : workspace.store.sweep workspace.heap = workspace.store := if_pos few
    rw [same]
    exact ⟨once, few, threshold⟩
  · have size := coherent.size_dropFreed once
    have swept : workspace.store.sweep workspace.heap =
        { workspace.store.dropFreed workspace.heap with
          sweepThreshold := max (workspace.unpinned.length * 2) leastSweepThreshold } := by
      rw [← size]
      exact if_neg few
    rw [swept]
    constructor
    · exact Table.nodup_keys_filter once
    · show (workspace.store.dropFreed workspace.heap).live.size < max _ leastSweepThreshold
      rw [size, leastSweepThreshold]
      omega
    · show max _ leastSweepThreshold ≤ _
      omega

/-- **Listing a node that is made keeps the bound**, since a sweep follows if the threshold is
reached. -/
theorem publish (uncrowded : workspace.Uncrowded most) (coherent : workspace.Coherent registry)
    (free : registry.shape? node.name = none)
    (unused : ∀ id, ¬ workspace.heap.Names id node.name)
    (makes : workspace.heap.Makes reader node)
    (counted : (workspace.publish node).2.unpinned.length ≤ most) :
    (workspace.publish node).2.Uncrowded most := by
  have allocated := coherent.allocate free (unlisted_of_unused unused) (makes.shape free)
    makes.isNew
  have touched := Coherent.touch (allocated.noteUse node.name) Heap.get?_allocate_self
  apply sweep touched _ uncrowded.threshold counted
  exact Table.nodup_keys_insert uncrowded.once

/-- To release what is retained does not crowd a workspace. -/
theorem releaseRetained (uncrowded : workspace.Uncrowded most) :
    workspace.releaseRetained.Uncrowded most where
  once := Table.nodup_keys_filter uncrowded.once
  below := Nat.lt_of_le_of_lt (List.length_filter_le _ _) uncrowded.below
  threshold := uncrowded.threshold

end Uncrowded

/-- **A step keeps the bound** for a number that is not less than that of the nodes after it. -/
theorem Step.uncrowded (h : Step registry reader old new) (coherent : old.Coherent registry)
    (uncrowded : old.Uncrowded most) : new.Uncrowded (max new.unpinned.length most) := by
  have before := uncrowded.mono (Nat.le_max_right new.unpinned.length most)
  cases h with
  | turn turn =>
    cases turn with
    | look move =>
      cases move with
      | publish _ free unused makes =>
        exact before.publish coherent free unused makes (Nat.le_max_left _ _)
      | _ => exact before.keep rfl rfl
    | keep => exact before.keep rfl rfl
  | releaseRetained => exact before.releaseRetained
  | _ => exact before.keep rfl rfl

/-- **An entry that some steps take out is for a node that is not in use after them.** -/
theorem Steps.isAlive_eq_false (h : Steps registry reader old new)
    (coherent : old.Coherent registry) (listed : (name, id) ∈ old.store.live.entries)
    (gone : (name, id) ∉ new.store.live.entries) : new.heap.isAlive id = false := by
  rw [← Bool.not_eq_true]
  intro alive
  obtain ⟨node, found⟩ := Heap.isAlive_iff.1 alive
  -- The node was in use before, since its identity had been given out.
  have used := coherent.live_allocated name id listed
  obtain ⟨before, here, same⟩ := h.names_of_used used ⟨node, found, rfl⟩
  obtain ⟨rfl, free⟩ := coherent.live_entries name id before listed here
  rw [same] at free gone
  exact gone (Table.mem_entries_of_get? ((h.coherent coherent).listed id node found free))

/-! ## Courses -/

/-- The moments through which one workspace becomes another by steps of operations, with any
readers, the latest moment first. -/
inductive Course (registry : Registry) (start : Workspace) : List Workspace → Workspace → Prop
  | start : Course registry start [start] start
  | step {moments : List Workspace} {reader : Reader} {old new : Workspace}
      (before : Course registry start moments old) (h : Step registry reader old new) :
      Course registry start (new :: moments) new

/-- The largest number of nodes besides the pinned ones that were in use at one of some moments. -/
def peak : List Workspace → Nat
  | [] => 0
  | moment :: earlier => max moment.unpinned.length (peak earlier)

/-- A course ends with one of its moments. -/
theorem Course.mem (course : Course registry start moments finish) : finish ∈ moments := by
  cases course <;> exact List.mem_cons_self

/-- A course goes on with whatever steps follow. -/
theorem Course.exists_append (course : Course registry start moments old)
    (steps : Steps registry reader old new) :
    ∃ later, Course registry start (later ++ moments) new := by
  induction steps with
  | refl => exact ⟨[], course⟩
  | tail _ step ih =>
    obtain ⟨later, longer⟩ := ih
    exact ⟨_ :: later, longer.step step⟩

/-- A course keeps a workspace coherent. -/
theorem Course.coherent (course : Course registry start moments finish)
    (coherent : start.Coherent registry) : finish.Coherent registry := by
  induction course with
  | start => exact coherent
  | step _ h ih => exact h.coherent ih

/-- **At the end of a course there are no more entries than its peak allows.** -/
theorem Course.uncrowded (course : Course registry start moments finish)
    (coherent : start.Coherent registry) (uncrowded : start.Uncrowded 0) :
    finish.Uncrowded (peak moments) := by
  induction course with
  | start => exact uncrowded.mono (Nat.zero_le _)
  | step before h ih => exact h.uncrowded (before.coherent coherent) ih

end Workspace

end ClassLattice
