import ClassLattice.Proofs.Query.Conduct
import ClassLattice.Proofs.Workspace.Recency

/-!
# Which nodes are retained

After any history, whatever the readers answered, the store retains the nodes that were found or
made last since the retained ones were last given up, as many as it may.  What counts as a use is
told apart from what the store does with it: a look-up uses the node of its name, after that of the
element if an array has to be made, and one that fails uses nothing.
-/

set_option autoImplicit false

namespace ClassLattice

variable {registry : Registry} {reader : Reader} {workspace after : Workspace} {id : NodeId}
  {name : String}

/-- The nodes that the look-up of a name uses if it succeeds, by name and the latest first. -/
inductive Workspace.LookUpUses (workspace : Workspace) : String → List String → Prop
  | pinned {name : String} (pinned : workspace.store.isPinned name = true) :
      LookUpUses workspace name []
  | found {name : String} {id : NodeId} (unpinned : workspace.store.isPinned name = false)
      (named : workspace.heap.Names id name) : LookUpUses workspace name [name]
  | read {name : String} (unpinned : workspace.store.isPinned name = false)
      (unused : ∀ id, ¬ workspace.heap.Names id name) (plain : layout name = .ok none) :
      LookUpUses workspace name [name]
  | made {name element : String} {names : List String}
      (unpinned : workspace.store.isPinned name = false)
      (unused : ∀ id, ¬ workspace.heap.Names id name) (laid : layout name = .ok (some element))
      (below : LookUpUses workspace element names) : LookUpUses workspace name (name :: names)

/-- What the look-up of a name adds to the log, told by its latest use: that of the node of the
name, unless the name is pinned. -/
def Workspace.NameUses (workspace : Workspace) (name : String) (used : List String) : Prop :=
  if workspace.store.isPinned name then used = [] else used.head? = some name

/-- The node of a name is what a look-up of the name uses last. -/
theorem Workspace.LookUpUses.nameUses {used : List String} (h : workspace.LookUpUses name used) :
    workspace.NameUses name used := by
  unfold NameUses
  cases h with
  | pinned pinned => rw [if_pos pinned]
  | found unpinned => simp [unpinned]
  | read unpinned => simp [unpinned]
  | made unpinned => simp [unpinned]

namespace Query

open Workspace

/-- What the caches have is used unless it is pinned. -/
theorem lookUpUses_of_cached (coherent : workspace.Coherent registry)
    (hit : workspace.cached name = (some id, after)) :
    ∃ names, workspace.LookUpUses name names ∧ after.uses = names ++ workspace.uses := by
  have named := coherent.names_of_cached (congrArg Prod.fst hit)
  unfold Workspace.cached at hit
  cases pinned : workspace.store.pinned.get? name with
  | some kept =>
    simp only [pinned, Prod.mk.injEq] at hit
    obtain ⟨-, rfl⟩ := hit
    exact ⟨[], .pinned (Table.contains_iff_get?.2 ⟨kept, pinned⟩), rfl⟩
  | none =>
    have unpinned := NodeStore.isPinned_eq_false_iff.2 pinned
    simp only [pinned] at hit
    split at hit
    · split at hit
      · obtain ⟨-, rfl⟩ := Prod.mk.inj hit
        exact ⟨[name], .found unpinned named, rfl⟩
      · simp at hit
    · simp at hit

/-- A node that is made is used after what the look-up has used so far. -/
theorem insert_uses {node : Node} {names : List String}
    {failed : HierarchyError → Workspace → Prop} (coherent : after.Coherent registry)
    (free : registry.shape? node.name = none) (unused : ∀ id, ¬ after.heap.Names id node.name)
    (makes : after.heap.Makes reader node)
    (made : workspace.LookUpUses node.name (node.name :: names))
    (uses : after.uses = names ++ workspace.uses) :
    (insert node).Yields after
      (fun _ last => ∃ names, workspace.LookUpUses node.name names ∧
        last.uses = names ++ workspace.uses)
      failed := by
  apply Yields.insert coherent free unused makes
  refine ⟨node.name :: names, made, ?_⟩
  show node.name :: after.uses = node.name :: (names ++ workspace.uses)
  rw [uses]

/-- **A look-up that succeeds uses the node of its name**, after those of the elements for which
arrays are made, and one that fails uses nothing. -/
theorem typeNode_uses (coherent : workspace.Coherent registry) (reader : Reader) (name : String) :
    (typeNode reader name).Yields workspace
      (fun _ after => ∃ names, workspace.LookUpUses name names ∧
        after.uses = names ++ workspace.uses)
      fun _ after => after.uses = workspace.uses := by
  -- An element has one layer less, so the layers carry the induction.
  induction same : layers name using Nat.strongRecOn generalizing name with
  | _ depth ih =>
    apply Yields.typeNode coherent
    · intro id after hit
      exact lookUpUses_of_cached coherent hit
    · intro _ free unused
      have unpinned := coherent.isPinned_eq_false free
      cases laid : layout name with
      | error reason => exact Yields.throw rfl
      | ok inner =>
        cases inner with
        | none =>
          apply Yields.readMetadata_bind unused
          · intro metadata answer
            have noted : Coherent registry { workspace with reads := workspace.reads.push name } :=
              { coherent with }
            exact insert_uses noted free unused (.declared laid answer)
              (.read unpinned unused laid) rfl
          · intro error _
            rfl
        | some inner =>
          have deeper := layers_of_layout laid
          have element := ih (layers inner) (by omega) inner rfl
          apply (element.and (typeNode_yields coherent reader inner)).bind
          · rintro id after ⟨⟨names, below, uses⟩, looks, named⟩
            have makes : after.heap.Makes reader (Node.ofArray name id) := .array laid named
            exact insert_uses (looks.coherent coherent) free (unused_of_element laid looks unused)
              makes (.made unpinned unused laid below) uses
          · rintro error after ⟨uses, -⟩
            exact uses

/-- A pending edge to the superclass is resolved by looking up its name, and uses what that does. -/
theorem superclass_uses {node : Node} (coherent : workspace.Coherent registry) (reader : Reader)
    (found : workspace.heap.get? id = some node) (pending : node.superLink? = some (.pending name)) :
    (superclass reader id).Yields workspace
      (fun _ after => ∃ names, workspace.LookUpUses name names ∧
        after.uses = names ++ workspace.uses)
      fun _ after => after.uses = workspace.uses := by
  obtain ⟨supertypes, declares, link⟩ := Option.bind_eq_some_iff.1 pending
  apply Yields.superclass found declares
  rw [link]
  apply (typeNode_uses coherent reader name).bind
  · intro target after uses
    exact uses
  · intro error after uses
    exact uses

/-- **Looking up names one after the other uses the node of each**, as far as the look-ups get. -/
theorem holdingTypes_uses {α : Type} {query : List NodeId → Query α} {names : List String}
    (coherent : workspace.Coherent registry) (reader : Reader)
    (rest : ∀ ids before, (query ids).Yields before (fun _ after => after.uses = before.uses)
      fun _ after => after.uses = before.uses) :
    (holdingTypes reader names query).Yields workspace
      (fun _ after => ∃ used, List.Forall₂ workspace.NameUses names used ∧
        after.uses = used.reverse.flatten ++ workspace.uses)
      fun _ after => ∃ done used, done <+: names ∧ List.Forall₂ workspace.NameUses done used ∧
        after.uses = used.reverse.flatten ++ workspace.uses := by
  induction names generalizing workspace query with
  | nil =>
    apply (rest [] workspace).imp
    · intro value after uses
      exact ⟨[], .nil, uses⟩
    · intro error after uses
      exact ⟨[], [], List.nil_prefix, .nil, uses⟩
  | cons name names ih =>
    apply ((typeNode_uses coherent reader name).and (typeNode_yields coherent reader name)).bind
    · rintro id after ⟨⟨first, looked, uses⟩, looks, ⟨node, found, -⟩⟩
      have later := (looks.coherent coherent).hold found
      have pinned : (after.hold id).store.pinned = workspace.store.pinned :=
        (looks.persists coherent).pinned
      have counts {name : String} {used : List String} (h : (after.hold id).NameUses name used) :
          workspace.NameUses name used := by
        unfold NameUses NodeStore.isPinned at h
        rw [pinned] at h
        exact h
      have joined {last : Workspace} {used : List (List String)}
          (h : last.uses = used.reverse.flatten ++ after.uses) :
          last.uses = (first :: used).reverse.flatten ++ workspace.uses := by
        rw [h, uses]
        simp
      apply Yields.holding
      apply (ih later fun ids before => rest (id :: ids) before).imp
      · rintro value last ⟨used, all, uses'⟩
        exact ⟨first :: used, .cons looked.nameUses (all.imp fun _ _ h => counts h),
          joined uses'⟩
      · rintro error last ⟨done, used, begun, all, uses'⟩
        exact ⟨name :: done, first :: used, List.cons_prefix_cons.2 ⟨rfl, begun⟩,
          .cons looked.nameUses (all.imp fun _ _ h => counts h), joined uses'⟩
    · rintro error after ⟨uses, -⟩
      exact ⟨[], [], List.nil_prefix, .nil, uses⟩

/-- Pending edges to interfaces are resolved by looking up their names in order. -/
theorem interfaces_uses {node : Node} {names : List String}
    (coherent : workspace.Coherent registry) (reader : Reader)
    (found : workspace.heap.get? id = some node)
    (pending : node.interfaceLink? = some (.pending names)) :
    (interfaces reader id).Yields workspace
      (fun _ after => ∃ used, List.Forall₂ workspace.NameUses names used ∧
        after.uses = used.reverse.flatten ++ workspace.uses)
      fun _ after => ∃ done used, done <+: names ∧ List.Forall₂ workspace.NameUses done used ∧
        after.uses = used.reverse.flatten ++ workspace.uses := by
  obtain ⟨supertypes, declares, link⟩ := Option.map_eq_some_iff.1 pending
  apply Yields.interfaces found declares
  rw [link]
  apply holdingTypes_uses coherent reader
  intro ids before
  exact rfl

end Query

namespace Operation

open Workspace

/-- **The store retains the nodes that were used last.**  After any history with any readers the
retained nodes are, the latest first, those of the first distinct names in the log of uses, as many
as fit, each the one that is listed under its name; so their number is the lesser of the capacity
and of the number of distinct names, and none is retained if the capacity is zero.  The log holds
what look-ups and hits in the caches have used since the retained nodes were last given up, the
latest first.  Resolving pending edges uses what looking up their names uses, those of interfaces
one after the other as far as that gets. -/
theorem retained_are_latest (capacity : Nat) (registry : Registry)
    (history : List (Reader × Operation)) :
    let workspace := ((create capacity registry).run history).2
    List.Forall₂ workspace.Retains workspace.store.recent
      (workspace.uses.eraseDups.take capacity) ∧
    workspace.sizes.retained = min capacity workspace.uses.eraseDups.length ∧
    (∀ reader name, (Query.typeNode reader name).Yields workspace
      (fun _ after => ∃ names, workspace.LookUpUses name names ∧
        after.uses = names ++ workspace.uses)
      fun _ after => after.uses = workspace.uses) ∧
    (∀ name id after, workspace.cached name = (some id, after) →
      ∃ names, workspace.LookUpUses name names ∧ after.uses = names ++ workspace.uses) ∧
    (∀ reader id node name, workspace.heap.get? id = some node →
      node.superLink? = some (.pending name) → (Query.superclass reader id).Yields workspace
        (fun _ after => ∃ names, workspace.LookUpUses name names ∧
          after.uses = names ++ workspace.uses)
        fun _ after => after.uses = workspace.uses) ∧
    (∀ reader id node names, workspace.heap.get? id = some node →
      node.interfaceLink? = some (.pending names) → (Query.interfaces reader id).Yields workspace
        (fun _ after => ∃ used, List.Forall₂ workspace.NameUses names used ∧
          after.uses = used.reverse.flatten ++ workspace.uses)
        fun _ after => ∃ done used, done <+: names ∧ List.Forall₂ workspace.NameUses done used ∧
          after.uses = used.reverse.flatten ++ workspace.uses) ∧
    ∀ reader, (releaseRetained.perform reader workspace).2.uses = [] := by
  intro workspace
  have created := coherent_create capacity registry
  have passes : Passes registry (create capacity registry) workspace := created.passes_run history
  have coherent : workspace.Coherent registry := passes.coherent created
  obtain ⟨latest, capacity_eq⟩ := passes.retainsLatest created (.create capacity registry)
  have retains : List.Forall₂ workspace.Retains workspace.store.recent
      (workspace.uses.eraseDups.take capacity) := by
    have all := latest.retains coherent
    rwa [capacity_eq] at all
  refine ⟨retains, ?_, ?_, ?_, ?_, ?_, ?_⟩
  · have length := retains.length_eq
    rwa [List.length_take] at length
  · intro reader name
    exact Query.typeNode_uses coherent reader name
  · intro name id after hit
    exact Query.lookUpUses_of_cached coherent hit
  · intro reader id node name found pending
    exact Query.superclass_uses coherent reader found pending
  · intro reader id node names found pending
    exact Query.interfaces_uses coherent reader found pending
  · intro reader
    rfl

end Operation

end ClassLattice
