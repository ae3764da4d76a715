import ClassLattice.Hierarchy.Lookup
import ClassLattice.Proofs.Query.Yields
import ClassLattice.Proofs.Workspace.Evolution

/-!
# What looking up a name does

Looking up a name in a coherent workspace ends with a node in use of that name, or fails for a
reason that lies in the name and the reader alone.  Either way it makes nodes only for the name and
the elements below it.
-/

set_option autoImplicit false

namespace ClassLattice

/-- Why a reader cannot provide a type that is not in use yet: the name is malformed, the metadata
cannot be read, or the reason lies with the element of an array. -/
inductive Reader.Fails (reader : Reader) (registry : Registry) : String → HierarchyError → Prop
  | malformed {name : String} {reason : Malformation} (free : registry.shape? name = none)
      (laid : layout name = .error reason) : Fails reader registry name (.malformed name reason)
  | unread {name : String} {error : HierarchyError} (free : registry.shape? name = none)
      (plain : layout name = .ok none) (failed : reader.read name = .error error) :
      Fails reader registry name error
  | element {name inner : String} {error : HierarchyError} (free : registry.shape? name = none)
      (laid : layout name = .ok (some inner)) (below : Fails reader registry inner error) :
      Fails reader registry name error

namespace Query

open Workspace

variable {registry : Registry} {reader : Reader} {scope : Scope} {workspace : Workspace}
  {name : String}

/-- **The caches answer with a node of the name, or there is none in use.** -/
theorem cached_yields (coherent : workspace.Coherent registry) (reader : Reader) (scope : Scope)
    (name : String) :
    (cached name).Yields workspace
      (fun found after =>
        (∀ id, found = some id →
          LooksUp registry reader scope workspace after ∧ after.heap.Names id name) ∧
        (found = none → after = workspace ∧ registry.shape? name = none ∧
          ∀ id, ¬ workspace.heap.Names id name))
      (fun _ _ => False) := by
  unfold Yields Query.cached Workspace.cached
  cases pinned : workspace.store.pinned.get? name with
  | some id =>
    refine ⟨fun other same => ?_, fun absent => nomatch absent⟩
    obtain rfl := Option.some.inj same
    exact ⟨.refl workspace, coherent.names_of_pinned pinned⟩
  | none =>
    have free : registry.shape? name = none := by
      cases shape : registry.shape? name with
      | none => rfl
      | some found =>
        obtain ⟨id, entry⟩ := coherent.pinned name found shape
        exact absurd (pinned.symm.trans entry) (by simp)
    have listed {id} (named : workspace.heap.Names id name) :
        workspace.store.live.get? name = some id := by
      obtain ⟨node, found, rfl⟩ := named
      exact coherent.listed id node found free
    cases live : workspace.store.live.get? name with
    | none =>
      refine ⟨fun id same => (nomatch same), fun _ => ⟨rfl, free, fun id named => ?_⟩⟩
      exact absurd ((listed named).symm.trans live) (by simp)
    | some id =>
      by_cases alive : workspace.heap.isAlive id = true
      · simp only [alive, if_true]
        obtain ⟨node, found⟩ := Heap.isAlive_iff.1 alive
        obtain ⟨rfl, -⟩ :=
          coherent.live_entries name id node (Table.mem_entries_of_get? live) found
        refine ⟨fun other same => ?_, fun absent => nomatch absent⟩
        obtain rfl := Option.some.inj same
        have noted := coherent.noteUse node.name
        rw [noted.retain_eq_touch found]
        exact ⟨.move (.touch found free), node, noted.get?_touch found, rfl⟩
      · rw [Bool.not_eq_true] at alive
        simp only [alive, Bool.false_eq_true, if_false]
        refine ⟨fun id same => (nomatch same), fun _ => ⟨trivial, free, fun other named => ?_⟩⟩
        obtain rfl := Option.some.inj (live.symm.trans (listed named))
        obtain ⟨node, found, -⟩ := named
        exact absurd (Heap.isAlive_iff.2 ⟨node, found⟩) (by simp [alive])

/-- **A node for a name that has none in use is inserted as a new one**: no node in use is found in
its place. -/
theorem Yields.insert {ok : NodeId → Workspace → Prop} {failed : HierarchyError → Workspace → Prop}
    {node : Node} (coherent : workspace.Coherent registry)
    (free : registry.shape? node.name = none)
    (unused : ∀ id, ¬ workspace.heap.Names id node.name)
    (makes : workspace.heap.Makes reader node)
    (published : ok (workspace.publish node).1 (workspace.publish node).2) :
    (insert node).Yields workspace ok failed := by
  unfold Yields Query.insert
  rw [coherent.insert_eq_publish free (unlisted_of_unused unused) (makes.shape free) makes.isNew]
  exact published

/-- Inserting a node for a name that has none in use is a move of a look-up. -/
theorem insert_yields (reader : Reader) (scope : Scope) (node : Node)
    (coherent : workspace.Coherent registry) (allowed : scope.names node.name)
    (free : registry.shape? node.name = none)
    (unused : ∀ id, ¬ workspace.heap.Names id node.name)
    (makes : workspace.heap.Makes reader node) :
    (insert node).Yields workspace
      (fun id after => LooksUp registry reader scope workspace after ∧
        after.heap.Names id node.name) (fun _ _ => False) := by
  have found := coherent.get?_publish free (unlisted_of_unused unused) (makes.shape free)
    makes.isNew
  apply Yields.insert coherent free unused makes
  exact ⟨.move (.publish allowed free unused makes), node, found, rfl⟩

/-- The reader is asked for a name before it can be known whether it answers.  The name has no node
in use then, so there is nothing to note but that it was asked for. -/
theorem Yields.readMetadata_bind {α : Type} {next : TypeMetadata → Query α}
    {ok : α → Workspace → Prop} {failed : HierarchyError → Workspace → Prop}
    (unused : ∀ id, ¬ workspace.heap.Names id name)
    (answered : ∀ metadata, reader.read name = .ok metadata →
      (next metadata).Yields { workspace with reads := workspace.reads.push name } ok failed)
    (unread : ∀ error, reader.read name = .error error →
      failed error { workspace with reads := workspace.reads.push name }) :
    (readMetadata reader name >>= next).Yields workspace ok failed := by
  show Yields (EStateM.bind (readMetadata reader name) next) workspace ok failed
  unfold Yields EStateM.bind readMetadata
  rw [noteRead_of_unused unused]
  cases answer : reader.read name with
  | ok metadata => exact answered metadata answer
  | error error => exact unread error answer

/-- **A type that has no node in use is read and gets one.** -/
theorem read_yields (coherent : workspace.Coherent registry) (allowed : scope.names name)
    (free : registry.shape? name = none) (plain : layout name = .ok none)
    (unused : ∀ id, ¬ workspace.heap.Names id name) :
    Yields (do
        let metadata ← readMetadata reader name
        insert (Node.ofMetadata name metadata)) workspace
      (fun id after => LooksUp registry reader scope workspace after ∧ after.heap.Names id name)
      (fun error after => LooksUp registry reader scope workspace after ∧
        reader.Fails registry name error) := by
  have asked : LooksUp registry reader scope workspace
      { workspace with reads := workspace.reads.push name } :=
    .move (.read allowed free plain unused)
  refine Yields.readMetadata_bind unused (fun metadata answer => ?_)
    fun error unread => ⟨asked, .unread free plain unread⟩
  have published := insert_yields reader scope (Node.ofMetadata name metadata)
    (asked.coherent coherent) allowed free unused (.declared plain answer)
  exact published.imp (fun id after h => ⟨asked.trans h.1, h.2⟩) fun _ _ h => h.elim

/-- The nodes that a look-up of an element makes are not those of its arrays. -/
theorem unused_of_element {element : String} {old new : Workspace}
    (laid : layout name = .ok (some element))
    (looks : LooksUp registry reader (Scope.ofName element) old new)
    (unused : ∀ id, ¬ old.heap.Names id name) (id : NodeId) : ¬ new.heap.Names id name := by
  rintro ⟨node, found, named⟩
  have keeps : Scope.Keeps registry reader (Scope.ofName element) 0
      fun _ node => node.name ≠ name := by
    refine ⟨fun heap id node _ inside free makes same => ?_, fun _ _ _ h => h.elim,
      fun _ _ _ h => h.elim⟩
    have deeper := layers_of_layout laid
    have below := Inside.layers_le inside
    rw [same] at below
    omega
  exact looks.all_nodes keeps (Nat.zero_le _) (fun id node found same =>
    unused id ⟨node, found, same⟩) id node found named

/-- An array gets a node on top of the one that its element has. -/
theorem array_yields {element : String} {find : Query NodeId}
    (coherent : workspace.Coherent registry) (free : registry.shape? name = none)
    (laid : layout name = .ok (some element)) (unused : ∀ id, ¬ workspace.heap.Names id name)
    (finds : find.Yields workspace
      (fun id after => LooksUp registry reader (Scope.ofName element) workspace after ∧
        after.heap.Names id element)
      (fun error after => LooksUp registry reader (Scope.ofName element) workspace after ∧
        reader.Fails registry element error)) :
    Yields (do
        let inner ← find
        insert (Node.ofArray name inner)) workspace
      (fun id after => LooksUp registry reader (Scope.ofName name) workspace after ∧
        after.heap.Names id name)
      (fun error after => LooksUp registry reader (Scope.ofName name) workspace after ∧
        reader.Fails registry name error) := by
  have within : (Scope.ofName element).Within (Scope.ofName name) :=
    ⟨fun _ inside => .element laid inside, fun _ => id, fun _ => id⟩
  refine finds.bind (fun inner after found => ?_) fun error after failed => ?_
  · obtain ⟨looks, named⟩ := found
    have published := insert_yields reader (Scope.ofName name) (Node.ofArray name inner)
      (looks.coherent coherent) (.self name) free (unused_of_element laid looks unused)
      (.array laid named)
    exact published.imp (fun id last h => ⟨(looks.widen within).trans h.1, h.2⟩)
      fun _ _ h => h.elim
  · exact ⟨failed.1.widen within, .element free laid failed.2⟩

/-- The node of a class or interface is that of a type with a plain name. -/
theorem classNode_eq_typeNode (reader : Reader) (plain : layout name = .ok none) :
    classNode reader name = typeNode reader name := by
  have laid : layoutOfChars name.toList = .ok none := plain
  unfold typeNode classNode
  rw [nodeOfChars.eq_def, String.ofList_toList]
  congr 1
  funext found
  cases found with
  | some id => rfl
  | none =>
    dsimp only
    split
    · rename_i empty
      simp [empty, layoutOfChars] at laid
    · rename_i bracket
      simp [bracket, layoutOfChars] at laid
    · rename_i rest nested
      simp [nested, layoutOfChars] at laid
    · rename_i rest object
      cases element : objectElement rest <;>
        simp [object, layoutOfChars, element, Except.map] at laid
    · rename_i code _ _ single
      cases coded : BaseType.ofCode? code <;> simp [single, layoutOfChars, coded] at laid
    · rename_i rest _ _ _ unknown
      simp [unknown, layoutOfChars] at laid
    · rfl

/-- What is done to find the node of a name that the caches do not have, by the layout of the
name. -/
def makeNode (reader : Reader) (name : String) : Except Malformation (Option String) → Query NodeId
  | .error reason => throw (.malformed name reason)
  | .ok none => do
    let metadata ← readMetadata reader name
    insert (Node.ofMetadata name metadata)
  | .ok (some inner) => do
    let element ← typeNode reader inner
    insert (Node.ofArray name element)

/-- A node that the caches have is given out as it is. -/
theorem typeNode_of_cached {id : NodeId} {after : Workspace} (reader : Reader)
    (hit : workspace.cached name = (some id, after)) :
    typeNode reader name workspace = .ok id after := by
  unfold typeNode
  rw [nodeOfChars.eq_def, String.ofList_toList]
  show EStateM.bind _ _ _ = _
  unfold EStateM.bind Query.cached
  rw [hit]
  rfl

/-- The node of a primitive type is in the caches. -/
theorem typeNode_primitive (coherent : workspace.Coherent registry) (reader : Reader)
    (base : BaseType) :
    typeNode reader base.name workspace = .ok (workspace.store.primitive base) workspace := by
  obtain ⟨id, pinned⟩ := coherent.pinned base.name (.primitive base)
    (Registry.shape?_primitive_iff.2 (by cases base <;> rfl))
  apply typeNode_of_cached
  unfold Workspace.cached
  rw [NodeStore.primitive, pinned]
  rfl

/-- **A name is looked up in the caches and, if it is not there, by its layout.** -/
theorem Yields.typeNode {ok : NodeId → Workspace → Prop}
    {failed : HierarchyError → Workspace → Prop} (coherent : workspace.Coherent registry)
    (hit : ∀ id after, workspace.cached name = (some id, after) → ok id after)
    (missed : workspace.cached name = (none, workspace) → registry.shape? name = none →
      (∀ id, ¬ workspace.heap.Names id name) →
        (makeNode reader name (layout name)).Yields workspace ok failed) :
    (typeNode reader name).Yields workspace ok failed := by
  unfold Query.typeNode
  rw [nodeOfChars.eq_def, String.ofList_toList]
  -- Which of the cases applies is read off the characters, once for the query and the layout.
  have ran : (Query.cached name).Yields workspace
      (fun found after => workspace.cached name = (found, after)) fun _ _ => False := rfl
  refine (ran.and (cached_yields coherent reader .everything name)).bind ?_ fun _ _ h => h.1.elim
  rintro found after ⟨ran, -, miss⟩
  cases found with
  | some id => exact Yields.pure (hit id after ran)
  | none =>
    obtain ⟨rfl, free, unused⟩ := miss rfl
    have made := missed ran free unused
    dsimp only
    split
    · rename_i empty
      simpa [layout, empty, layoutOfChars, makeNode] using made
    · rename_i bracket
      simpa [layout, bracket, layoutOfChars, makeNode] using made
    · rename_i rest nested
      simpa [layout, nested, layoutOfChars, makeNode, Query.typeNode] using made
    · rename_i rest object
      cases element : objectElement rest with
      | error reason =>
        simpa [layout, object, layoutOfChars, element, Except.map, makeNode] using made
      | ok inner =>
        have laid : layout name = .ok (some inner) := by
          simp [layout, object, layoutOfChars, element, Except.map]
        rw [laid, makeNode, ← classNode_eq_typeNode reader (layers_of_objectElement element).2]
          at made
        exact made
    · rename_i code _ _ single
      cases coded : BaseType.ofCode? code with
      | none => simpa [layout, single, layoutOfChars, coded, makeNode] using made
      | some base =>
        have laid : layout name = .ok (some base.name) := by
          simp [layout, single, layoutOfChars, coded]
        rw [laid, makeNode] at made
        have same : (Query.typeNode reader base.name >>= fun element =>
            Query.insert (Node.ofArray name element)) after =
              Query.insert (Node.ofArray name (after.store.primitive base)) after :=
          bind_of_ok (typeNode_primitive coherent reader base)
        unfold Yields at made
        rw [same] at made
        exact made
    · rename_i rest _ _ _ unknown
      simpa [layout, unknown, layoutOfChars, makeNode] using made
    · rename_i notEmpty _ _ _ _ notBracket
      have laid : layout name = .ok none := by
        rw [layout]
        cases shape : name.toList with
        | nil => exact absurd shape notEmpty
        | cons first rest =>
          have plain : first ≠ '[' := fun same => notBracket rest (same ▸ shape)
          simp [layoutOfChars, plain]
      rw [laid, makeNode] at made
      exact made

/-- A name that is found has a node in use, and nothing but the order of use has changed. -/
theorem looksUp_of_cached {id : NodeId} {after : Workspace}
    (coherent : workspace.Coherent registry) (reader : Reader) (scope : Scope)
    (hit : workspace.cached name = (some id, after)) :
    LooksUp registry reader scope workspace after ∧ after.heap.Names id name := by
  have found := cached_yields coherent reader scope name
  unfold Yields Query.cached at found
  rw [hit] at found
  exact found.1 id rfl

/-- **Looking up a name** gives out a node in use of that name, or fails for a reason that the
reader gives. -/
theorem typeNode_yields (coherent : workspace.Coherent registry) (reader : Reader)
    (name : String) :
    (typeNode reader name).Yields workspace
      (fun id after => LooksUp registry reader (Scope.ofName name) workspace after ∧
        after.heap.Names id name)
      (fun error after => LooksUp registry reader (Scope.ofName name) workspace after ∧
        reader.Fails registry name error) := by
  -- An element has one layer less, so the layers carry the induction.
  induction same : layers name using Nat.strongRecOn generalizing name with
  | _ depth ih =>
    refine Yields.typeNode coherent (fun id after hit => looksUp_of_cached coherent reader _ hit)
      fun _ free unused => ?_
    cases laid : layout name with
    | error reason => exact Yields.throw ⟨.refl workspace, .malformed free laid⟩
    | ok inner =>
      cases inner with
      | none => exact read_yields coherent (Inside.self name) free laid unused
      | some inner =>
        have deeper := layers_of_layout laid
        exact array_yields coherent free laid unused (ih (layers inner) (by omega) inner rfl)

end Query

end ClassLattice
