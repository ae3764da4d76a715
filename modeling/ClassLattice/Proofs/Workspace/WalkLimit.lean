import ClassLattice.Hierarchy.InMemoryReader
import ClassLattice.Proofs.Universe.Depth
import ClassLattice.Proofs.Query.Common
import Mathlib.Tactic.Ring

/-!
# The limit on walks is never reached

The limit on walks is worked out beforehand from the extent of the reader and of the heap.  Where
the reader serves the universe, no walk goes as deep.
-/

set_option autoImplicit false

namespace ClassLattice

/-- The extent of a reader bounds the weight of the supertypes that occur in its answers, each
counted once. -/
def Reader.Bounded (reader : Reader) : Prop :=
  ∀ names : List String, names.Nodup →
    (∀ name ∈ names, ∃ type metadata, reader.read type = .ok metadata ∧
      name ∈ metadata.superTypeNames) → namesWeight names ≤ reader.extent

/-- Names weigh the sum of what two lists of them weigh. -/
theorem namesWeight_append (names others : List String) :
    namesWeight (names ++ others) = namesWeight names + namesWeight others := by
  rw [namesWeight_eq_sum, namesWeight_eq_sum, namesWeight_eq_sum, List.map_append, List.sum_append]

/-- Names of two kinds weigh at most as much as those of either kind together. -/
theorem namesWeight_le_add {first second : String → Prop} {m n : Nat}
    (light : ∀ names : List String, names.Nodup → (∀ name ∈ names, first name) →
      namesWeight names ≤ m)
    (light' : ∀ names : List String, names.Nodup → (∀ name ∈ names, second name) →
      namesWeight names ≤ n)
    {names : List String} (nodup : names.Nodup) (all : ∀ name ∈ names, first name ∨ second name) :
    namesWeight names ≤ m + n := by
  classical
  have split : names ⊆ names.filter first ++ names.filter fun name => ¬ first name := by
    intro name member
    by_cases h : first name
    · exact List.mem_append_left _ (by simp [member, h])
    · exact List.mem_append_right _ (by simp [member, h])
  refine Nat.le_trans (namesWeight_le_of_subset nodup split) ?_
  rw [namesWeight_append]
  refine Nat.add_le_add (light _ (nodup.filter _) fun name member => ?_)
    (light' _ (nodup.filter _) fun name member => ?_)
  · simpa using (List.mem_filter.1 member).2
  · obtain ⟨member, other⟩ := List.mem_filter.1 member
    exact (all name member).resolve_left (by simpa using other)

/-- Names weigh no less than there are of them. -/
theorem length_le_namesWeight (names : List String) : names.length ≤ namesWeight names := by
  induction names with
  | nil => exact Nat.le_refl _
  | cons name names ih =>
    show names.length + 1 ≤ nameWeight name + namesWeight names
    unfold nameWeight
    omega

namespace MetadataMap

/-- The extent of types is the weight of the supertypes that they name. -/
theorem extent_eq (types : MetadataMap) :
    types.extent = namesWeight (types.values.flatMap TypeMetadata.superTypeNames) := by
  unfold extent
  induction types.values with
  | nil => rfl
  | cons metadata rest ih =>
    rw [List.foldr_cons, List.flatMap_cons, namesWeight_append, ih]

/-- What is named in metadata is among the supertypes of the types. -/
theorem mem_of_read {types : MetadataMap} {type : String} {metadata : TypeMetadata} {name : String}
    (answer : types.get? type = some metadata) (member : name ∈ metadata.superTypeNames) :
    name ∈ types.values.flatMap TypeMetadata.superTypeNames :=
  List.mem_flatMap.2 ⟨metadata, Table.mem_values_of_get? answer, member⟩

/-- The extent of a metadata map bounds what it answers. -/
theorem bounded (types : MetadataMap) : types.reader.Bounded := by
  intro names nodup all
  show namesWeight names ≤ types.extent
  rw [extent_eq]
  refine namesWeight_le_of_subset nodup fun name member => ?_
  obtain ⟨type, metadata, answer, listed⟩ := all name member
  have answer : types.read type = .ok metadata := answer
  unfold read at answer
  split at answer
  · rename_i found
    obtain rfl := Except.ok.inj answer
    exact mem_of_read found listed
  · cases answer

end MetadataMap

/-- What a reader over types in memory answers is an alias or in the map. -/
theorem InMemoryReader.of_read {source : InMemoryReader} {name : String} {metadata : TypeMetadata}
    (answer : source.reader.read name = .ok metadata) :
    source.aliases.get? name = some metadata ∨ source.types.get? name = some metadata := by
  have answer : source.read name = .ok metadata := answer
  unfold read MetadataMap.read at answer
  split at answer
  · cases answer
  · rename_i found
    exact .inl (Except.ok.inj answer ▸ found)
  · split at answer
    · rename_i found
      exact .inr (Except.ok.inj answer ▸ found)
    · cases answer

/-- **A reader of types in memory is bounded**, with or without faults. -/
theorem InMemoryReader.bounded (source : InMemoryReader) : source.reader.Bounded := by
  intro names nodup all
  show namesWeight names ≤ source.types.extent + MetadataMap.extent source.aliases
  rw [MetadataMap.extent_eq, MetadataMap.extent_eq, ← namesWeight_append]
  refine namesWeight_le_of_subset nodup fun name member => List.mem_append.2 ?_
  obtain ⟨type, metadata, answer, listed⟩ := all name member
  rcases of_read answer with found | found
  · exact .inr (MetadataMap.mem_of_read found listed)
  · exact .inl (MetadataMap.mem_of_read found listed)

/-- The supertypes of a node by name. -/
def Node.superTypeNames (node : Node) : List String :=
  (node.supertypes?.map Supertypes.names).getD []

/-- The supertypes that a node names are those of its declaration. -/
theorem Node.superTypeNames_of_outline {node : Node} {declaration : Declaration}
    (outline : node.outline = .declared declaration) :
    node.superTypeNames = declaration.superTypeNames := by
  obtain ⟨this, kind⟩ := node
  cases kind with
  | declared supertypes =>
    obtain rfl := Shape.declared.inj outline
    rfl
  | special supertypes =>
    obtain rfl := Shape.declared.inj outline
    rfl
  | _ => cases outline

/-- The names on a node. -/
def Node.mentions (node : Node) : List String :=
  node.name :: (node.supertypes?.map Supertypes.names).getD []

/-- What a declaration names is mentioned by its node. -/
theorem Node.mem_mentions_of_outline {node : Node} {declaration : Declaration} {name : String}
    (outline : node.outline = .declared declaration) (member : name ∈ declaration.superTypeNames) :
    name ∈ node.mentions := by
  rw [← Node.superTypeNames_of_outline outline] at member
  exact List.mem_cons_of_mem _ member

/-- Distinct names that nodes mention weigh no more than the heap. -/
theorem Heap.namesWeight_le_extent {heap : Heap} {names : List String} (nodup : names.Nodup)
    (all : ∀ name ∈ names, ∃ id node, heap.get? id = some node ∧ name ∈ node.mentions) :
    namesWeight names ≤ heap.extent := by
  have extent (cells : List (Option Node)) (start : Nat) :
      cells.foldl (fun total cell => total + (cell.map Node.extent).getD 0) start =
        start + namesWeight (cells.flatMap fun cell => (cell.map Node.mentions).getD []) := by
    induction cells generalizing start with
    | nil => rfl
    | cons cell rest ih =>
      rw [List.foldl_cons, ih, List.flatMap_cons, namesWeight_append, Nat.add_assoc]
      cases cell <;> rfl
  rw [Heap.extent, ← Array.foldl_toList, extent, Nat.zero_add]
  refine namesWeight_le_of_subset nodup fun name member => ?_
  obtain ⟨id, node, found, mentioned⟩ := all name member
  refine List.mem_flatMap.2 ⟨some node, ?_, mentioned⟩
  have bound := index_lt_of_get? found
  have cell : heap.cells[id.index] = some node := by
    simpa [get?, Array.getElem?_eq_getElem bound, Option.join_eq_some_iff] using found
  exact cell ▸ Array.mem_toList_iff.2 (Array.getElem_mem bound)

/-- The name of a node weighs no more than the heap. -/
theorem Heap.Names.nameWeight_le {heap : Heap} {id : NodeId} {name : String}
    (named : heap.Names id name) : nameWeight name ≤ heap.extent := by
  obtain ⟨node, found, rfl⟩ := named
  have single : namesWeight [node.name] = nameWeight node.name := rfl
  rw [← single]
  refine Heap.namesWeight_le_extent (by simp) fun name member => ?_
  rw [List.mem_singleton.1 member]
  exact ⟨id, node, found, List.mem_cons_self⟩

namespace Workspace

variable {world : Universe} {reader : Reader} {workspace : Workspace} {types : String → Prop}

/-- A name has fewer layers than the limit of a walk, if it weighs little enough. -/
theorem layers_lt_walkLimit (workspace : Workspace) {extent : Nat} {names : List String}
    {name : String} (light : layers name < workspace.heap.extent + namesWeight names) :
    layers name < workspace.walkLimit extent names := by
  unfold walkLimit
  dsimp only
  refine Nat.lt_of_lt_of_le ?_ (Nat.le_mul_self _)
  omega

/-- The supertypes of names that a reader serves weigh no more than the reader and the heap. -/
theorem Faithful.spansOver (faithful : workspace.Faithful world)
    (serves : reader.ServesOver world types) (bounded : reader.Bounded) :
    world.SpansOver types (reader.extent + workspace.heap.extent) := by
  intro names nodup all
  refine namesWeight_le_add bounded (fun _ => Heap.namesWeight_le_extent) nodup
    fun name member => ?_
  obtain ⟨type, among, declaration, shape, listed⟩ := all name member
  cases pinned : world.registry.shape? type with
  | some found =>
    have same := (Universe.shape?_of_pinned pinned).symm.trans shape
    obtain ⟨id, entry⟩ := faithful.coherent.pinned type found pinned
    obtain ⟨node, alive, rfl⟩ := faithful.coherent.names_of_pinned entry
    exact .inr ⟨id, node, alive, Node.mem_mentions_of_outline (faithful.outline alive shape) listed⟩
  | none =>
    rw [Universe.shape?, pinned] at shape
    dsimp only at shape
    split at shape
    · cases shape
    · rename_i plain
      obtain ⟨metadata, told, declared⟩ := Option.map_eq_some_iff.1 shape
      obtain rfl := Shape.declared.inj declared
      exact .inl ⟨type, metadata, serves type metadata among pinned plain told, listed⟩
    · cases shape

/-- **The supertypes in a universe that a reader serves weigh no more than the reader and the
heap.** -/
theorem Faithful.spans (faithful : workspace.Faithful world) (serves : reader.Serves world)
    (bounded : reader.Bounded) : world.Spans (reader.extent + workspace.heap.extent) :=
  faithful.spansOver (fun name metadata _ _ _ => serves name metadata) bounded

/-- No walk from a name that is in the heap, or that a limit was worked out for, goes as deep as the
limit. -/
theorem not_deep_of_spansOver {extent : Nat} {names : List String} {name : String}
    (spans : world.SpansOver types (extent + workspace.heap.extent)) (upward : world.Upward types)
    (start : types name) (light : layers name < workspace.heap.extent + namesWeight names) :
    ¬ world.Deep (workspace.walkLimit extent names) [] name := by
  intro deep
  have least := deep.le_over upward start spans
  have square (sum : Nat) : (sum + 2) * (sum + 2) = sum * sum + 4 * sum + 4 := by ring
  unfold walkLimit at least
  rw [square (extent + workspace.heap.extent + namesWeight names)] at least
  omega

/-- **The limit on walks is never reached** by a walk from a name that is in the heap, or that the
limit was worked out for, if the reader answers for all that the walk can meet. -/
theorem Faithful.not_deep_over (faithful : workspace.Faithful world) (upward : world.Upward types)
    (serves : reader.ServesOver world types) (bounded : reader.Bounded) {names : List String}
    {name : String} (start : types name)
    (light : layers name < workspace.heap.extent + namesWeight names) :
    ¬ world.Deep (workspace.walkLimit reader.extent names) [] name :=
  not_deep_of_spansOver (faithful.spansOver serves bounded) upward start light

/-- **No walk from a name goes as deep as its limit.** -/
theorem Faithful.not_deep (faithful : workspace.Faithful world) (serves : reader.Serves world)
    (bounded : reader.Bounded) {names : List String} {name : String}
    (light : layers name < workspace.heap.extent + namesWeight names) :
    ¬ world.Deep (workspace.walkLimit reader.extent names) [] name :=
  faithful.not_deep_over (fun _ _ _ _ => trivial) (fun name metadata _ _ _ => serves name metadata)
    bounded trivial light

/-- If no walk from a light name goes as deep as a limit, none for two names does. -/
theorem not_deepFor_of_not_deep {limit : Nat} {a b : String}
    (shallow : ∀ name, layers name < workspace.heap.extent + namesWeight [a, b] →
      ¬ world.Deep limit [] name) : ¬ world.DeepFor limit limit a b := by
  have weight : namesWeight [a, b] = nameWeight a + nameWeight b := rfl
  have lightA := layers_lt_nameWeight a
  have lightB := layers_lt_nameWeight b
  rintro (⟨x, nested | nested, deep⟩ | deep)
  · have fewer := nested.layers_le
    exact shallow x (by omega) deep
  · have fewer := nested.layers_le
    exact shallow x (by omega) deep
  · exact shallow a (by omega) deep

/-- No walk that two names may take goes as deep as its limit. -/
theorem Faithful.not_deepFor (faithful : workspace.Faithful world) (serves : reader.Serves world)
    (bounded : reader.Bounded) (a b : String) :
    ¬ world.DeepFor (workspace.walkLimit reader.extent [a, b])
      (workspace.walkLimit reader.extent [a, b]) a b :=
  not_deepFor_of_not_deep fun _ => faithful.not_deep serves bounded

/-- No walk from the name of a node goes as deep as its limit. -/
theorem Faithful.not_deep_of_names (faithful : workspace.Faithful world)
    (serves : reader.Serves world) (bounded : reader.Bounded) {id : NodeId} {name : String}
    (named : workspace.heap.Names id name) :
    ¬ world.Deep (workspace.walkLimit reader.extent []) [] name := by
  have light := layers_lt_nameWeight name
  have weight := named.nameWeight_le
  exact faithful.not_deep serves bounded (by omega)

end Workspace

end ClassLattice
