import ClassLattice.Proofs.Workspace.WalkLimit
import Mathlib.Data.Set.Finite.Basic

/-!
# What nodes and a reader say together

The nodes in use may come from readers that have said other things than the one that is asked now,
and a node that is freed in the middle of a walk may come back with other supertypes.  A pool takes
together all supertypes that a name has in either place.  It is finite if the reader is, whatever is
said about types, so no walk can go on above it for ever.
-/

set_option autoImplicit false

namespace ClassLattice

namespace Reader

variable {reader : Reader}

/-- Distinct supertypes that occur in the answers of a reader weigh at most so much. -/
def BoundedBy (reader : Reader) (extent : Nat) : Prop :=
  ∀ names : List String, names.Nodup →
    (∀ name ∈ names, ∃ type metadata, reader.read type = .ok metadata ∧
      name ∈ metadata.superTypeNames) → namesWeight names ≤ extent

/-- A reader keeps away from the failure that is kept for walks that go too deep. -/
def Measured (reader : Reader) : Prop := ∀ name other, reader.read name ≠ .error (.tooDeep other)

/-- The supertypes that a reader has for a name. -/
def supertypesOf (reader : Reader) (name : String) : List String :=
  match reader.read name with
  | .ok metadata => metadata.superTypeNames
  | .error _ => []

/-- The supertypes that a reader tells are those in its metadata. -/
theorem mem_supertypesOf {name parent : String} :
    parent ∈ reader.supertypesOf name ↔
      ∃ metadata, reader.read name = .ok metadata ∧ parent ∈ metadata.superTypeNames := by
  unfold supertypesOf
  cases reader.read name <;> simp

/-- **A reader over finitely many names is bounded.** -/
theorem exists_boundedBy (finite : {name | ∃ metadata, reader.read name = .ok metadata}.Finite) :
    ∃ extent, reader.BoundedBy extent := by
  refine ⟨namesWeight (finite.toFinset.toList.flatMap reader.supertypesOf), ?_⟩
  intro names nodup occur
  refine namesWeight_le_of_subset nodup fun name member => ?_
  obtain ⟨type, metadata, answer, listed⟩ := occur name member
  refine List.mem_flatMap.2 ⟨type, ?_, mem_supertypesOf.2 ⟨metadata, answer, listed⟩⟩
  simpa using ⟨metadata, answer⟩

/-- A failure that the reader is behind is none of a walk that went too deep. -/
theorem Fails.ne_tooDeep {registry : Registry} {name : String} {error : HierarchyError}
    (fails : reader.Fails registry name error) (measured : reader.Measured) (other : String) :
    error ≠ .tooDeep other := by
  induction fails with
  | malformed => exact nofun
  | unread _ _ failed =>
    rintro rfl
    exact measured _ other failed
  | element _ _ _ ih => exact ih

end Reader

namespace InMemoryReader

variable (source : InMemoryReader)

/-- A reader of types in memory never fails for want of depth. -/
theorem measured : source.reader.Measured := by
  intro name other failed
  have failed : source.read name = .error (.tooDeep other) := failed
  unfold read MetadataMap.read at failed
  split at failed
  · cases failed
  · cases failed
  · split at failed <;> cases failed

/-- A reader over types in memory is one over finitely many names. -/
theorem finite : {name | ∃ metadata, source.reader.read name = .ok metadata}.Finite := by
  refine (source.aliases.keys ++ source.types.keys).finite_toSet.subset ?_
  rintro name ⟨metadata, answer⟩
  rcases of_read answer with found | found
  · exact List.mem_append_left _ (List.mem_map_of_mem (Table.mem_entries_of_get? found))
  · exact List.mem_append_right _ (List.mem_map_of_mem (Table.mem_entries_of_get? found))

end InMemoryReader

namespace Workspace

variable {registry : Registry} {world : Universe} {reader : Reader} {scope : Scope}
  {old new workspace : Workspace} {id : NodeId} {node : Node} {name parent : String}

/-- The supertypes that the listed node of a name has. -/
def supertypesOf (workspace : Workspace) (name : String) : List String :=
  (((workspace.store.live.get? name).bind workspace.heap.get?).map Node.superTypeNames).getD []

/-- The supertypes of a name in a workspace are those that a node declares. -/
theorem exists_of_mem_supertypesOf (h : parent ∈ workspace.supertypesOf name) :
    ∃ id node, workspace.heap.get? id = some node ∧ parent ∈ node.superTypeNames := by
  unfold supertypesOf at h
  cases live : (workspace.store.live.get? name).bind workspace.heap.get? with
  | none => simp [live] at h
  | some node =>
    obtain ⟨id, -, found⟩ := Option.bind_eq_some_iff.1 live
    exact ⟨id, node, found, by simpa [live] using h⟩

/-- The universe in which a name has the supertypes of its node and those that a reader has for
it. -/
def pool (registry : Registry) (workspace : Workspace) (reader : Reader) : Universe where
  registry := registry
  metadata? name := some
    { className := name
      superName := none
      interfaceNames := workspace.supertypesOf name ++ reader.supertypesOf name
      isInterface := false }

/-- All that the nodes of a coherent workspace and a reader say about supertypes is so in a
universe. -/
structure Pooled (world : Universe) (reader : Reader) (workspace : Workspace) : Prop where
  coherent : workspace.Coherent world.registry
  declared : ∀ id node declaration, workspace.heap.get? id = some node →
    node.outline = .declared declaration → ∀ parent ∈ declaration.superTypeNames,
      world.Extends node.name parent
  answered : ∀ name metadata, world.registry.shape? name = none → layout name = .ok none →
    reader.read name = .ok metadata → ∀ parent ∈ metadata.superTypeNames, world.Extends name parent

/-- What a workspace or a reader tells of a plain name is an edge of the pool. -/
theorem extends_pool (free : registry.shape? name = none) (plain : layout name = .ok none)
    (member : parent ∈ workspace.supertypesOf name ++ reader.supertypesOf name) :
    (pool registry workspace reader).Extends name parent := by
  have shape : (pool registry workspace reader).shape? name =
      ((pool registry workspace reader).metadata? name).map
        fun metadata => .declared metadata.declaration := by
    simp only [Universe.shape?, pool, free, plain]
  exact ⟨_, shape, member⟩

/-- **A workspace and a reader are covered by the pool of what they tell.** -/
theorem pooled_pool (coherent : workspace.Coherent registry) (reader : Reader) :
    workspace.Pooled (pool registry workspace reader) reader where
  coherent := coherent
  declared := by
    intro id node declaration found outline parent listed
    obtain ⟨shape, shows, allowed⟩ := coherent.shapes id node found
    rw [Heap.Shows, outline] at shows
    cases shows
    cases allowed with
    | pinned told => exact ⟨declaration, Universe.shape?_of_pinned told, listed⟩
    | declared free plain _ =>
      refine extends_pool free plain (List.mem_append_left _ ?_)
      rw [supertypesOf, coherent.listed id node found free, Option.bind_some, found,
        Option.map_some, Option.getD_some, Node.superTypeNames_of_outline outline]
      exact listed
  answered := by
    intro name metadata free plain answer parent listed
    refine extends_pool free plain (List.mem_append_right _ ?_)
    exact Reader.mem_supertypesOf.2 ⟨metadata, answer, listed⟩

/-- Looking up names with the reader adds nothing to what was pooled. -/
theorem LooksUp.pooled (h : LooksUp world.registry reader scope old new)
    (pooled : old.Pooled world reader) : new.Pooled world reader where
  coherent := h.coherent pooled.coherent
  declared := by
    have keeps : Scope.Keeps world.registry reader scope 0 fun _ node =>
        ∀ declaration, node.outline = .declared declaration →
          ∀ parent ∈ declaration.superTypeNames, world.Extends node.name parent := by
      refine ⟨fun heap id node _ _ free makes => ?_, fun _ node target _ declared => ?_,
        fun _ node targets _ declared => ?_⟩
      · cases makes with
        | array => exact nofun
        | @declared name metadata plain answer =>
          intro declaration outline parent listed
          rw [Heap.Makes.outline_ofMetadata] at outline
          obtain rfl := Shape.declared.inj outline
          exact pooled.answered name metadata free plain answer parent listed
      · simpa using declared
      · simpa using declared
    intro id node declaration found
    exact h.all_nodes keeps (Nat.zero_le _) (fun id node found declaration =>
      pooled.declared id node declaration found) id node found declaration
  answered := pooled.answered

/-- To hold a node keeps a workspace covered. -/
theorem Pooled.hold (pooled : workspace.Pooled world reader)
    (found : workspace.heap.get? id = some node) : (workspace.hold id).Pooled world reader :=
  { pooled with coherent := pooled.coherent.hold found }

/-- The element of an array is in use under the name that is nested in the name of the array. -/
theorem Pooled.exists_element {element : NodeId} (pooled : workspace.Pooled world reader)
    (found : workspace.heap.get? id = some node) (isArray : node.element? = some element) :
    ∃ inner, world.shape? node.name = some (.array inner) ∧
      workspace.heap.Names element inner := by
  obtain ⟨inner, free, laid, named⟩ := pooled.coherent.names_element found isArray
  exact ⟨inner, Universe.shape?_array_iff.2 ⟨free, laid⟩, named⟩

/-! ## A pool is finite -/

/-- What is a supertype in a pool is one in an answer of the reader or on a node in use. -/
theorem of_extends_pool (coherent : workspace.Coherent registry)
    (h : (pool registry workspace reader).Extends name parent) :
    (∃ type metadata, reader.read type = .ok metadata ∧ parent ∈ metadata.superTypeNames) ∨
      ∃ id node, workspace.heap.get? id = some node ∧ parent ∈ node.mentions := by
  obtain ⟨declaration, shape, listed⟩ := h
  cases told : registry.shape? name with
  | some found =>
    have pinned : (pool registry workspace reader).shape? name = some found :=
      Universe.shape?_of_pinned told
    obtain rfl := Option.some.inj (pinned.symm.trans shape)
    obtain ⟨id, entry⟩ := coherent.pinned name _ told
    obtain ⟨node, alive, rfl⟩ := coherent.names_of_pinned entry
    obtain ⟨shape', shows, allowed⟩ := coherent.shapes id node alive
    cases allowed with
    | pinned told' =>
      obtain rfl := Option.some.inj (told.symm.trans told')
      exact .inr ⟨id, node, alive, Node.mem_mentions_of_outline shows.eq_declared listed⟩
    | array free => simp [told] at free
    | declared free => simp [told] at free
  | none =>
    rcases Universe.of_shape?_declared shape with ⟨_, entry, -⟩ | ⟨-, metadata, known, rfl⟩
    · exact nomatch (Registry.get?_of_shape?_eq_none told).symm.trans entry
    obtain rfl := Option.some.inj known
    have listed : parent ∈ workspace.supertypesOf name ++ reader.supertypesOf name := listed
    rcases List.mem_append.1 listed with declared | answer
    · obtain ⟨id, node, found, member⟩ := exists_of_mem_supertypesOf declared
      exact .inr ⟨id, node, found, List.mem_cons_of_mem _ member⟩
    · obtain ⟨metadata, answer, member⟩ := Reader.mem_supertypesOf.1 answer
      exact .inl ⟨name, metadata, answer, member⟩

/-- **A pool is finite**: the supertypes in it weigh no more than the reader and the heap. -/
theorem spans_pool {extent : Nat} (coherent : workspace.Coherent registry)
    (bounded : reader.BoundedBy extent) :
    (pool registry workspace reader).Spans (extent + workspace.heap.extent) := by
  intro names nodup all
  refine namesWeight_le_add bounded (fun _ => Heap.namesWeight_le_extent) nodup
    fun name member => ?_
  obtain ⟨type, -, extended⟩ := all name member
  exact of_extends_pool coherent extended

end Workspace

end ClassLattice
