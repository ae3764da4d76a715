import ClassLattice.Proofs.Query.Edges

/-!
# Workspaces that tell what a universe says

A reader speaks within a universe if whatever it answers is what the universe says, and it serves
the universe if it answers for every name that has metadata there.  A coherent workspace that was
filled by readers within a universe is faithful to it: every node in use has the shape that the
universe gives its name.
-/

set_option autoImplicit false

namespace ClassLattice

/-- A reader answers only what a universe says; it may fail for any name. -/
def Reader.Within (reader : Reader) (world : Universe) : Prop :=
  ∀ name metadata, reader.read name = .ok metadata → world.metadata? name = some metadata

/-- A reader answers for every name that has metadata in a universe. -/
def Reader.Serves (reader : Reader) (world : Universe) : Prop :=
  ∀ name metadata, world.metadata? name = some metadata → reader.read name = .ok metadata

/-- A reader answers for those of some names that have metadata in a universe. -/
def Reader.ServesOver (reader : Reader) (world : Universe) (types : String → Prop) : Prop :=
  ∀ name metadata, types name → world.registry.shape? name = none → layout name = .ok none →
    world.metadata? name = some metadata → reader.read name = .ok metadata

/-- The universe of all that a reader answers. -/
def Universe.ofReader (registry : Registry) (reader : Reader) : Universe :=
  ⟨registry, fun name => (reader.read name).toOption⟩

/-- A reader is within the universe that is made of its answers. -/
theorem Universe.within_ofReader (registry : Registry) (reader : Reader) :
    reader.Within (ofReader registry reader) := by
  intro name metadata answer
  show (reader.read name).toOption = some metadata
  rw [answer]
  rfl

/-- A node was made from what a universe says. -/
def Universe.Tells (world : Universe) (node : Node) : Prop :=
  world.registry.shape? node.name = none → layout node.name = .ok none →
    ∃ metadata, world.metadata? node.name = some metadata ∧
      node.outline = .declared metadata.declaration

/-- A reader that serves a universe fails only for names that cannot be looked up there. -/
theorem Reader.Serves.not_resolves {reader : Reader} {world : Universe}
    (serves : reader.Serves world) {name : String} {error : HierarchyError}
    (fails : reader.Fails world.registry name error) :
    world.resolves name = false := by
  rw [← Bool.not_eq_true]
  intro resolves
  induction fails with
  | malformed free laid =>
    obtain ⟨shape, found⟩ := Universe.exists_shape_of_resolves resolves
    simp [Universe.shape?, free, laid] at found
  | unread free plain failed =>
    obtain ⟨shape, found⟩ := Universe.exists_shape_of_resolves resolves
    rw [Universe.shape?, free, plain] at found
    obtain ⟨metadata, told, -⟩ := Option.map_eq_some_iff.1 found
    rw [serves _ metadata told] at failed
    cases failed
  | element free laid below ih =>
    exact ih (Universe.resolves_array (Universe.shape?_array_iff.2 ⟨free, laid⟩) ▸ resolves)

/-- Where the reader serves the universe, names for one of which it fails do not all resolve. -/
theorem Reader.Serves.not_all_resolve {reader : Reader} {world : Universe}
    (serves : reader.Serves world) {name : String} {names : List String} {error : HierarchyError}
    (fails : reader.Fails world.registry name error) (listed : name ∈ names) :
    ¬ names.all world.resolves = true := by
  intro resolve
  have resolves := List.all_eq_true.1 resolve name listed
  rw [serves.not_resolves fails] at resolves
  cases resolves

namespace Workspace

variable {world : Universe} {reader : Reader} {scope : Scope} {old new workspace : Workspace}
  {id : NodeId} {node : Node} {name : String}

/-- A coherent workspace of which every node was made from what a universe says. -/
structure Faithful (world : Universe) (workspace : Workspace) : Prop where
  coherent : workspace.Coherent world.registry
  told : ∀ id node, workspace.heap.get? id = some node → world.Tells node

/-- **A node in use has the shape of its name.** -/
theorem Faithful.shape (faithful : workspace.Faithful world)
    (found : workspace.heap.get? id = some node) :
    ∃ shape, world.shape? node.name = some shape ∧ workspace.heap.Shows node shape := by
  obtain ⟨shape, shows, allowed⟩ := faithful.coherent.shapes id node found
  generalize same : node.name = name at allowed
  cases allowed with
  | pinned pinned => exact ⟨shape, Universe.shape?_of_pinned pinned, shows⟩
  | array free laid => exact ⟨_, Universe.shape?_array_iff.2 ⟨free, laid⟩, shows⟩
  | declared free plain ordinary =>
    subst same
    obtain ⟨metadata, told, outline⟩ := faithful.told id node found free plain
    refine ⟨.declared metadata.declaration, by simp [Universe.shape?, free, plain, told], ?_⟩
    rw [Heap.Shows, outline]
    exact .declared _

/-- A node shows the shape of its name. -/
theorem Faithful.shows (faithful : workspace.Faithful world) {shape : Shape String}
    (found : workspace.heap.get? id = some node) (shape? : world.shape? node.name = some shape) :
    workspace.heap.Shows node shape := by
  obtain ⟨shape', same, shows⟩ := faithful.shape found
  rwa [← Option.some.inj (same.symm.trans shape?)]

/-- A node has the outline that the declaration of its name has. -/
theorem Faithful.outline (faithful : workspace.Faithful world) {declaration : Declaration}
    (found : workspace.heap.get? id = some node)
    (shape? : world.shape? node.name = some (.declared declaration)) :
    node.outline = .declared declaration :=
  (faithful.shows found shape?).eq_declared

/-- A node is that of an interface if its name is. -/
theorem Faithful.isInterface_eq (faithful : workspace.Faithful world)
    (found : workspace.heap.get? id = some node) :
    world.isInterface node.name = node.isInterface := by
  obtain ⟨shape, shape?, shows⟩ := faithful.shape found
  rw [Heap.Shows] at shows
  rw [Universe.isInterface, shape?, Node.isInterface_eq_outline]
  generalize node.outline = outline at shows
  cases shows <;> rfl

/-- The names of nodes in use resolve. -/
theorem Faithful.resolves (faithful : workspace.Faithful world)
    (named : workspace.heap.Names id name) : world.resolves name = true := by
  induction same : layers name using Nat.strongRecOn generalizing id name with
  | _ depth ih =>
    obtain ⟨node, found, rfl⟩ := named
    obtain ⟨shape, shape?, shows⟩ := faithful.shape found
    cases shape with
    | array element =>
      have deeper := layers_of_layout (Universe.shape?_array_iff.1 shape?).2
      rw [Universe.resolves_array shape?]
      rw [Heap.Shows] at shows
      generalize node.outline = outline at shows
      cases shows with
      | array inner => exact ih (layers element) (by omega) inner rfl
    | _ => exact Universe.resolves_of_flat shape? rfl

/-- The names of anchored nodes resolve. -/
theorem Faithful.all_resolve (faithful : workspace.Faithful world) {ids : List NodeId}
    {names : List String} (has : List.Forall₂ workspace.Has ids names) :
    names.all world.resolves = true := by
  rw [List.all_eq_true]
  intro name member
  obtain ⟨id, -, named⟩ := has.exists_left member
  exact faithful.resolves named.1

/-- Looking up names with a reader within the universe keeps a workspace faithful. -/
theorem LooksUp.faithful (h : LooksUp world.registry reader scope old new)
    (within : reader.Within world) (faithful : old.Faithful world) : new.Faithful world := by
  have keeps : Scope.Keeps world.registry reader scope 0 fun _ node => world.Tells node := by
    refine ⟨fun heap id node _ _ _ makes => ?_, fun _ node target _ tells => ?_,
      fun _ node targets _ tells => ?_⟩
    · cases makes with
      | array laid named => exact fun _ plain => absurd (laid.symm.trans plain) (by simp)
      | @declared name metadata plain answer =>
        exact fun _ _ => ⟨metadata, within _ _ answer, Heap.Makes.outline_ofMetadata _ _⟩
    · simpa [Universe.Tells] using tells
    · simpa [Universe.Tells] using tells
  exact ⟨h.coherent faithful.coherent, h.all_nodes keeps (Nat.zero_le _) faithful.told⟩

end Workspace

end ClassLattice
