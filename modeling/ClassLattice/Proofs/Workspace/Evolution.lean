import ClassLattice.Proofs.Workspace.Persistence

/-!
# How look-ups change a workspace

All that looking up types and resolving edges does to a workspace is a sequence of a few moves:
using a listed node, asking the reader, listing a node that was made, and resolving an edge.  What
every move keeps, every look-up keeps: coherence, what is anchored, and any property of nodes that
new nodes have and that resolving edges does not take away.
-/

set_option autoImplicit false

namespace ClassLattice

/-- What a look-up may touch: the names for which nodes may be made, and the nodes whose edges may
be resolved. -/
structure Scope where
  names : String → Prop
  superclasses : NodeId → Prop
  interfaces : NodeId → Prop

namespace Scope

/-- A scope lies within another. -/
structure Within (inner outer : Scope) : Prop where
  names : ∀ name, inner.names name → outer.names name
  superclasses : ∀ id, inner.superclasses id → outer.superclasses id
  interfaces : ∀ id, inner.interfaces id → outer.interfaces id

/-- The scope of the look-up of a name. -/
def ofName (name : String) : Scope := ⟨Inside name, fun _ => False, fun _ => False⟩

/-- The scope that does not restrict anything. -/
def everything : Scope := ⟨fun _ => True, fun _ => True, fun _ => True⟩

/-- All that look-ups can do is allowed. -/
theorem within_everything (scope : Scope) : scope.Within everything :=
  ⟨fun _ _ => trivial, fun _ _ => trivial, fun _ _ => trivial⟩

end Scope

/-- A node is made for a name: around the node of its element, or from what a reader answers. -/
inductive Heap.Makes (heap : Heap) (reader : Reader) : Node → Prop
  | array {name inner : String} {element : NodeId} (laid : layout name = .ok (some inner))
      (named : heap.Names element inner) : Makes heap reader (Node.ofArray name element)
  | declared {name : String} {metadata : TypeMetadata} (plain : layout name = .ok none)
      (answer : reader.read name = .ok metadata) : Makes heap reader (Node.ofMetadata name metadata)

namespace Workspace

variable {registry : Registry} {reader : Reader} {scope : Scope} {old new : Workspace}

/-- One move of a look-up. -/
inductive Move (registry : Registry) (reader : Reader) (scope : Scope) :
    Workspace → Workspace → Prop
  | touch {workspace : Workspace} {id : NodeId} {node : Node}
      (found : workspace.heap.get? id = some node) (free : registry.shape? node.name = none) :
      Move registry reader scope workspace ((workspace.noteUse node.name).touch id)
  | read {workspace : Workspace} {name : String} (allowed : scope.names name)
      (free : registry.shape? name = none) (plain : layout name = .ok none)
      (unused : ∀ id, ¬ workspace.heap.Names id name) :
      Move registry reader scope workspace { workspace with reads := workspace.reads.push name }
  | publish {workspace : Workspace} {node : Node} (allowed : scope.names node.name)
      (free : registry.shape? node.name = none)
      (unused : ∀ id, ¬ workspace.heap.Names id node.name)
      (makes : workspace.heap.Makes reader node) :
      Move registry reader scope workspace (workspace.publish node).2
  | resolveSuperclass {workspace : Workspace} {id target : NodeId} {node : Node} {name : String}
      (allowed : scope.superclasses id) (found : workspace.heap.get? id = some node)
      (pending : node.superLink? = some (.pending name))
      (named : workspace.heap.Names target name) :
      Move registry reader scope workspace
        { workspace with heap := workspace.heap.modify id (·.resolveSuperclass target) }
  | resolveInterfaces {workspace : Workspace} {id : NodeId} {targets : List NodeId} {node : Node}
      {names : List String} (allowed : scope.interfaces id)
      (found : workspace.heap.get? id = some node)
      (pending : node.interfaceLink? = some (.pending names))
      (named : List.Forall₂ workspace.heap.Names targets names) :
      Move registry reader scope workspace
        { workspace with heap := workspace.heap.modify id (·.resolveInterfaces targets) }

/-- Moves one after the other, some of them made while a node is held. -/
inductive Evolves (move : Workspace → Workspace → Prop) : Workspace → Workspace → Prop
  | refl (workspace : Workspace) : Evolves move workspace workspace
  | move {old new : Workspace} (h : move old new) : Evolves move old new
  | trans {old between new : Workspace} (first : Evolves move old between)
      (second : Evolves move between new) : Evolves move old new
  | holding {old new : Workspace} {id : NodeId} {node : Node}
      (found : old.heap.get? id = some node) (h : Evolves move (old.hold id) new) :
      Evolves move old (new.letGo id)

/-- The changes that look-ups within a scope make. -/
abbrev LooksUp (registry : Registry) (reader : Reader) (scope : Scope) :
    Workspace → Workspace → Prop := Evolves (Move registry reader scope)

/-- Moves may be told in weaker words. -/
theorem Evolves.mono {move other : Workspace → Workspace → Prop} (h : Evolves move old new)
    (imp : ∀ old new, move old new → other old new) : Evolves other old new := by
  induction h with
  | refl workspace => exact .refl workspace
  | move h => exact .move (imp _ _ h)
  | trans _ _ first second => exact first.trans second
  | holding found _ ih => exact .holding found ih

/-- A move is one of a wider scope. -/
theorem Move.widen {wider : Scope} (within : scope.Within wider)
    (h : Move registry reader scope old new) : Move registry reader wider old new := by
  cases h with
  | touch found free => exact .touch found free
  | read allowed free plain unused => exact .read (within.names _ allowed) free plain unused
  | publish allowed free unused makes =>
    exact .publish (within.names _ allowed) free unused makes
  | resolveSuperclass allowed found pending named =>
    exact .resolveSuperclass (within.superclasses _ allowed) found pending named
  | resolveInterfaces allowed found pending named =>
    exact .resolveInterfaces (within.interfaces _ allowed) found pending named

/-- Look-ups are some of a wider scope. -/
theorem LooksUp.widen {wider : Scope} (within : scope.Within wider)
    (h : LooksUp registry reader scope old new) : LooksUp registry reader wider old new :=
  h.mono fun _ _ => Move.widen within

/-! ## Made nodes -/

end Workspace

namespace Heap.Makes

variable {heap : Heap} {registry : Registry} {reader : Reader} {node : Node}

/-- A node that is made has no edge resolved. -/
theorem isNew (makes : heap.Makes reader node) : Workspace.IsNew node := by
  cases makes with
  | array laid named =>
    exact ⟨fun _ _ link => (Option.some_ne_none _ link.symm).elim,
      fun _ _ link => (Option.some_ne_none _ link.symm).elim⟩
  | @declared name metadata plain answer =>
    refine ⟨fun parent target link => ?_, fun names targets link => ?_⟩
    · have declared : (Node.ofMetadata name metadata).superLink? =
          metadata.superName.map .pending := rfl
      rw [declared] at link
      obtain ⟨declaredName, given, pending⟩ := Option.map_eq_some_iff.1 link
      cases pending
    · have declared : (Node.ofMetadata name metadata).interfaceLink? =
          some (if metadata.interfaceNames.isEmpty then .resolved [] []
            else .pending metadata.interfaceNames) := rfl
      rw [declared] at link
      split at link
      · cases link
        exact ⟨rfl, rfl⟩
      · cases link

/-- A node that was read declares what its metadata say. -/
theorem outline_ofMetadata (name : String) (metadata : TypeMetadata) :
    (Node.ofMetadata name metadata).outline = .declared metadata.declaration := by
  obtain ⟨className, superName, interfaceNames, isInterface⟩ := metadata
  simp only [Node.outline, Node.ofMetadata, Supertypes.declaration, Supertypes.declare,
    TypeMetadata.declaration, Bool.false_or, Option.map_map]
  congr 2
  · cases superName <;> rfl
  · cases interfaceNames <;> rfl

/-- A node that is made shows a shape that its name allows. -/
theorem shape (makes : heap.Makes reader node) (free : registry.shape? node.name = none) :
    ∃ shape, heap.Shows node shape ∧ registry.Allows node.name shape := by
  cases makes with
  | @array name inner element laid named =>
    exact ⟨.array inner, Shape.Matches.array named, .array free laid⟩
  | @declared name metadata plain answer =>
    refine ⟨.declared metadata.declaration, ?_, .declared free plain rfl⟩
    rw [Heap.Shows, outline_ofMetadata]
    exact .declared _

end Heap.Makes

namespace Workspace

variable {registry : Registry} {reader : Reader} {scope : Scope} {old new : Workspace}

/-! ## What every move keeps -/

/-- A name that is not in use is that of no node. -/
theorem unlisted_of_unused {workspace : Workspace} {name : String}
    (unused : ∀ id, ¬ workspace.heap.Names id name) (id : NodeId) (other : Node)
    (found : workspace.heap.get? id = some other) : other.name ≠ name :=
  fun same => unused id ⟨other, found, same⟩

/-- **A move keeps a workspace coherent.** -/
theorem Move.coherent (h : Move registry reader scope old new) (coherent : old.Coherent registry) :
    new.Coherent registry := by
  cases h with
  | touch found => exact (coherent.noteUse _).touch found
  | read => exact { coherent with }
  | publish allowed free unused makes =>
    exact coherent.publish free (unlisted_of_unused unused) (makes.shape free) makes.isNew
  | resolveSuperclass allowed found pending named =>
    exact coherent.resolveSuperclass found pending named
  | resolveInterfaces allowed found pending named =>
    exact coherent.resolveInterfaces found pending named

/-- **A move keeps all that is anchored.** -/
theorem Move.persists (h : Move registry reader scope old new) (coherent : old.Coherent registry) :
    Persists old new := by
  cases h with
  | touch found => exact (persists_noteUse _).trans ((coherent.noteUse _).persists_touch found)
  | read => exact .of_advances rfl rfl rfl fun _ node found => ⟨node, found, .refl node⟩
  | publish allowed free unused makes =>
    exact coherent.persists_publish free (unlisted_of_unused unused) (makes.shape free) makes.isNew
  | resolveSuperclass => exact persists_modify fun node => (Node.Advances.refl node).superclass _
  | resolveInterfaces => exact persists_modify fun node => (Node.Advances.refl node).interfaces _

/-- **Moves that keep workspaces coherent and lets anchored nodes persist do so together.** -/
theorem Evolves.coherent_persists {move : Workspace → Workspace → Prop}
    (step : ∀ old new, move old new → old.Coherent registry →
      new.Coherent registry ∧ Persists old new)
    (h : Evolves move old new) (coherent : old.Coherent registry) :
    new.Coherent registry ∧ Persists old new := by
  induction h with
  | refl workspace => exact ⟨coherent, .refl workspace⟩
  | move h => exact step _ _ h coherent
  | trans _ _ first second =>
    obtain ⟨between, persists⟩ := first coherent
    obtain ⟨after, persists'⟩ := second between
    exact ⟨after, persists.trans persists'⟩
  | holding found _ ih =>
    obtain ⟨after, persists⟩ := ih (coherent.hold found)
    exact ⟨after.letGo, after.persists_letGo persists⟩

/-- Look-ups keep a workspace coherent. -/
theorem LooksUp.coherent (h : LooksUp registry reader scope old new)
    (coherent : old.Coherent registry) : new.Coherent registry :=
  (h.coherent_persists (fun _ _ h coherent => ⟨h.coherent coherent, h.persists coherent⟩)
    coherent).1

/-- Look-ups keep all that is anchored. -/
theorem LooksUp.persists (h : LooksUp registry reader scope old new)
    (coherent : old.Coherent registry) : Persists old new :=
  (h.coherent_persists (fun _ _ h coherent => ⟨h.coherent coherent, h.persists coherent⟩)
    coherent).2

/-- A node that is listed takes one cell. -/
theorem publish_size (workspace : Workspace) (node : Node) :
    (workspace.publish node).2.heap.cells.size = workspace.heap.cells.size + 1 := by
  show (Heap.reclaim _ _ _).cells.size = _
  rw [Heap.size_reclaim]
  exact Heap.size_allocate

/-- Identities are never given out twice. -/
theorem Move.size_le (h : Move registry reader scope old new) :
    old.heap.cells.size ≤ new.heap.cells.size := by
  cases h with
  | touch => exact Nat.le_of_eq Heap.size_reclaim.symm
  | read => exact Nat.le_refl _
  | publish => exact Nat.le_of_lt (Nat.lt_of_lt_of_eq (Nat.lt_succ_self _) (publish_size _ _).symm)
  | resolveSuperclass => exact Nat.le_of_eq Heap.size_modify.symm
  | resolveInterfaces => exact Nat.le_of_eq Heap.size_modify.symm

/-- Look-ups give no cell back. -/
theorem LooksUp.size_le (h : LooksUp registry reader scope old new) :
    old.heap.cells.size ≤ new.heap.cells.size := by
  induction h with
  | refl => exact Nat.le_refl _
  | move h => exact h.size_le
  | trans _ _ first second => exact Nat.le_trans first second
  | holding _ _ ih => exact Nat.le_trans ih (Nat.le_of_eq Heap.size_reclaim.symm)

/-- A property of nodes that new nodes have and that resolving edges within a scope keeps.  The
identities of new nodes are not below a given bound. -/
structure Scope.Keeps (registry : Registry) (reader : Reader) (scope : Scope) (bound : Nat)
    (P : NodeId → Node → Prop) : Prop where
  made : ∀ heap id node, bound ≤ id.index → scope.names node.name →
    registry.shape? node.name = none → Heap.Makes heap reader node → P id node
  superclass : ∀ id node target, scope.superclasses id → P id node →
    P id (node.resolveSuperclass target)
  interfaces : ∀ id node targets, scope.interfaces id → P id node →
    P id (node.resolveInterfaces targets)

/-- **What new nodes have and resolving keeps, all nodes keep.** -/
theorem LooksUp.all_nodes {bound : Nat} {P : NodeId → Node → Prop}
    (h : LooksUp registry reader scope old new)
    (keeps : Scope.Keeps registry reader scope bound P) (used : bound ≤ old.heap.cells.size)
    (all : ∀ id node, old.heap.get? id = some node → P id node) :
    ∀ id node, new.heap.get? id = some node → P id node := by
  induction h with
  | refl => exact all
  | trans first _ ih ih' => exact ih' (Nat.le_trans used (LooksUp.size_le first)) (ih used all)
  | holding _ _ ih =>
    exact fun id node found => ih used all id node (Heap.get?_of_get?_reclaim found)
  | @move old new h =>
    intro id node found
    cases h with
    | touch => exact all id node (Heap.get?_of_get?_reclaim found)
    | read => exact all id node found
    | publish allowed free _ makes =>
      rcases get?_of_get?_publish found with ⟨rfl, rfl⟩ | before
      · exact keeps.made _ _ node used allowed free makes
      · exact all id node before
    | resolveSuperclass allowed =>
      rw [Heap.get?_modify] at found
      split at found
      · rename_i same
        obtain ⟨before, here, rfl⟩ := Option.map_eq_some_iff.1 found
        exact same ▸ keeps.superclass _ before _ allowed (all _ before here)
      · exact all id node found
    | resolveInterfaces allowed =>
      rw [Heap.get?_modify] at found
      split at found
      · rename_i same
        obtain ⟨before, here, rfl⟩ := Option.map_eq_some_iff.1 found
        exact same ▸ keeps.interfaces _ before _ allowed (all _ before here)
      · exact all id node found

/-- A node that lies outside the scope is left as it is for as long as it is in use. -/
theorem LooksUp.unchanged {id : NodeId} {node later : Node}
    (h : LooksUp registry reader scope old new) (used : id.index < old.heap.cells.size)
    (same : ∀ before, old.heap.get? id = some before → before = node)
    (superclass : ¬ scope.superclasses id) (interfaces : ¬ scope.interfaces id)
    (found : new.heap.get? id = some later) : later = node := by
  have keeps : Scope.Keeps registry reader scope (id.index + 1)
      fun other node' => other = id → node' = node := by
    refine ⟨fun heap other node' above _ _ _ same => ?_, fun other _ _ allowed _ same => ?_,
      fun other _ _ allowed _ same => ?_⟩
    · subst same
      omega
    · exact absurd (same ▸ allowed) superclass
    · exact absurd (same ▸ allowed) interfaces
  refine h.all_nodes keeps used (fun other node' here at_id => ?_) id later found rfl
  subst at_id
  exact same node' here

/-- **An anchored node that lies outside the scope stays as it is.** -/
theorem LooksUp.get?_of_anchored {id : NodeId} {node : Node}
    (h : LooksUp registry reader scope old new) (coherent : old.Coherent registry)
    (anchored : old.Anchored id) (superclass : ¬ scope.superclasses id)
    (interfaces : ¬ scope.interfaces id) (found : old.heap.get? id = some node) :
    new.heap.get? id = some node := by
  obtain ⟨later, found', -⟩ := (h.persists coherent).get? anchored found
  obtain rfl := h.unchanged (Heap.index_lt_of_get? found)
    (fun _ here => Option.some.inj (here.symm.trans found)) superclass interfaces found'
  exact found'

end Workspace

end ClassLattice
