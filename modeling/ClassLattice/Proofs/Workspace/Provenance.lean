import ClassLattice.Proofs.Workspace.Steps

/-!
# Where the names on a node come from

The shape of a node is that of its pinned name, that which its name lays out, or one that a reader
answered when the node was made.  Its edges keep the names that were declared there: an edge is by
name until it is resolved, and then it leads to nodes of all of its names.
-/

set_option autoImplicit false

namespace ClassLattice

/-- The shapes that a name can have been given by a registry, by its layout or by some readers. -/
inductive Registry.Declares (registry : Registry) (readers : Reader → Prop) :
    String → Shape String → Prop
  | pinned {name : String} {shape : Shape String} (h : registry.shape? name = some shape) :
      Declares registry readers name shape
  | array {name element : String} (free : registry.shape? name = none)
      (h : layout name = .ok (some element)) : Declares registry readers name (.array element)
  | answered {name : String} {metadata : TypeMetadata} {reader : Reader}
      (free : registry.shape? name = none) (plain : layout name = .ok none)
      (asked : readers reader) (answer : reader.read name = .ok metadata) :
      Declares registry readers name (.declared metadata.declaration)

/-- A link is still by name, or it leads to nodes of all the names that it was declared with. -/
inductive Link.Whole {ν τ : Type} (lead : τ → ν → Prop) : Link ν τ → Prop
  | pending (names : ν) : Whole lead (.pending names)
  | resolved {names : ν} {targets : τ} (h : lead targets names) :
      Whole lead (.resolved names targets)

/-- A node has a shape that its name was given, and its edges are whole. -/
structure Heap.Whole (registry : Registry) (readers : Reader → Prop) (heap : Heap) (node : Node) :
    Prop where
  declared : ∃ shape, registry.Declares readers node.name shape ∧ heap.Shows node shape
  superclass : ∀ link, node.superLink? = some link → link.Whole heap.Names
  interfaces : ∀ link, node.interfaceLink? = some link → link.Whole (List.Forall₂ heap.Names)

namespace Workspace

variable {registry : Registry} {reader : Reader} {readers : Reader → Prop}
  {old new workspace : Workspace} {id : NodeId} {node : Node}

/-- Every class or interface that is not pinned was made from what one of some readers answered. -/
def StemsFrom (registry : Registry) (readers : Reader → Prop) (workspace : Workspace) : Prop :=
  ∀ id node, workspace.heap.get? id = some node → registry.shape? node.name = none →
    layout node.name = .ok none → ∃ reader metadata, readers reader ∧
      reader.read node.name = .ok metadata ∧ node.outline = .declared metadata.declaration

/-- In a new workspace there is nothing that had to be read. -/
theorem stemsFrom_create (capacity : Nat) (registry : Registry) (readers : Reader → Prop) :
    (create capacity registry).StemsFrom registry readers := by
  intro id node found free
  obtain ⟨⟨shape, pinned, -⟩, -⟩ := shape_of_create found
  rw [pinned] at free
  cases free

/-- **The steps of an operation make nodes only from what its reader answers.** -/
theorem StemsFrom.steps (stems : old.StemsFrom registry readers) (asked : readers reader)
    (h : Steps registry reader old new) : new.StemsFrom registry readers := by
  intro id node found free plain
  rcases h.origin found with ⟨before, here, advances⟩ | ⟨made, advances, -, -, heap, makes⟩
  · have same := advances.name_eq
    rw [same] at free plain ⊢
    obtain ⟨reader, metadata, asked, answer, outline⟩ := stems id before here free plain
    exact ⟨reader, metadata, asked, answer, advances.outline_eq.trans outline⟩
  · have same := advances.name_eq
    rw [same] at plain ⊢
    cases makes with
    | array laid => exact absurd (laid.symm.trans plain) (by simp)
    | @declared name metadata _ answer =>
      refine ⟨reader, metadata, asked, answer, ?_⟩
      rw [advances.outline_eq]
      exact Heap.Makes.outline_ofMetadata name metadata

/-- **A node in use is whole.** -/
theorem Coherent.whole (coherent : workspace.Coherent registry)
    (stems : workspace.StemsFrom registry readers) (found : workspace.heap.get? id = some node) :
    Heap.Whole registry readers workspace.heap node where
  declared := by
    obtain ⟨shape, shows, allowed⟩ := coherent.shapes id node found
    generalize same : node.name = name at allowed
    cases allowed with
    | pinned pinned => exact ⟨shape, .pinned pinned, shows⟩
    | array free laid => exact ⟨_, .array free laid, shows⟩
    | declared free plain ordinary =>
      subst same
      obtain ⟨reader, metadata, asked, answer, outline⟩ := stems id node found free plain
      refine ⟨_, .answered free plain asked answer, ?_⟩
      rw [Heap.Shows, outline]
      exact .declared _
  superclass := by
    intro link resolved
    cases link with
    | pending name => exact .pending name
    | resolved name target =>
      exact .resolved (coherent.superLinks id node found name target resolved)
  interfaces := by
    intro link resolved
    cases link with
    | pending names => exact .pending names
    | resolved names targets =>
      exact .resolved (coherent.interfaceLinks id node found names targets resolved)

end Workspace

end ClassLattice
