import ClassLattice.Proofs.Shape

/-!
# What a node keeps while its edges are resolved

The outline of a node is its shape with its edges by name, whether they are resolved or not.  While
a node is in use its edges go from pending to resolved and nothing else about it changes, so its
name and its outline stay and what it refers to only grows.
-/

set_option autoImplicit false

namespace ClassLattice

/-- What the supertypes of a node declare. -/
def Supertypes.declaration (isMarker : Bool) (supertypes : Supertypes) : Declaration where
  isMarker := isMarker
  isInterface := isMarker || supertypes.isInterface
  superName := supertypes.superclass.map Link.names
  interfaceNames := supertypes.interfaces.names

/-- What may become of a link: it stays as it is, or it is resolved under the same names. -/
inductive Link.Settles {ν τ : Type} : Link ν τ → Link ν τ → Prop
  | refl (link : Link ν τ) : Settles link link
  | resolves (names : ν) (targets : τ) : Settles (.pending names) (.resolved names targets)

namespace Link

variable {ν τ : Type} {names : ν} {targets : τ}

/-- A resolved link keeps its names. -/
@[simp] theorem names_resolve (link : Link ν τ) (targets : τ) :
    (link.resolve targets).names = link.names := by
  cases link <;> rfl

/-- To resolve a link settles it. -/
theorem settles_resolve (link : Link ν τ) (targets : τ) : link.Settles (link.resolve targets) := by
  cases link with
  | pending names => exact .resolves names targets
  | resolved names old => exact .refl _

/-- What settles in two steps settles. -/
theorem Settles.trans {old new last : Link ν τ} (h : old.Settles new) (h' : new.Settles last) :
    old.Settles last := by
  cases h with
  | refl => exact h'
  | resolves names targets =>
    cases h'
    exact .resolves names targets

/-- A link that may be missing is there still, and has settled. -/
abbrev Stays : Option (Link ν τ) → Option (Link ν τ) → Prop := Option.Rel Settles

namespace Stays

variable {old new : Option (Link ν τ)}

/-- A link that is left alone stays. -/
theorem refl (link : Option (Link ν τ)) : Stays link link := by
  cases link with
  | none => exact .none
  | some link => exact .some (.refl link)

/-- A link that stayed stays if it is resolved. -/
theorem resolve (h : Stays old new) (targets : τ) : Stays old (new.map (·.resolve targets)) := by
  cases h with
  | none => exact .none
  | some h => exact .some (h.trans (settles_resolve _ targets))

/-- A link that is not pending stays the same. -/
theorem eq_of_isResolved (h : Stays old new)
    (resolved : ∀ link, old = some link → link.isResolved = true) : new = old := by
  cases h with
  | none => rfl
  | some h =>
    cases h with
    | refl => rfl
    | resolves names targets => cases resolved _ rfl

/-- **A resolved link stays as it is**, with the same targets. -/
theorem of_resolved (h : Stays old new) (resolved : old = some (.resolved names targets)) :
    new = some (.resolved names targets) := by
  refine (h.eq_of_isResolved fun link here => ?_).trans resolved
  exact Option.some.inj (resolved.symm.trans here) ▸ rfl

/-- A link that is pending was pending before. -/
theorem of_pending (h : Stays old new) (pending : new = some (.pending names)) :
    old = some (.pending names) := by
  cases h with
  | none => exact pending
  | some h =>
    cases h with
    | refl => exact pending
    | resolves => cases pending

end Stays

end Link

namespace Node

variable {node old new : Node} {target : NodeId} {targets : List NodeId}

/-- The shape of a node with its edges by name. -/
def outline (node : Node) : Shape NodeId :=
  match node.kind with
  | .root => .root
  | .primitive base => .primitive base
  | .array element => .array element
  | .declared supertypes => .declared (supertypes.declaration false)
  | .special supertypes => .declared (supertypes.declaration true)

/-- Whether a node is that of an interface can be told from its outline. -/
theorem isInterface_eq_outline : node.isInterface = node.outline.isInterface := by
  obtain ⟨name, kind⟩ := node
  cases kind <;> rfl

/-- Whether a node is that of a primitive type can be told from its outline. -/
theorem isPrimitive_eq_outline : node.isPrimitive = node.outline.isPrimitive := by
  obtain ⟨name, kind⟩ := node
  cases kind <;> rfl

/-- The element of an array can be told from the outline of its node. -/
theorem element?_eq_outline : node.element? = node.outline.element? := by
  obtain ⟨name, kind⟩ := node
  cases kind <;> rfl

/-- The node of a primitive type is known by its outline and its name. -/
theorem eq_ofPrimitive {base : BaseType} (outline : node.outline = .primitive base)
    (named : node.name = base.name) : node = .ofPrimitive base := by
  obtain ⟨name, kind⟩ := node
  cases kind with
  | primitive other =>
    obtain rfl := Shape.primitive.inj outline
    rw [ofPrimitive, ← named]
  | _ => cases outline

/-! ## Resolving edges -/

/-- A change of the edges keeps the name. -/
@[simp] theorem name_mapSupertypes (change : Supertypes → Supertypes) :
    (node.mapSupertypes change).name = node.name := by
  obtain ⟨name, kind⟩ := node
  cases kind <;> rfl

/-- A resolved superclass keeps the name. -/
@[simp] theorem name_resolveSuperclass : (node.resolveSuperclass target).name = node.name :=
  name_mapSupertypes _

/-- Resolved interfaces keep the name. -/
@[simp] theorem name_resolveInterfaces : (node.resolveInterfaces targets).name = node.name :=
  name_mapSupertypes _

/-- A change of the edges that keeps what they declare keeps the outline. -/
theorem outline_mapSupertypes {change : Supertypes → Supertypes}
    (keeps : ∀ supertypes isMarker,
      (change supertypes).declaration isMarker = supertypes.declaration isMarker) :
    (node.mapSupertypes change).outline = node.outline := by
  obtain ⟨name, kind⟩ := node
  cases kind with
  | declared supertypes => exact congrArg Shape.declared (keeps supertypes false)
  | special supertypes => exact congrArg Shape.declared (keeps supertypes true)
  | _ => rfl

/-- A resolved superclass keeps the outline. -/
@[simp] theorem outline_resolveSuperclass :
    (node.resolveSuperclass target).outline = node.outline := by
  refine outline_mapSupertypes fun supertypes isMarker => ?_
  simp only [Supertypes.declaration, Option.map_map]
  congr 2
  exact funext fun link => Link.names_resolve link target

/-- Resolved interfaces keep the outline. -/
@[simp] theorem outline_resolveInterfaces :
    (node.resolveInterfaces targets).outline = node.outline :=
  outline_mapSupertypes fun supertypes isMarker => by
    simp only [Supertypes.declaration, Link.names_resolve]

/-- The edge to the superclass. -/
def superLink? (node : Node) : Option (Link String NodeId) :=
  node.supertypes?.bind Supertypes.superclass

/-- The edges to the interfaces. -/
def interfaceLink? (node : Node) : Option (Link (List String) (List NodeId)) :=
  node.supertypes?.map Supertypes.interfaces

/-- A node that declares something has edges. -/
theorem exists_supertypes {declaration : Declaration}
    (declared : node.outline = .declared declaration) :
    ∃ supertypes, node.supertypes? = some supertypes := by
  obtain ⟨name, kind⟩ := node
  cases kind with
  | declared supertypes => exact ⟨supertypes, rfl⟩
  | special supertypes => exact ⟨supertypes, rfl⟩
  | _ => cases declared

/-- The nodes at the end of resolved edges to the interfaces. -/
def interfaceTargets? (node : Node) : Option (List NodeId) :=
  node.interfaceLink?.bind Link.targets?

/-- The edges of a class or interface are there under the declared names, resolved or not. -/
theorem links_of_outline {declaration : Declaration}
    (declared : node.outline = .declared declaration) :
    node.superLink?.map Link.names = declaration.superName ∧
      node.interfaceLink?.map Link.names = some declaration.interfaceNames := by
  obtain ⟨name, kind⟩ := node
  cases kind with
  | declared supertypes => exact Shape.declared.inj declared ▸ ⟨rfl, rfl⟩
  | special supertypes => exact Shape.declared.inj declared ▸ ⟨rfl, rfl⟩
  | _ => cases declared

/-- The interfaces count as resolved if their link is resolved or there is none. -/
theorem areInterfacesResolved_iff : node.areInterfacesResolved = true ↔
    ∀ link, node.interfaceLink? = some link → link.isResolved = true := by
  rw [areInterfacesResolved, interfaceLink?]
  cases node.supertypes? <;> simp

/-- To resolve the superclass resolves its link. -/
@[simp] theorem superLink?_resolveSuperclass :
    (node.resolveSuperclass target).superLink? = node.superLink?.map (·.resolve target) := by
  obtain ⟨name, kind⟩ := node
  cases kind <;> rfl

/-- To resolve the superclass leaves the link of the interfaces alone. -/
@[simp] theorem interfaceLink?_resolveSuperclass :
    (node.resolveSuperclass target).interfaceLink? = node.interfaceLink? := by
  obtain ⟨name, kind⟩ := node
  cases kind <;> rfl

/-- To resolve the interfaces leaves the link of the superclass alone. -/
@[simp] theorem superLink?_resolveInterfaces :
    (node.resolveInterfaces targets).superLink? = node.superLink? := by
  obtain ⟨name, kind⟩ := node
  cases kind <;> rfl

/-- To resolve the interfaces resolves their link. -/
@[simp] theorem interfaceLink?_resolveInterfaces :
    (node.resolveInterfaces targets).interfaceLink? =
      node.interfaceLink?.map (·.resolve targets) := by
  obtain ⟨name, kind⟩ := node
  cases kind <;> rfl

/-- A node refers to its element, to the target of its edge to the superclass, and to those of its
edges to the interfaces. -/
theorem mem_references_iff :
    target ∈ node.references ↔
      node.element? = some target ∨ (∃ name, node.superLink? = some (.resolved name target)) ∨
        ∃ names targets, node.interfaceLink? = some (.resolved names targets) ∧
          target ∈ targets := by
  have declared (supertypes : Supertypes) : target ∈ supertypes.targets ↔
      (∃ name, supertypes.superclass = some (.resolved name target)) ∨
        ∃ names targets, supertypes.interfaces = .resolved names targets ∧ target ∈ targets := by
    obtain ⟨isInterface, parent, interfaces⟩ := supertypes
    rcases parent with - | ⟨- | -⟩ <;> rcases interfaces with - | - <;>
      simp [Supertypes.targets, Link.targets?, eq_comm, and_assoc]
  obtain ⟨name, kind⟩ := node
  cases kind with
  | declared supertypes =>
    simpa [references, element?, superLink?, interfaceLink?, supertypes?] using declared supertypes
  | special supertypes =>
    simpa [references, element?, superLink?, interfaceLink?, supertypes?] using declared supertypes
  | _ => simp [references, element?, superLink?, interfaceLink?, supertypes?, eq_comm]

/-- A node is the same as before but for edges that were resolved in between. -/
inductive Advances : Node → Node → Prop
  | refl (node : Node) : Advances node node
  | superclass {old new : Node} (h : Advances old new) (target : NodeId) :
      Advances old (new.resolveSuperclass target)
  | interfaces {old new : Node} (h : Advances old new) (targets : List NodeId) :
      Advances old (new.resolveInterfaces targets)

namespace Advances

/-- What advances in two steps advances. -/
theorem trans {last : Node} (h : Advances old new) (h' : Advances new last) :
    Advances old last := by
  induction h' with
  | refl => exact h
  | superclass _ target ih => exact ih.superclass target
  | interfaces _ targets ih => exact ih.interfaces targets

/-- A node that advances keeps its name. -/
theorem name_eq (h : Advances old new) : new.name = old.name := by
  induction h with
  | refl => rfl
  | superclass _ target ih => simpa using ih
  | interfaces _ targets ih => simpa using ih

/-- A node that advances keeps its outline. -/
theorem outline_eq (h : Advances old new) : new.outline = old.outline := by
  induction h with
  | refl => rfl
  | superclass _ target ih => simpa using ih
  | interfaces _ targets ih => simpa using ih

/-- **The edge to the superclass settles.** -/
theorem superLink?_stays (h : Advances old new) : Link.Stays old.superLink? new.superLink? := by
  induction h with
  | refl => exact .refl _
  | superclass _ target ih =>
    rw [superLink?_resolveSuperclass]
    exact ih.resolve target
  | interfaces _ targets ih => rwa [superLink?_resolveInterfaces]

/-- **The edges to the interfaces settle**, all of them together. -/
theorem interfaceLink?_stays (h : Advances old new) :
    Link.Stays old.interfaceLink? new.interfaceLink? := by
  induction h with
  | refl => exact .refl _
  | superclass _ target ih => rwa [interfaceLink?_resolveSuperclass]
  | interfaces _ targets ih =>
    rw [interfaceLink?_resolveInterfaces]
    exact ih.resolve targets

/-- **A node that advances loses no reference.** -/
theorem references_subset (h : Advances old new) : old.references ⊆ new.references := by
  intro target member
  rw [mem_references_iff] at member ⊢
  rcases member with element | ⟨name, parent⟩ | ⟨names, targets, interfaces, member⟩
  · left
    rw [element?_eq_outline, h.outline_eq, ← element?_eq_outline]
    exact element
  · exact .inr (.inl ⟨name, h.superLink?_stays.of_resolved parent⟩)
  · exact .inr (.inr ⟨names, targets, h.interfaceLink?_stays.of_resolved interfaces, member⟩)

end Advances

end Node

end ClassLattice
