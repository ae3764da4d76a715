import ClassLattice.Hierarchy.Lookup

/-!
# What a name stands for

The shape of a type is what a node shows of it once its edges are read as names: the root, a
primitive type, an array of an element, or a declared class or interface.  Pinned names have their
shape from the registry, a name that begins with `[` is laid out around the name of its element,
and any other name has the shape that its metadata declare.  A universe says which metadata that
may be.
-/

set_option autoImplicit false

namespace ClassLattice

/-- What a class or interface declares, with all supertypes by name. -/
structure Declaration where
  /-- Whether it is a registered marker. -/
  isMarker : Bool
  isInterface : Bool
  superName : Option String
  interfaceNames : List String
  deriving DecidableEq

namespace Declaration

/-- The names of the direct supertypes, the superclass first. -/
def superTypeNames (declaration : Declaration) : List String :=
  declaration.superName.toList ++ declaration.interfaceNames

/-- What the type adds to the strength of an interface by itself. -/
def ownStrength (declaration : Declaration) : Nat :=
  if declaration.isMarker then 0 else if declaration.isInterface then 1 else 0

end Declaration

/-- The declaration that metadata make. -/
def TypeMetadata.declaration (metadata : TypeMetadata) : Declaration where
  isMarker := false
  isInterface := metadata.isInterface
  superName := metadata.superName
  interfaceNames := metadata.interfaceNames

/-- The kinds of type, with the element of an array given as an `ε`. -/
inductive Shape (ε : Type) where
  | root
  | primitive (base : BaseType)
  | array (element : ε)
  | declared (declaration : Declaration)
  deriving DecidableEq

namespace Shape

variable {ε : Type}

/-- Whether the type is an interface. -/
def isInterface : Shape ε → Bool
  | declared declaration => declaration.isInterface
  | root | primitive _ | array _ => false

/-- Whether the type is primitive. -/
def isPrimitive : Shape ε → Bool
  | primitive _ => true
  | root | array _ | declared _ => false

/-- The element of an array. -/
def element? : Shape ε → Option ε
  | array element => some element
  | root | primitive _ | declared _ => none

/-- The name of the superclass.  Every array descends from the root. -/
def superName : Shape ε → Option String
  | array _ => some rootName
  | declared declaration => declaration.superName
  | root | primitive _ => none

/-- The names of the declared interfaces. -/
def interfaceNames : Shape ε → List String
  | declared declaration => declaration.interfaceNames
  | root | primitive _ | array _ => []

/-- Two shapes are the same but for the elements of arrays, which are related. -/
inductive Matches {ε δ : Type} (related : ε → δ → Prop) : Shape ε → Shape δ → Prop
  | root : Matches related .root .root
  | primitive (base : BaseType) : Matches related (.primitive base) (.primitive base)
  | array {element : ε} {other : δ} (h : related element other) :
      Matches related (.array element) (.array other)
  | declared (declaration : Declaration) :
      Matches related (.declared declaration) (.declared declaration)

/-- Shapes match under every relation that holds of their elements. -/
theorem Matches.imp {δ : Type} {related other : ε → δ → Prop} {shape : Shape ε} {shape' : Shape δ}
    (h : shape.Matches related shape')
    (imp : ∀ element name, shape.element? = some element → related element name →
      other element name) : shape.Matches other shape' := by
  cases h with
  | root => exact .root
  | primitive base => exact .primitive base
  | array h => exact .array (imp _ _ rfl h)
  | declared declaration => exact .declared declaration

section Matches

variable {δ : Type} {related : ε → δ → Prop} {shape : Shape ε} {shape' : Shape δ}

/-- Only a primitive shape matches a primitive one. -/
theorem Matches.eq_primitive {base : BaseType} (h : shape.Matches related (.primitive base)) :
    shape = .primitive base := by
  cases h
  rfl

/-- Only the same declaration matches a declaration. -/
theorem Matches.eq_declared {declaration : Declaration}
    (h : shape.Matches related (.declared declaration)) : shape = .declared declaration := by
  cases h
  rfl

/-- Matching shapes are primitive together. -/
theorem Matches.isPrimitive_eq (h : shape.Matches related shape') :
    shape.isPrimitive = shape'.isPrimitive := by
  cases h <;> rfl

/-- What matches a shape without an element has none. -/
theorem Matches.element?_eq_none (h : shape.Matches related shape')
    (flat : shape'.element? = none) : shape.element? = none := by
  cases h with
  | array => cases flat
  | _ => rfl

/-- **What matches an array is an array**, of a related element. -/
theorem Matches.exists_element {name : δ} (h : shape.Matches related (.array name)) :
    ∃ element, shape.element? = some element ∧ related element name := by
  cases h with
  | array related => exact ⟨_, rfl, related⟩

end Matches

end Shape

/-! ## The layout of names -/

/-- The name of the element of an array, given the characters of a name; nothing if the name is not
that of an array. -/
def layoutOfChars : List Char → Except Malformation (Option String)
  | [] => .error .emptyName
  | '[' :: [] => .error .missingElement
  | '[' :: '[' :: rest => .ok (some (String.ofList ('[' :: rest)))
  | '[' :: 'L' :: rest => Query.objectElement rest |>.map some
  | ['[', code] =>
    match BaseType.ofCode? code with
    | none => .error .unknownElement
    | some base => .ok (some base.name)
  | '[' :: _ => .error .unknownElement
  | _ => .ok none

/-- The name of the element of an array; nothing for the name of a class or interface. -/
def layout (name : String) : Except Malformation (Option String) := layoutOfChars name.toList

/-- The number of array layers that a name announces. -/
def layers (name : String) : Nat := (name.toList.takeWhile (· == '[')).length

/-- An element that is an object has no layers. -/
theorem layers_of_objectElement {chars : List Char} {element : String}
    (h : Query.objectElement chars = .ok element) :
    layers element = 0 ∧ layout element = .ok none := by
  unfold Query.objectElement at h
  split at h
  · dsimp only at h
    split at h
    · cases h
    · rename_i valid
      obtain rfl := Except.ok.inj h
      cases shape : chars.dropLast with
      | nil => simp [shape] at valid
      | cons first rest =>
        have plain : first ≠ '[' := by
          rintro rfl
          simp [shape] at valid
        exact ⟨by simp [layers, plain], by simp [layout, layoutOfChars, plain]⟩
  · cases h

/-- **An element has one layer less than its array.** -/
theorem layers_of_layout {name element : String} (h : layout name = .ok (some element)) :
    layers name = layers element + 1 := by
  have laid : layoutOfChars name.toList = .ok (some element) := h
  unfold layers
  revert laid
  generalize name.toList = chars
  intro laid
  unfold layoutOfChars at laid
  split at laid
  · cases laid
  · cases laid
  · rename_i rest
    obtain rfl := Option.some.inj (Except.ok.inj laid)
    simp
  · rename_i rest
    cases object : Query.objectElement rest with
    | error reason => simp [object, Except.map] at laid
    | ok inner =>
      obtain rfl : inner = element := by simpa [object, Except.map] using laid
      have flat := (layers_of_objectElement object).1
      unfold layers at flat
      rw [flat]
      simp
  · rename_i code bracket _
    split at laid
    · cases laid
    · rename_i base coded
      obtain rfl := Option.some.inj (Except.ok.inj laid)
      have apart : code ≠ '[' := fun same => by
        subst same
        cases base <;> exact absurd coded (by decide)
      have flat : (base.name.toList.takeWhile (· == '[')).length = 0 := by
        cases base <;> decide
      rw [flat]
      simp [apart]
  · cases laid
  · cases laid

/-- A name and the names of all elements below it. -/
inductive Inside : String → String → Prop
  | self (name : String) : Inside name name
  | element {name element inner : String} (h : layout name = .ok (some element))
      (inside : Inside element inner) : Inside name inner

/-- What is inside a name has no more layers than the name. -/
theorem Inside.layers_le {name inner : String} (h : Inside name inner) :
    layers inner ≤ layers name := by
  induction h with
  | self => exact Nat.le_refl _
  | element laid _ ih => exact Nat.le_trans ih (by rw [layers_of_layout laid]; omega)

/-! ## Pinned shapes -/

/-- The declaration of a marker that extends given interfaces. -/
def Declaration.ofMarker (interfaces : List String) : Declaration where
  isMarker := true
  isInterface := true
  superName := none
  interfaceNames := interfaces

/-- The shape of a pinned name: the built-in types go before the registered markers. -/
def Registry.shape? (registry : Registry) (name : String) : Option (Shape String) :=
  if name = rootName then some .root
  else
    match BaseType.ofName? name with
    | some base => some (.primitive base)
    | none => (registry.table.get? name).map fun interfaces => .declared (.ofMarker interfaces)

/-- What is registered has no element. -/
theorem Registry.element?_of_shape? {registry : Registry} {name : String} {shape : Shape String}
    (h : registry.shape? name = some shape) : shape.element? = none := by
  unfold shape? at h
  split at h
  · exact Option.some.inj h ▸ rfl
  · split at h
    · exact Option.some.inj h ▸ rfl
    · obtain ⟨interfaces, -, rfl⟩ := Option.map_eq_some_iff.1 h
      rfl

/-- A registered shape is primitive exactly if the name is that of a primitive type. -/
theorem Registry.shape?_primitive_iff {registry : Registry} {name : String} {base : BaseType} :
    registry.shape? name = some (.primitive base) ↔ BaseType.ofName? name = some base := by
  unfold shape?
  by_cases root : name = rootName
  · subst root
    have notBase : BaseType.ofName? rootName = none := by decide
    simp [notBase]
  · rw [if_neg root]
    cases BaseType.ofName? name <;> simp

/-- A registered declaration is that of a marker. -/
theorem Registry.of_shape?_declared {registry : Registry} {name : String}
    {declaration : Declaration} (h : registry.shape? name = some (.declared declaration)) :
    ∃ interfaces, registry.table.get? name = some interfaces ∧
      declaration = .ofMarker interfaces := by
  unfold shape? at h
  split at h
  · cases h
  · split at h
    · cases h
    · obtain ⟨interfaces, registered, same⟩ := Option.map_eq_some_iff.1 h
      exact ⟨interfaces, registered, (Shape.declared.inj same).symm⟩

/-- No marker is registered where there is no registered shape. -/
theorem Registry.get?_of_shape?_eq_none {registry : Registry} {name : String}
    (h : registry.shape? name = none) : registry.table.get? name = none := by
  unfold shape? at h
  split at h
  · cases h
  · split at h
    · cases h
    · exact Option.map_eq_none_iff.1 h

/-! ## Universes -/

/-- What is said about types: which interfaces are markers, and the metadata of names. -/
structure Universe where
  registry : Registry
  metadata? : String → Option TypeMetadata

namespace Universe

variable {world : Universe} {name element : String} {shape : Shape String}

/-- The shape of a name: a pinned name goes before an array, and an array before a class or
interface. -/
def shape? (world : Universe) (name : String) : Option (Shape String) :=
  match world.registry.shape? name with
  | some shape => some shape
  | none =>
    match layout name with
    | .ok (some element) => some (.array element)
    | .ok none => (world.metadata? name).map fun metadata => .declared metadata.declaration
    | .error _ => none

/-- Whether a name can be looked up within a number of layers. -/
def resolvesWithin (world : Universe) : Nat → String → Bool
  | 0, _ => false
  | depth + 1, name =>
    match world.shape? name with
    | none => false
    | some (.array element) => world.resolvesWithin depth element
    | some _ => true

/-- Whether a name can be looked up: it has a shape, and so have the elements below it. -/
def resolves (world : Universe) (name : String) : Bool :=
  world.resolvesWithin (layers name + 1) name

/-- Whether a name is that of an interface. -/
def isInterface (world : Universe) (name : String) : Bool :=
  ((world.shape? name).map Shape.isInterface).getD false

/-- A registered shape is the shape of its name. -/
theorem shape?_of_pinned (h : world.registry.shape? name = some shape) :
    world.shape? name = some shape := by
  simp only [shape?, h]

/-- The name of a primitive type has the shape of that type. -/
theorem shape?_of_ofName? {base : BaseType} (h : BaseType.ofName? name = some base) :
    world.shape? name = some (.primitive base) :=
  shape?_of_pinned (Registry.shape?_primitive_iff.2 h)

/-- Only the root has the shape of the root. -/
theorem shape?_root_iff : world.shape? name = some .root ↔ name = rootName := by
  constructor
  · intro h
    unfold shape? at h
    split at h
    · rename_i shape pinned
      obtain rfl := Option.some.inj h
      unfold Registry.shape? at pinned
      split at pinned
      · rename_i root
        exact root
      · split at pinned
        · cases pinned
        · obtain ⟨interfaces, -, declared⟩ := Option.map_eq_some_iff.1 pinned
          cases declared
    · split at h
      · cases h
      · obtain ⟨metadata, -, declared⟩ := Option.map_eq_some_iff.1 h
        cases declared
      · cases h
  · rintro rfl
    exact shape?_of_pinned rfl

/-- What a class or interface is comes from the registry or, if it is not registered, from its
metadata. -/
theorem of_shape?_declared {declaration : Declaration}
    (h : world.shape? name = some (.declared declaration)) :
    (∃ interfaces, world.registry.table.get? name = some interfaces ∧
        declaration = .ofMarker interfaces) ∨
      (world.registry.table.get? name = none ∧ ∃ metadata, world.metadata? name = some metadata ∧
        declaration = metadata.declaration) := by
  unfold shape? at h
  split at h
  · rename_i pinned
    obtain rfl := Option.some.inj h
    exact .inl (Registry.of_shape?_declared pinned)
  · rename_i free
    split at h
    · cases h
    · obtain ⟨metadata, told, same⟩ := Option.map_eq_some_iff.1 h
      exact .inr ⟨Registry.get?_of_shape?_eq_none free, metadata, told,
        (Shape.declared.inj same).symm⟩
    · cases h

/-- A name has the shape of an array exactly if it is spelt like one and not registered. -/
theorem shape?_array_iff :
    world.shape? name = some (.array element) ↔
      world.registry.shape? name = none ∧ layout name = .ok (some element) := by
  unfold shape?
  constructor
  · intro h
    split at h
    · rename_i pinned
      obtain rfl := Option.some.inj h
      exact absurd (Registry.element?_of_shape? pinned) (by simp [Shape.element?])
    · rename_i free
      split at h
      · rename_i laid
        obtain rfl := Shape.array.inj (Option.some.inj h)
        exact ⟨free, laid⟩
      · obtain ⟨metadata, -, declared⟩ := Option.map_eq_some_iff.1 h
        cases declared
      · cases h
  · rintro ⟨free, laid⟩
    simp only [free, laid]

/-- An array resolves as its element does. -/
theorem resolves_array (h : world.shape? name = some (.array element)) :
    world.resolves name = world.resolves element := by
  unfold resolves
  rw [layers_of_layout (shape?_array_iff.1 h).2, resolvesWithin, h]

/-- What has a shape without an element resolves. -/
theorem resolves_of_flat (h : world.shape? name = some shape) (flat : shape.element? = none) :
    world.resolves name = true := by
  unfold resolves
  rw [resolvesWithin, h]
  cases shape with
  | array element => simp [Shape.element?] at flat
  | _ => rfl

/-- What resolves has a shape. -/
theorem exists_shape_of_resolves (h : world.resolves name = true) :
    ∃ shape, world.shape? name = some shape := by
  unfold resolves at h
  rw [resolvesWithin] at h
  cases shape : world.shape? name with
  | none => simp [shape] at h
  | some found => exact ⟨found, rfl⟩

end Universe

end ClassLattice
