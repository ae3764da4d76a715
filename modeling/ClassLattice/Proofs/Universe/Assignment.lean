import ClassLattice.Proofs.Universe.Absorption
import ClassLattice.Proofs.Universe.Specific

/-!
# Assignment

Values of a type can be assigned to every type that it descends from, to the root and, if both are
arrays of references, where the elements of the one can be assigned to those of the other.  Two
names have the second in common exactly if the first can be assigned to it, and in universes shaped
as class files are this is a partial order with the root above all names.  Two arrays can have one
element if the element is named like a primitive type, so that the order is one on `Definite` names.
-/

set_option autoImplicit false

namespace ClassLattice

/-- Neither the name nor one below it is that of an array of objects whose element is named like a
primitive type. -/
def IsUnequivocal (name : String) : Prop :=
  ∀ base : BaseType, ¬ Inside name (arrayDescriptor base.name)

/-- The element of an unequivocal name is unequivocal. -/
theorem IsUnequivocal.element {name element : String} (h : IsUnequivocal name)
    (laid : layout name = .ok (some element)) : IsUnequivocal element :=
  fun base inside => h base (.element laid inside)

/-- Plain names are unequivocal. -/
theorem IsPlainName.isUnequivocal {name : String} (plain : IsPlainName name) :
    IsUnequivocal name := by
  intro base inside
  generalize same : arrayDescriptor base.name = array at inside
  cases inside with
  | self =>
    subst same
    exact plain.noBracket (by cases base <;> decide)
  | element laid => exact plain.noBracket (head_of_layout laid)

/-- The array of an unequivocal name is unequivocal, unless the name is that of a primitive type. -/
theorem IsUnequivocal.array {name : String} (h : IsUnequivocal name)
    (named : IsPlainName name ∨ name.toList.head? = some '[')
    (reference : BaseType.ofName? name = none) : IsUnequivocal (arrayDescriptor name) := by
  intro base inside
  generalize same : arrayDescriptor base.name = array at inside
  cases inside with
  | self =>
    obtain rfl := arrayDescriptor_injective same
    exact absurd reference (by cases base <;> decide)
  | element laid inside =>
    obtain rfl := Option.some.inj (Except.ok.inj ((layout_arrayDescriptor named).symm.trans laid))
    exact h base (same ▸ inside)

/-- Two arrays of one element have one name. -/
theorem IsUnequivocal.eq_of_layout {a b element : String} (h : IsUnequivocal a)
    (h' : IsUnequivocal b) (laid : layout a = .ok (some element))
    (laid' : layout b = .ok (some element)) : a = b := by
  have bracketed {name : String} (h : IsUnequivocal name) (laid : layout name = .ok (some element))
      (base : BaseType) (named : element = base.name) : name = "[" ++ element := by
    rcases spelling_of_layout laid with ⟨-, same⟩ | ⟨-, -, same⟩
    · subst named
      exact absurd (same ▸ .self _) (h base)
    · exact same
  rcases spelling_of_layout laid with ⟨-, same⟩ | ⟨base, named, same⟩
  · rcases spelling_of_layout laid' with ⟨-, same'⟩ | ⟨base, named, same'⟩
    · rw [same, same']
    · rw [same', bracketed h laid base named]
  · rw [same, bracketed h' laid' base named]

namespace Universe

open Relation

variable {world : Universe} {a b c x y z inner : String} {extent layers : Nat}

/-- A name is that of a primitive type. -/
def IsPrimitive (world : Universe) (name : String) : Prop :=
  ∃ base, world.shape? name = some (.primitive base)

/-- A name is that of a number of array layers around another. -/
inductive Layered (world : Universe) : Nat → String → String → Prop
  | bare (name : String) : Layered world 0 name name
  | layer {layers : Nat} {name element inner : String}
      (array : world.shape? name = some (.array element))
      (below : Layered world layers element inner) :
      Layered world (layers + 1) name inner

/-- **Values of a type can be assigned to another**: it descends from the other, the other is the
root, or both are arrays of references and elements of the one can be assigned to those of the
other. -/
inductive Assignable (world : Universe) : String → String → Prop
  | descends {a b : String} (h : world.Descends a b) : Assignable world a b
  | root (a : String) : Assignable world a rootName
  | elements {a b x y : String} (first : world.referenceElement a = some x)
      (second : world.referenceElement b = some y) (h : Assignable world x y) :
      Assignable world a b

/-- The element of an array is a reference if it is not primitive. -/
theorem referenceElement_iff :
    world.referenceElement a = some x ↔
      world.shape? a = some (.array x) ∧ ¬ world.IsPrimitive x := by
  constructor
  · intro h
    have array := shape?_of_referenceElement h
    refine ⟨array, fun ⟨base, primitive⟩ => ?_⟩
    rw [referenceElement, array] at h
    dsimp only at h
    rw [primitive] at h
    cases h
  · rintro ⟨array, reference⟩
    rw [referenceElement, array]
    dsimp only
    split
    · rename_i base primitive
      exact absurd ⟨base, primitive⟩ reference
    · rfl

/-- A class or interface is not primitive. -/
theorem IsType.not_isPrimitive (isType : world.IsType a) : ¬ world.IsPrimitive a := by
  rintro ⟨base, primitive⟩
  rcases isType with root | ⟨declaration, declared⟩
  · rw [primitive] at root
    cases root
  · rw [primitive] at declared
    cases declared

/-- An array is not primitive. -/
theorem not_isPrimitive_of_array (array : world.shape? a = some (.array x)) :
    ¬ world.IsPrimitive a := by
  rintro ⟨base, primitive⟩
  rw [array] at primitive
  cases primitive

/-- What has an array layer is not primitive. -/
theorem Layered.not_isPrimitive (h : world.Layered (layers + 1) a b) : ¬ world.IsPrimitive a := by
  rintro ⟨base, primitive⟩
  cases h with
  | layer array =>
    rw [primitive] at array
    cases array

/-- **Beyond descent, every type can be assigned to the root, and arrays of references can be
assigned to arrays of the root**, layer by layer. -/
theorem assignable_iff_layered :
    world.Assignable a b ↔ world.Descends a b ∨ b = rootName ∨
      ∃ layers x, 0 < layers ∧ world.Layered layers a x ∧ ¬ world.IsPrimitive x ∧
        world.Layered layers b rootName := by
  constructor
  · intro h
    induction h with
    | descends h => exact .inl h
    | root => exact .inr (.inl rfl)
    | @elements a b x y first second _ ih =>
      obtain ⟨arrayA, reference⟩ := referenceElement_iff.1 first
      have arrayB := shape?_of_referenceElement second
      rcases ih with descends | rfl | ⟨layers, inner, positive, layered, plain, layered'⟩
      · exact .inl (.element arrayA arrayB descends)
      · exact .inr (.inr ⟨1, x, Nat.one_pos, .layer arrayA (.bare x), reference,
          .layer arrayB (.bare _)⟩)
      · exact .inr (.inr ⟨layers + 1, inner, Nat.succ_pos _, .layer arrayA layered, plain,
          .layer arrayB layered'⟩)
  · rintro (descends | rfl | ⟨layers, x, positive, layered, plain, layered'⟩)
    · exact .descends descends
    · exact .root a
    · -- The layers are taken off one by one until the root is left on the right.
      induction layers generalizing a b with
      | zero => exact absurd positive (Nat.lt_irrefl 0)
      | succ layers ih =>
        cases layered with
        | @layer _ _ element _ arrayA below =>
        cases layered' with
        | @layer _ _ element' _ arrayB below' =>
        cases layers with
        | zero =>
          cases below
          cases below'
          exact .elements (referenceElement_iff.2 ⟨arrayA, plain⟩)
            (referenceElement_iff.2 ⟨arrayB, isType_rootName.not_isPrimitive⟩) (.root x)
        | succ layers =>
          exact .elements (referenceElement_iff.2 ⟨arrayA, below.not_isPrimitive⟩)
            (referenceElement_iff.2 ⟨arrayB, below'.not_isPrimitive⟩)
            (ih (Nat.succ_pos _) below below')

/-! ## What a type can be assigned to, by its shape -/

/-- A primitive type descends from nothing but itself. -/
theorem not_descends_of_primitive (primitive : world.IsPrimitive a) (h : world.Descends a b) :
    b = a := by
  obtain ⟨base, shape⟩ := primitive
  cases h with
  | self => rfl
  | above edge =>
    obtain ⟨declaration, shape', -⟩ := edge_extends edge
    rw [shape] at shape'
    cases shape'
  | root array =>
    rw [shape] at array
    cases array
  | element array =>
    rw [shape] at array
    cases array

namespace Assignable

/-- A class or interface can be assigned to the root and to what it descends from, and to nothing
else. -/
theorem of_isType (isType : world.IsType a) (h : world.Assignable a b) :
    b = rootName ∨ world.Descends a b := by
  cases h with
  | descends h => exact .inr h
  | root => exact .inl rfl
  | elements first =>
    rw [isType.referenceElement] at first
    cases first

/-- A primitive type can be assigned to itself and the root, and to nothing else. -/
theorem of_primitive (primitive : world.IsPrimitive a) (h : world.Assignable a b) :
    b = a ∨ b = rootName := by
  cases h with
  | descends h => exact .inl (not_descends_of_primitive primitive h)
  | root => exact .inr rfl
  | elements first =>
    obtain ⟨base, shape⟩ := primitive
    rw [shape?_of_referenceElement first] at shape
    cases shape

/-- An array can be assigned to itself, to the root, and to arrays to whose element its own can be
assigned, but for arrays of a primitive type and the array of the root. -/
theorem of_array (array : world.shape? a = some (.array x)) (h : world.Assignable a b) :
    b = a ∨ b = rootName ∨ ∃ y, world.shape? b = some (.array y) ∧ world.Assignable x y ∧
      (y = rootName → ¬ world.IsPrimitive x) := by
  cases h with
  | root => exact .inr (.inl rfl)
  | @elements _ _ x' y first second h =>
    obtain ⟨array', reference⟩ := referenceElement_iff.1 first
    obtain rfl := Shape.array.inj (Option.some.inj (array'.symm.trans array))
    exact .inr (.inr ⟨y, shape?_of_referenceElement second, h, fun _ => reference⟩)
  | descends h =>
    cases h with
    | self => exact .inl rfl
    | above edge => exact absurd array (edge_extends edge).not_array
    | root _ root => exact .inr (.inl (shape?_root_iff.1 root))
    | @element _ _ x' y array' arrayB h =>
      obtain rfl := Shape.array.inj (Option.some.inj (array'.symm.trans array))
      refine .inr (.inr ⟨y, arrayB, .descends h, fun root primitive => ?_⟩)
      have same := not_descends_of_primitive primitive h
      exact isType_rootName.not_isPrimitive (root ▸ same ▸ primitive)

/-- **An array can be assigned to another if its element can be assigned to the other element**,
unless a primitive one would become the root. -/
theorem of_elements (arrayA : world.shape? a = some (.array x))
    (arrayB : world.shape? b = some (.array y)) (h : world.Assignable x y)
    (reference : y = rootName → ¬ world.IsPrimitive x) : world.Assignable a b := by
  cases h with
  | descends h => exact .descends (.element arrayA arrayB h)
  | root =>
    exact .elements (referenceElement_iff.2 ⟨arrayA, reference rfl⟩)
      (referenceElement_iff.2 ⟨arrayB, isType_rootName.not_isPrimitive⟩) (.root x)
  | elements first second h =>
    have plainX := not_isPrimitive_of_array (shape?_of_referenceElement first)
    have plainY := not_isPrimitive_of_array (shape?_of_referenceElement second)
    exact .elements (referenceElement_iff.2 ⟨arrayA, plainX⟩)
      (referenceElement_iff.2 ⟨arrayB, plainY⟩) (.elements first second h)

/-- The root can be assigned to nothing but itself. -/
theorem eq_rootName (h : world.Assignable rootName b) : b = rootName := by
  rcases h.of_isType isType_rootName with root | descends
  · exact root
  · exact eq_of_root_descends descends

end Assignable

/-- A name that resolves is that of a class or interface, a primitive type or an array. -/
theorem cases_of_resolves (resolves : world.resolves a = true) :
    world.IsType a ∨ world.IsPrimitive a ∨ ∃ x, world.shape? a = some (.array x) := by
  obtain ⟨shape, shape?⟩ := exists_shape_of_resolves resolves
  cases shape with
  | root => exact .inl (.inl shape?)
  | primitive base => exact .inr (.inl ⟨base, shape?⟩)
  | array x => exact .inr (.inr ⟨x, shape?⟩)
  | declared declaration => exact .inl (.inr ⟨declaration, shape?⟩)

/-- A name that can be looked up and is spelt in one way only. -/
structure Definite (world : Universe) (name : String) : Prop where
  resolves : world.resolves name = true
  unequivocal : IsUnequivocal name

/-- The element of a definite array is definite. -/
theorem Definite.element (h : world.Definite a) (array : world.shape? a = some (.array x)) :
    world.Definite x :=
  ⟨resolves_array array ▸ h.resolves, h.unequivocal.element (shape?_array_iff.1 array).2⟩

/-- The root is definite. -/
theorem definite_rootName : world.Definite rootName := by
  have plain : IsPlainName rootName := ⟨by decide, by decide, by decide⟩
  exact ⟨isType_rootName.resolves, plain.isUnequivocal⟩

namespace WellNamed

/-- Every class and interface has a definite name. -/
theorem definite (wellNamed : world.WellNamed) (isType : world.IsType a) : world.Definite a :=
  ⟨isType.resolves, (wellNamed.plain isType).isUnequivocal⟩

/-- The array of a class, interface or array with a definite name has one too. -/
theorem definite_array (wellNamed : world.WellNamed) (definite : world.Definite a)
    (reference : world.IsType a ∨ ∃ x, world.shape? a = some (.array x)) :
    world.Definite (arrayDescriptor a) := by
  have array := wellNamed.shape?_arrayDescriptor reference
  refine ⟨resolves_array array ▸ definite.resolves, definite.unequivocal.array ?_ ?_⟩
  · exact reference.imp wellNamed.plain
      fun ⟨x, array⟩ => head_of_layout (shape?_array_iff.1 array).2
  · refine Option.eq_none_iff_forall_ne_some.2 ?_
    intro base denoted
    have primitive : world.shape? a = some (.primitive base) := shape?_of_ofName? denoted
    rcases reference with (root | ⟨declaration, declared⟩) | ⟨x, array⟩
    · rw [primitive] at root
      cases root
    · rw [primitive] at declared
      cases declared
    · rw [primitive] at array
      cases array

end WellNamed

namespace Lawful

/-- What a class or interface descends from is a class or interface. -/
theorem isType_of_descends (lawful : world.Lawful) (isType : world.IsType a)
    (h : world.Descends a b) : world.IsType b := by
  rcases reflTransGen_iff_eq_or_transGen.1 (lawful.reflTransGen_of_descends isType h) with same | up
  · exact same ▸ isType
  · exact lawful.isType_of_transGen up

/-- **No two names can be assigned to each other.** -/
theorem assignable_antisymm (lawful : world.Lawful) (definite : world.Definite a)
    (definite' : world.Definite b) (h : world.Assignable a b) (h' : world.Assignable b a) :
    a = b := by
  -- The elements of two arrays have fewer layers than the arrays.
  induction same : ClassLattice.layers a using Nat.strongRecOn generalizing a b with
  | _ depth ih =>
    rcases cases_of_resolves definite.resolves with isType | primitive | ⟨x, array⟩
    · rcases h.of_isType isType with rfl | up
      · exact h'.eq_rootName
      · have isType' := lawful.isType_of_descends isType up
        rcases h'.of_isType isType' with rfl | down
        · exact (eq_of_root_descends up).symm
        · exact lawful.descends_antisymm isType isType' up down
    · rcases h.of_primitive primitive with rfl | rfl
      · rfl
      · exact h'.eq_rootName
    · rcases h.of_array array with rfl | rfl | ⟨y, array', up, -⟩
      · rfl
      · exact h'.eq_rootName
      · rcases h'.of_array array' with rfl | rfl | ⟨x', array'', down, -⟩
        · rfl
        · exact (h.eq_rootName).symm
        · obtain rfl := Shape.array.inj (Option.some.inj (array''.symm.trans array))
          have laid := (shape?_array_iff.1 array).2
          have deeper := layers_of_layout laid
          obtain rfl := ih (ClassLattice.layers x') (by omega) (definite.element array)
            (definite'.element array') up down rfl
          exact definite.unequivocal.eq_of_layout definite'.unequivocal laid
            (shape?_array_iff.1 array').2

end Lawful

namespace ClassShaped

/-- An interface descends from no class but the root. -/
theorem eq_rootName_of_descends (shaped : world.ClassShaped)
    (interface : world.isInterface b = true) (kind : world.isInterface c = false)
    (h : world.Descends b c) : c = rootName := by
  obtain ⟨declaration, shape⟩ := exists_of_isInterface interface
  cases h with
  | self =>
    rw [interface] at kind
    cases kind
  | @above _ parent _ edge h =>
    rcases edge with superclass | ⟨interface', -⟩
    · rcases shaped.superclass b parent superclass with rfl | ⟨isClass, -⟩
      · exact eq_of_root_descends h
      · rw [isClass.not_isInterface] at interface
        cases interface
    · rw [interface'] at kind
      cases kind
  | root array =>
    rw [shape] at array
    cases array
  | element array =>
    rw [shape] at array
    cases array

/-- Descent goes on from class or interface to class or interface, as far as the root. -/
theorem descends_trans (shaped : world.ClassShaped) (lawful : world.Lawful)
    (isType : world.IsType a) (h : world.Descends a b) (h' : world.Descends b c) :
    c = rootName ∨ world.Descends a c := by
  induction h with
  | self => exact .inr h'
  | @above x parent y edge h ih =>
    rcases ih (lawful.closed _ _ (edge_extends edge)) h' with root | up
    · exact .inl root
    · rcases edge with superclass | ⟨interface, extended⟩
      · exact .inr (.above (.inl superclass) up)
      · cases kind : world.isInterface c with
        | true => exact .inr (.above (.inr ⟨kind, extended⟩) up)
        | false => exact .inl (shaped.eq_rootName_of_descends interface kind h')
  | root array => exact absurd array isType.not_array
  | element array => exact absurd array isType.not_array

/-- **What can be assigned to a type can be assigned to whatever that can be assigned to.** -/
theorem assignable_trans (shaped : world.ClassShaped) (lawful : world.Lawful)
    (resolves : world.resolves a = true) (h : world.Assignable a b) (h' : world.Assignable b c) :
    world.Assignable a c := by
  induction same : ClassLattice.layers a using Nat.strongRecOn generalizing a b c with
  | _ depth ih =>
    rcases cases_of_resolves resolves with isType | primitive | ⟨x, array⟩
    · rcases h.of_isType isType with rfl | up
      · exact h'.eq_rootName ▸ .root a
      · rcases h'.of_isType (lawful.isType_of_descends isType up) with rfl | up'
        · exact .root a
        · rcases shaped.descends_trans lawful isType up up' with rfl | descends
          · exact .root a
          · exact .descends descends
    · rcases h.of_primitive primitive with rfl | rfl
      · exact h'
      · exact h'.eq_rootName ▸ .root a
    · rcases h.of_array array with rfl | rfl | ⟨y, array', up, reference⟩
      · exact h'
      · exact h'.eq_rootName ▸ .root a
      · rcases h'.of_array array' with rfl | rfl | ⟨z, array'', up', reference'⟩
        · exact h
        · exact .root a
        · have deeper := layers_of_layout (shape?_array_iff.1 array).2
          have resolves' := resolves_array array ▸ resolves
          refine .of_elements array array''
            (ih (ClassLattice.layers x) (by omega) resolves' up up' rfl) fun root primitive => ?_
          -- A primitive element can be assigned to itself and to the root only.
          rcases up.of_primitive primitive with rfl | rfl
          · exact reference' root primitive
          · exact reference rfl primitive

end ClassShaped

/-! ## What is in common -/

namespace Lawful

variable (lawful : world.Lawful) (spans : world.Spans extent)

include lawful spans

/-- **What can be assigned is absorbed.** -/
theorem absorbs_of_assignable (definite : world.Definite a) (definite' : world.Definite b)
    (h : world.Assignable a b) : world.Absorbs a b := by
  induction h with
  | @descends a b up =>
    by_cases down : world.Descends b a
    · obtain rfl := lawful.assignable_antisymm definite definite' (.descends up) (.descends down)
      exact absorbs_self a
    · exact lawful.absorbs_of_descends spans definite.resolves definite'.resolves up down
  | root => exact lawful.absorbs_root spans definite.resolves
  | elements first second _ ih =>
    have inner := ih (definite.element (shape?_of_referenceElement first))
      (definite'.element (shape?_of_referenceElement second))
    exact lawful.absorbs_of_elements spans definite.resolves definite'.resolves first second
      (arrayDescriptor_of_referenceElement first) (arrayDescriptor_of_referenceElement second) inner

omit lawful spans in
/-- A name can be assigned to every one of its ancestors. -/
theorem assignable_of_mem_lists {names : List String} (lists : world.Lists a names)
    (member : b ∈ names) : world.Assignable a b := by
  rcases of_mem_lists lists member with rfl | rfl | ⟨-, -, up⟩
  · exact .descends (.self b)
  · exact .root a
  · exact .descends up

omit lawful spans in
/-- What two unrelated names have in common is the second of them only if the first can be assigned
to it.  `inner` says that of their elements. -/
theorem assignable_of_unrelated
    (inner : ∀ x y, world.referenceElement a = some x → world.referenceElement b = some y →
      world.Shares x y y → world.Assignable x y)
    (h : world.Unrelated a b c ∨ world.Unrelated b a c) (same : c = b) : world.Assignable a b := by
  have elements {x y z : String} (first : world.referenceElement a = some x)
      (second : world.referenceElement b = some y) (named : arrayDescriptor z = b)
      (shares : world.Shares x y z) : world.Assignable a b := by
    obtain rfl := arrayDescriptor_injective
      (named.trans (arrayDescriptor_of_referenceElement second).symm)
    exact .elements first second (inner x z first second shares)
  have ancestors {names : List String} (lists : world.Lists a names)
      (shared : c = rootName ∨ c ∈ names) : world.Assignable a b := by
    rcases shared with root | member
    · exact same ▸ root ▸ .root a
    · exact same ▸ assignable_of_mem_lists lists member
  rcases h with h | h
  · cases h with
    | elements first second meets => exact elements first second same (.inl meets)
    | ancestors _ first second =>
      exact ancestors first ((firstShared_cases _ _).imp_right And.left)
  · cases h with
    | elements first second meets => exact elements second first same (.inr meets)
    | ancestors _ first second =>
      exact ancestors second ((firstShared_cases _ _).imp_right And.right)

/-- A name can be assigned to another if the other is what the two have in common. -/
theorem assignable_of_shares (h : world.Shares a b c) (same : c = b) : world.Assignable a b := by
  induction deep : ClassLattice.layers a using Nat.strongRecOn generalizing a b c with
  | _ depth ih =>
    have inner (x y : String) (first : world.referenceElement a = some x)
        (_ : world.referenceElement b = some y) (shares : world.Shares x y y) :
        world.Assignable x y := by
      have deeper := layers_of_layout (shape?_array_iff.1 (shape?_of_referenceElement first)).2
      exact ih (ClassLattice.layers x) (by omega) shares rfl rfl
    obtain ⟨resolvesA, resolvesB⟩ := h.resolves
    rcases h with meets | meets
    · rcases (lawful.meets_iff_descends spans resolvesA resolvesB).1 meets with
        ⟨up, -⟩ | ⟨-, ⟨-, same'⟩ | ⟨-, apart⟩⟩
      · exact .descends up
      · exact .descends (same'.symm.trans same ▸ .self a)
      · exact assignable_of_unrelated inner (.inl apart) same
    · rcases (lawful.meets_iff_descends spans resolvesB resolvesA).1 meets with
        ⟨-, same'⟩ | ⟨-, ⟨up, -⟩ | ⟨-, apart⟩⟩
      · exact .descends (same'.symm.trans same ▸ .self a)
      · exact .descends up
      · exact assignable_of_unrelated inner (.inr apart) same

/-- **What two names have in common is the second of them exactly if the first can be assigned to
it**, whichever was asked for first. -/
theorem eq_iff_assignable (definite : world.Definite a) (definite' : world.Definite b)
    (h : world.Shares a b c) : c = b ↔ world.Assignable a b :=
  ⟨lawful.assignable_of_shares spans h,
    fun assignable => lawful.absorbs_of_assignable spans definite definite' assignable c h⟩

end Lawful

end Universe

end ClassLattice
