import ClassLattice.Proofs.Query.Descriptor
import ClassLattice.Proofs.Universe.Assignment

/-!
# What two arrays have in common

Two arrays have in common what the rule for arrays gives them, which looks at the number of layers
and at the leaves only.  Arrays of references of one depth have in common the array of what their
leaves have in common; otherwise the layers that both have are layers around the root, one less
where the layers of the shallower array end in a primitive type.  The test and the walk never count
layers: they take off one at a time, and so does the induction here.
-/

set_option autoImplicit false

namespace ClassLattice

namespace FieldType

/-- Whether the type is primitive. -/
def isPrimitive : FieldType → Bool
  | base _ => true
  | object _ | array _ => false

/-- The most specific array of the root, or the root itself, to which arrays can be assigned that
have a number of layers around a leaf. -/
def rootArrays (layers : Nat) (leaf : FieldType) : FieldType :=
  arrays (if leaf.isPrimitive then layers - 1 else layers) (.object rootName)

/-- **The rule for arrays**: what the arrays with `m` layers around `x` and `n` layers around `y`
have in common, if `shared` is what the two leaves have in common. -/
def arraysInCommon (shared : String) (m : Nat) (x : FieldType) (n : Nat) (y : FieldType) :
    FieldType :=
  if m < n then rootArrays m x
  else if n < m then rootArrays n y
  else if x.isPrimitive = false ∧ y.isPrimitive = false then arrays m (.object shared)
  else if x = y then arrays m x
  else arrays (m - 1) (.object rootName)

variable {shared : String} {m n : Nat} {x y type : FieldType}

/-- Arrays of the root in place of a leaf, one layer further out. -/
theorem rootArrays_succ (layers : Nat) (leaf : FieldType) :
    rootArrays (layers + 2) leaf = array (rootArrays (layers + 1) leaf) := by
  unfold rootArrays
  split <;> rfl

/-- A layer on both arrays is a layer on what they have in common. -/
theorem arraysInCommon_succ :
    arraysInCommon shared (m + 2) x (n + 2) y =
      array (arraysInCommon shared (m + 1) x (n + 1) y) := by
  unfold arraysInCommon
  rw [rootArrays_succ, rootArrays_succ]
  simp only [Nat.add_lt_add_iff_right]
  split_ifs <;> rfl

/-- The array of a reference is laid out around its internal name. -/
theorem internalName_array (reference : type.isPrimitive = false) (bare : type.HasBareCore) :
    (array type).internalName = arrayDescriptor type.internalName := by
  apply String.toList_injective
  cases type with
  | base base => cases reference
  | object name =>
    simp [internalName, descriptor, descriptorChars, arrayDescriptor, bare name rfl]
  | array element => simp [internalName, descriptor, descriptorChars, arrayDescriptor]

end FieldType

namespace Universe

open FieldType (arrays arraysInCommon rootArrays)

variable {world : Universe} {a b c x y shared name : String} {p q leaf : FieldType}
  {extent m n : Nat}

/-- A field type without array layers that can be looked up: a primitive type, a class or an
interface. -/
inductive IsLeaf (world : Universe) : FieldType → Prop
  | base (base : BaseType) : IsLeaf world (.base base)
  | object {name : String} (isType : world.IsType name) : IsLeaf world (.object name)

/-- The name of a primitive type has the shape of that type. -/
theorem shape?_base (base : BaseType) :
    world.shape? (FieldType.base base).internalName = some (.primitive base) :=
  shape?_of_ofName? (BaseType.ofName?_name base)

namespace IsLeaf

/-- Arrays of a leaf have a plain core. -/
theorem hasPlainCore (wellNamed : world.WellNamed) (isLeaf : world.IsLeaf leaf) (layers : Nat) :
    (arrays layers leaf).HasPlainCore := by
  intro name core
  rw [FieldType.leaf_arrays] at core
  cases isLeaf with
  | base => cases core
  | object isType =>
    cases core
    exact wellNamed.plain isType

/-- **An array of a leaf has the shape of an array**, around the array with one layer less. -/
theorem shape?_arrays (wellNamed : world.WellNamed) (isLeaf : world.IsLeaf leaf) (layers : Nat) :
    world.shape? (arrays (layers + 1) leaf).internalName =
      some (.array (arrays layers leaf).internalName) := by
  have laid := FieldType.layout_array (isLeaf.hasPlainCore wellNamed layers)
  exact shape?_array_iff.2 ⟨wellNamed.free_of_bracket (head_of_layout laid), laid⟩

/-- Arrays of a leaf resolve. -/
theorem resolves_arrays (wellNamed : world.WellNamed) (isLeaf : world.IsLeaf leaf) (layers : Nat) :
    world.resolves (arrays layers leaf).internalName = true := by
  induction layers with
  | zero =>
    cases isLeaf with
    | base base => exact resolves_of_flat (shape?_base base) rfl
    | object isType => exact isType.resolves
  | succ layers ih => exact (resolves_array (isLeaf.shape?_arrays wellNamed layers)).trans ih

/-- A leaf is no array. -/
theorem not_array (isLeaf : world.IsLeaf leaf) :
    world.shape? leaf.internalName ≠ some (.array x) := by
  cases isLeaf with
  | base base =>
    rw [shape?_base base]
    simp
  | object isType => exact isType.not_array

/-- A leaf is primitive by its name if it is a primitive type. -/
theorem isPrimitive_iff (isLeaf : world.IsLeaf leaf) :
    world.IsPrimitive leaf.internalName ↔ leaf.isPrimitive = true := by
  cases isLeaf with
  | base base => exact iff_of_true ⟨base, shape?_base base⟩ rfl
  | object isType => exact iff_of_false isType.not_isPrimitive (by simp [FieldType.isPrimitive])

/-- A leaf that is a reference is a class or interface. -/
theorem isType (isLeaf : world.IsLeaf leaf) (reference : leaf.isPrimitive = false) :
    world.IsType leaf.internalName := by
  cases isLeaf with
  | base => cases reference
  | object isType => exact isType

/-- Leaves that are looked up by one name are one leaf. -/
theorem eq_of_internalName (isLeaf : world.IsLeaf p) (isLeaf' : world.IsLeaf q)
    (same : p.internalName = q.internalName) : p = q := by
  cases isLeaf with
  | base base =>
    have primitive : world.shape? (FieldType.base base).internalName = some (.primitive base) :=
      shape?_base base
    cases isLeaf' with
    | base base' =>
      rw [same, shape?_base base'] at primitive
      obtain rfl := Shape.primitive.inj (Option.some.inj primitive)
      rfl
    | object isType' =>
      rw [same] at primitive
      exact absurd ⟨base, primitive⟩ isType'.not_isPrimitive
  | object isType =>
    cases isLeaf' with
    | base base' =>
      have primitive : world.shape? (FieldType.base base').internalName = some (.primitive base') :=
        shape?_base base'
      rw [← same] at primitive
      exact absurd ⟨base', primitive⟩ isType.not_isPrimitive
    | object isType' => exact congrArg FieldType.object same

end IsLeaf

/-! ## Arrays that have only the root in common -/

/-- The root is all that an array can descend from other than arrays. -/
theorem eq_rootName_of_array_descends (array : world.shape? a = some (.array x))
    (flat : ∀ y, world.shape? b ≠ some (.array y)) (h : world.Descends a b) : b = rootName := by
  cases h with
  | self => exact absurd array (flat x)
  | above edge => exact absurd array (edge_extends edge).not_array
  | root _ root => exact shape?_root_iff.1 root
  | element _ array' => exact absurd array' (flat _)

namespace Lawful

variable (lawful : world.Lawful)

include lawful

/-- Nothing but itself descends to a primitive type. -/
theorem eq_of_descends_primitive (primitive : world.IsPrimitive b) (h : world.Descends a b) :
    a = b := by
  induction h with
  | self => rfl
  | above edge _ ih =>
    have isType := lawful.closed _ _ (edge_extends edge)
    exact absurd (ih primitive ▸ primitive) isType.not_isPrimitive
  | root _ root => exact absurd primitive (IsType.not_isPrimitive (.inl root))
  | element _ array' => exact absurd primitive (not_isPrimitive_of_array array')

/-- A leaf descends from no array. -/
theorem not_descends_array (isLeaf : world.IsLeaf leaf) (array : world.shape? b = some (.array y)) :
    ¬ world.Descends leaf.internalName b := by
  intro h
  cases isLeaf with
  | base base =>
    have same := not_descends_of_primitive ⟨base, shape?_base base⟩ h
    rw [same, shape?_base base] at array
    cases array
  | object isType => exact (lawful.isType_of_descends isType h).not_array array

variable (spans : world.Spans extent)

include spans

/-- **An array has only the root in common with a type** from which it does not descend and which
does not descend from it, unless both are arrays of references. -/
theorem meets_rootName (resolvesA : world.resolves a = true) (resolvesB : world.resolves b = true)
    (array : (∃ x, world.shape? a = some (.array x)) ∨ ∃ y, world.shape? b = some (.array y))
    (flat : world.referenceElement a = none ∨ world.referenceElement b = none)
    (up : world.Descends a b → b = rootName) (down : world.Descends b a → a = rootName) :
    world.Meets a b rootName := by
  rw [lawful.meets_iff_descends spans resolvesA resolvesB]
  by_cases descends : world.Descends a b
  · exact .inl ⟨descends, (up descends).symm⟩
  refine .inr ⟨descends, ?_⟩
  by_cases descends' : world.Descends b a
  · exact .inl ⟨descends', (down descends').symm⟩
  refine .inr ⟨descends', ?_⟩
  obtain ⟨above, listed⟩ := lawful.exists_lists spans resolvesA
  obtain ⟨above', listed'⟩ := lawful.exists_lists spans resolvesB
  have root : (firstShared above above').getD rootName = rootName := by
    rcases firstShared_cases above above' with root | ⟨member, member'⟩
    · exact root
    rcases of_mem_lists listed member with same | root | ⟨isTypeA, -, up'⟩
    · rcases of_mem_lists listed' member' with same' | root | ⟨-, -, down'⟩
      · exact absurd (same.symm.trans same' ▸ .self a) descends
      · exact root
      · exact absurd (same ▸ down') descends'
    · exact root
    · rcases of_mem_lists listed' member' with same' | root | ⟨isTypeB, -⟩
      · exact absurd (same' ▸ up') descends
      · exact root
      · -- Neither of the two would be an array.
        rcases array with ⟨x, array⟩ | ⟨y, array⟩
        · exact absurd array isTypeA.not_array
        · exact absurd array isTypeB.not_array
  have apart : world.Unrelated a b ((firstShared above above').getD rootName) :=
    .ancestors flat listed listed'
  rwa [root] at apart

/-- Arrays of references have in common the array of what their elements have in common. -/
theorem meets_of_elements (resolvesA : world.resolves a = true)
    (resolvesB : world.resolves b = true) (first : world.referenceElement a = some x)
    (second : world.referenceElement b = some y) (h : world.Meets x y c) :
    world.Meets a b (arrayDescriptor c) := by
  have arrayA := shape?_of_referenceElement first
  have arrayB := shape?_of_referenceElement second
  have notUp (apart : ¬ world.Descends x y) : ¬ world.Descends a b := by
    rw [descends_array_iff arrayA arrayB]
    rintro (rfl | up)
    · obtain rfl := Option.some.inj (first.symm.trans second)
      exact apart (.self x)
    · exact apart up
  rw [lawful.meets_iff_descends spans resolvesA resolvesB]
  rcases (lawful.meets_iff_descends spans (resolves_array arrayA ▸ resolvesA)
    (resolves_array arrayB ▸ resolvesB)).1 h with
      ⟨up, rfl⟩ | ⟨apart, ⟨down, rfl⟩ | ⟨notDown, -⟩⟩
  · exact .inl ⟨.element arrayA arrayB up, arrayDescriptor_of_referenceElement second⟩
  · exact .inr ⟨notUp apart,
      .inl ⟨.element arrayB arrayA down, arrayDescriptor_of_referenceElement first⟩⟩
  · refine .inr ⟨notUp apart, .inr ⟨?_, .elements first second h⟩⟩
    rw [descends_array_iff arrayB arrayA]
    rintro (rfl | down)
    · obtain rfl := Option.some.inj (first.symm.trans second)
      exact notDown (.self x)
    · exact notDown down

/-- What classes or interfaces have in common is a class or interface. -/
theorem isType_of_meets (isTypeA : world.IsType a) (isTypeB : world.IsType b)
    (h : world.Meets a b c) : world.IsType c := by
  rcases lawful.cases_of_meets spans isTypeA isTypeB h with
    ⟨-, rfl⟩ | ⟨-, -, rfl⟩ | ⟨-, -, first⟩
  · exact isTypeB
  · exact isTypeA
  · cases first with
    | nearest nearest =>
      obtain ⟨declaration, shape, -⟩ := nearest.1.1
      exact .inr ⟨declaration, shape⟩
    | ranked _ ranked => exact .inr (exists_of_isInterface ranked.1.1)
    | root => exact isType_rootName

/-! ## The rule for arrays -/

section Arrays

variable (wellNamed : world.WellNamed) (isLeaf : world.IsLeaf p) (isLeaf' : world.IsLeaf q)

include wellNamed isLeaf isLeaf'

/-- **An array and a leaf have the root in common**, in both orders. -/
theorem meets_array_leaf (layers : Nat) :
    world.Meets (arrays (layers + 1) p).internalName q.internalName rootName ∧
      world.Meets q.internalName (arrays (layers + 1) p).internalName rootName := by
  have array := isLeaf.shape?_arrays wellNamed layers
  have resolves := isLeaf.resolves_arrays wellNamed (layers + 1)
  have resolves' : world.resolves q.internalName = true := isLeaf'.resolves_arrays wellNamed 0
  have flat : world.referenceElement q.internalName = none := by
    cases element : world.referenceElement q.internalName with
    | none => rfl
    | some y => exact absurd (shape?_of_referenceElement element) isLeaf'.not_array
  have up := eq_rootName_of_array_descends array fun _ => isLeaf'.not_array
  have down := lawful.not_descends_array isLeaf' array
  exact ⟨lawful.meets_rootName spans resolves resolves' (.inl ⟨_, array⟩) (.inr flat) up
      fun h => absurd h down,
    lawful.meets_rootName spans resolves' resolves (.inr ⟨_, array⟩) (.inl flat)
      (fun h => absurd h down) up⟩

/-- Two arrays of different elements, one of which is primitive, have the root in common. -/
theorem meets_of_primitive_element
    (apart : (arrays m p).internalName ≠ (arrays n q).internalName)
    (primitive : world.IsPrimitive (arrays m p).internalName ∨
      world.IsPrimitive (arrays n q).internalName) :
    world.Meets (arrays (m + 1) p).internalName (arrays (n + 1) q).internalName rootName := by
  have array := isLeaf.shape?_arrays wellNamed m
  have array' := isLeaf'.shape?_arrays wellNamed n
  have notUp {a b x y : String} (arrayA : world.shape? a = some (.array x))
      (arrayB : world.shape? b = some (.array y)) (apart : x ≠ y)
      (primitive : world.IsPrimitive x ∨ world.IsPrimitive y) : ¬ world.Descends a b := by
    rw [descends_array_iff arrayA arrayB]
    rintro (rfl | up)
    · exact apart (Shape.array.inj (Option.some.inj (arrayA.symm.trans arrayB)))
    · rcases primitive with primitive | primitive
      · exact apart (not_descends_of_primitive primitive up).symm
      · exact apart (lawful.eq_of_descends_primitive primitive up)
  have flat {a x : String} (arrayA : world.shape? a = some (.array x))
      (primitive : world.IsPrimitive x) : world.referenceElement a = none := by
    cases element : world.referenceElement a with
    | none => rfl
    | some x' =>
      obtain ⟨arrayA', reference⟩ := referenceElement_iff.1 element
      obtain rfl := Shape.array.inj (Option.some.inj (arrayA'.symm.trans arrayA))
      exact absurd primitive reference
  exact lawful.meets_rootName spans (isLeaf.resolves_arrays wellNamed (m + 1))
    (isLeaf'.resolves_arrays wellNamed (n + 1)) (.inl ⟨_, array⟩)
    (primitive.imp (flat array) (flat array'))
    (fun up => absurd up (notUp array array' apart primitive))
    fun down => absurd down (notUp array' array apart.symm primitive.symm)

/-- A layer on two references is a layer on what they have in common. -/
theorem meets_array (reference : ¬ world.IsPrimitive (arrays m p).internalName)
    (reference' : ¬ world.IsPrimitive (arrays n q).internalName) (isLeaf'' : world.IsLeaf leaf)
    (layers : Nat) (refers : (arrays layers leaf).isPrimitive = false)
    (h : world.Meets (arrays m p).internalName (arrays n q).internalName
      (arrays layers leaf).internalName) :
    world.Meets (arrays (m + 1) p).internalName (arrays (n + 1) q).internalName
      (arrays (layers + 1) leaf).internalName := by
  have bare := (FieldType.hasPlainCore_iff.1 (isLeaf''.hasPlainCore wellNamed layers)).2
  have named : (arrays (layers + 1) leaf).internalName =
      arrayDescriptor (arrays layers leaf).internalName :=
    FieldType.internalName_array refers bare
  rw [named]
  exact lawful.meets_of_elements spans (isLeaf.resolves_arrays wellNamed (m + 1))
    (isLeaf'.resolves_arrays wellNamed (n + 1))
    (referenceElement_iff.2 ⟨isLeaf.shape?_arrays wellNamed m, reference⟩)
    (referenceElement_iff.2 ⟨isLeaf'.shape?_arrays wellNamed n, reference'⟩) h

omit wellNamed in
/-- What two arrays have in common by the rule is a number of layers around a leaf, and not a
primitive type. -/
theorem exists_arraysInCommon (shares : world.Meets p.internalName q.internalName shared) :
    ∃ layers leaf, arraysInCommon shared (m + 1) p (n + 1) q = arrays layers leaf ∧
      world.IsLeaf leaf ∧ (arrays layers leaf).isPrimitive = false := by
  have root : world.IsLeaf (.object rootName) := .object isType_rootName
  have refers (layers : Nat) (name : String) :
      (arrays layers (.object name)).isPrimitive = false := by
    cases layers <;> rfl
  unfold arraysInCommon
  split_ifs with less more reference same
  · exact ⟨_, _, rfl, root, refers _ _⟩
  · exact ⟨_, _, rfl, root, refers _ _⟩
  · have isType := lawful.isType_of_meets spans (isLeaf.isType reference.1)
      (isLeaf'.isType reference.2) shares
    exact ⟨_, _, rfl, .object isType, refers _ _⟩
  · exact ⟨_, _, rfl, isLeaf, rfl⟩
  · exact ⟨_, _, rfl, root, refers _ _⟩

/-- Arrays of leaves have in common what the rule gives them. -/
theorem meets_arrays_of_leaves (shares : world.Meets p.internalName q.internalName shared) :
    world.Meets (arrays 1 p).internalName (arrays 1 q).internalName
      (arraysInCommon shared 1 p 1 q).internalName := by
  by_cases reference : p.isPrimitive = false ∧ q.isPrimitive = false
  · have isType := isLeaf.isType reference.1
    have isType' := isLeaf'.isType reference.2
    have rule : arraysInCommon shared 1 p 1 q = .array (.object shared) := by
      simp [arraysInCommon, reference, arrays]
    rw [rule]
    have isLeaf'' : world.IsLeaf (.object shared) :=
      .object (lawful.isType_of_meets spans isType isType' shares)
    exact lawful.meets_array spans wellNamed isLeaf isLeaf' (m := 0) (n := 0)
      isType.not_isPrimitive isType'.not_isPrimitive isLeaf'' 0 rfl shares
  by_cases same : p = q
  · subst same
    have resolves := isLeaf.resolves_arrays wellNamed 1
    have rule : arraysInCommon shared 1 p 1 p = arrays 1 p := by simp_all [arraysInCommon]
    rw [rule]
    exact (lawful.meets_iff_descends spans resolves resolves).2 (.inl ⟨.self _, rfl⟩)
  · have rule : arraysInCommon shared 1 p 1 q = .object rootName := by
      simp [arraysInCommon, reference, same, arrays]
    have primitive : world.IsPrimitive p.internalName ∨ world.IsPrimitive q.internalName := by
      rw [isLeaf.isPrimitive_iff, isLeaf'.isPrimitive_iff]
      cases first : p.isPrimitive <;> simp_all
    rw [rule]
    exact lawful.meets_of_primitive_element spans wellNamed isLeaf isLeaf'
      (fun named => same (isLeaf.eq_of_internalName isLeaf' named)) primitive

/-- The array of a leaf and a deeper array have in common, in both orders, the array of the root,
or only the root if the leaf is primitive. -/
theorem meets_deeper_array (n : Nat) :
    world.Meets (arrays 1 p).internalName (arrays (n + 2) q).internalName
        (rootArrays 1 p).internalName ∧
      world.Meets (arrays (n + 2) q).internalName (arrays 1 p).internalName
        (rootArrays 1 p).internalName := by
  have notPrimitive := not_isPrimitive_of_array (isLeaf'.shape?_arrays wellNamed n)
  by_cases primitive : world.IsPrimitive p.internalName
  · have apart : p.internalName ≠ (arrays (n + 1) q).internalName :=
      fun same => notPrimitive (same ▸ primitive)
    have rule : rootArrays 1 p = .object rootName := by
      simp [rootArrays, isLeaf.isPrimitive_iff.1 primitive, arrays]
    rw [rule]
    exact ⟨lawful.meets_of_primitive_element spans wellNamed isLeaf isLeaf' apart (.inl primitive),
      lawful.meets_of_primitive_element spans wellNamed isLeaf' isLeaf apart.symm (.inr primitive)⟩
  · have rule : rootArrays 1 p = .array (.object rootName) := by
      simp [rootArrays, Bool.not_eq_true _ ▸ isLeaf.isPrimitive_iff.not.1 primitive, arrays]
    have root : world.IsLeaf (.object rootName) := .object isType_rootName
    have inner := lawful.meets_array_leaf spans wellNamed isLeaf' isLeaf n
    rw [rule]
    exact ⟨lawful.meets_array spans wellNamed isLeaf isLeaf' (m := 0) primitive notPrimitive root 0
        rfl inner.2,
      lawful.meets_array spans wellNamed isLeaf' isLeaf (n := 0) notPrimitive primitive root 0 rfl
        inner.1⟩

/-- **What two arrays have in common follows the rule for arrays.** -/
theorem meets_arrays (shares : world.Meets p.internalName q.internalName shared) (m n : Nat) :
    world.Meets (arrays (m + 1) p).internalName (arrays (n + 1) q).internalName
      (arraysInCommon shared (m + 1) p (n + 1) q).internalName := by
  -- One layer is taken off both arrays at a time, until one of the elements is a leaf.
  induction m generalizing n with
  | zero =>
    cases n with
    | zero => exact lawful.meets_arrays_of_leaves spans wellNamed isLeaf isLeaf' shares
    | succ n =>
      have rule : arraysInCommon shared 1 p (n + 2) q = rootArrays 1 p := if_pos (by omega)
      rw [rule]
      exact (lawful.meets_deeper_array spans wellNamed isLeaf isLeaf' n).1
  | succ m ih =>
    cases n with
    | zero =>
      have rule : arraysInCommon shared (m + 2) p 1 q = rootArrays 1 q :=
        (if_neg (by omega)).trans (if_pos (by omega))
      rw [rule]
      exact (lawful.meets_deeper_array spans wellNamed isLeaf' isLeaf m).2
    | succ n =>
      have inner := ih n
      obtain ⟨layers, leaf, rule, isLeaf'', refers⟩ :=
        lawful.exists_arraysInCommon spans isLeaf isLeaf' (m := m) (n := n) shares
      rw [FieldType.arraysInCommon_succ]
      rw [rule] at inner ⊢
      exact lawful.meets_array spans wellNamed isLeaf isLeaf'
        (not_isPrimitive_of_array (isLeaf.shape?_arrays wellNamed m))
        (not_isPrimitive_of_array (isLeaf'.shape?_arrays wellNamed n)) isLeaf'' layers refers inner

end Arrays

end Lawful

end Universe

end ClassLattice
