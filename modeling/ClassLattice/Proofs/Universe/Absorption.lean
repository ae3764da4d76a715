import ClassLattice.Proofs.Universe.Plain
import ClassLattice.Proofs.Universe.Shared

/-!
# What is in common is above both

In a lawful universe whose names are plain, what two types have in common is a type that has itself
in common with each of the two.
-/

set_option autoImplicit false

namespace ClassLattice

namespace Universe

variable {world : Universe} {a b c x y inner : String} {extent : Nat} {names : List String}

/-- What a name has in common with another, in either order, is the other. -/
def Absorbs (world : Universe) (a c : String) : Prop := ∀ c', world.Shares a c c' → c' = c

/-- A class, an interface or an array that two names absorb. -/
structure Bounds (world : Universe) (a b c : String) : Prop where
  first : world.Absorbs a c
  second : world.Absorbs b c
  resolves : world.resolves c = true
  reference : world.IsType c ∨ ∃ element, world.shape? c = some (.array element)

/-! ## Arrays and the root -/

/-- An array descends from another if they are the same or the element does. -/
theorem descends_array_iff (arrayA : world.shape? a = some (.array x))
    (arrayB : world.shape? b = some (.array y)) :
    world.Descends a b ↔ a = b ∨ world.Descends x y := by
  constructor
  · intro h
    cases h with
    | self => exact .inl rfl
    | above edge => exact absurd arrayA (edge_extends edge).not_array
    | root _ root =>
      rw [arrayB] at root
      cases root
    | element array array' h =>
      obtain rfl := Shape.array.inj (Option.some.inj (array.symm.trans arrayA))
      obtain rfl := Shape.array.inj (Option.some.inj (array'.symm.trans arrayB))
      exact .inr h
  · rintro (rfl | h)
    · exact .self a
    · exact .element arrayA arrayB h

/-- The root descends from nothing but itself. -/
theorem eq_of_root_descends (h : world.Descends rootName c) : c = rootName := by
  have root : world.shape? rootName = some .root := shape?_root_iff.2 rfl
  cases h with
  | self => rfl
  | above edge =>
    obtain ⟨declaration, shape, -⟩ := edge_extends edge
    rw [root] at shape
    cases shape
  | root array =>
    rw [root] at array
    cases array
  | element array =>
    rw [root] at array
    cases array

/-- The ancestors of a name are the name itself, the root, and for a class or interface others from
which it descends. -/
theorem of_mem_lists (h : world.Lists a names) (member : c ∈ names) :
    c = a ∨ c = rootName ∨ world.IsType a ∧ world.IsType c ∧ world.Descends a c := by
  by_cases isType : world.IsType a
  · obtain ⟨chain, ranked, ranking, rfl⟩ := exists_ranking isType h
    rcases ranking.mem_iff.1 member with ⟨isClass, path⟩ | ⟨interface, path⟩ | root
    · obtain ⟨declaration, shape, -⟩ := isClass
      exact .inr (.inr ⟨isType, .inr ⟨declaration, shape⟩, descends_of_superclasses path⟩)
    · obtain ⟨declaration, shape⟩ := exists_of_isInterface interface
      exact .inr (.inr ⟨isType, .inr ⟨declaration, shape⟩, descends_of_interface interface path⟩)
    · exact .inr (.inl root)
  · obtain ⟨limit, listed⟩ := h
    unfold flatten at listed
    split at listed
    · cases listed
    · rename_i root
      exact absurd (.inl root) isType
    · obtain rfl := Option.some.inj listed
      exact .inl (List.mem_singleton.1 member)
    · obtain rfl := Option.some.inj listed
      rcases List.mem_cons.1 member with same | later
      · exact .inl same
      · exact .inr (.inl (List.mem_singleton.1 later))
    · rename_i declaration shape
      exact absurd (.inr ⟨declaration, shape⟩) isType

/-- The first shared name is in both lists, unless it is the root. -/
theorem firstShared_cases (names others : List String) :
    (firstShared names others).getD rootName = rootName ∨
      (firstShared names others).getD rootName ∈ names ∧
        (firstShared names others).getD rootName ∈ others := by
  unfold firstShared
  cases found : names.find? others.contains with
  | none => exact .inl rfl
  | some c =>
    refine .inr ⟨List.mem_of_find?_eq_some found, ?_⟩
    have contained : others.contains c = true := List.find?_some found
    simpa using contained

/-! ## Absorption -/

/-- Every name is absorbed by itself. -/
theorem absorbs_self (a : String) : world.Absorbs a a := by
  have same {c : String} (meets : world.Meets a a c) : c = a := by
    rcases (meets_iff.1 meets).2.2 with ⟨-, same⟩ | ⟨⟨depth, apart⟩, -⟩
    · exact same
    · exact absurd (.self a) (not_descends_of_search apart)
  exact fun c shares => shares.elim same same

/-- The root is a class or interface. -/
theorem isType_rootName : world.IsType rootName := .inl (shape?_root_iff.2 rfl)

/-- The root shares only the root with an unrelated type. -/
theorem Unrelated.eq_rootName (h : world.Unrelated a b c) (root : a = rootName ∨ b = rootName) :
    c = rootName := by
  have alone {names : List String} (lists : world.Lists rootName names)
      (member : c ∈ names) : c = rootName := by
    rcases of_mem_lists lists member with same | same | ⟨-, -, descends⟩
    · exact same
    · exact same
    · exact eq_of_root_descends descends
  cases h with
  | elements first second =>
    have none : world.referenceElement rootName = none := isType_rootName.referenceElement
    rcases root with rfl | rfl
    · rw [none] at first
      cases first
    · rw [none] at second
      cases second
  | ancestors _ first second =>
    rcases firstShared_cases _ _ with same | ⟨member, member'⟩
    · exact same
    · rcases root with rfl | rfl
      · exact alone first member
      · exact alone second member'

/-- An array of references has its element as a reference. -/
theorem referenceElement_of_array (array : world.shape? c = some (.array inner))
    (reference : world.IsType inner ∨ ∃ element, world.shape? inner = some (.array element)) :
    world.referenceElement c = some inner := by
  unfold Universe.referenceElement
  rw [array]
  dsimp only
  rcases reference with (root | ⟨declaration, shape⟩) | ⟨element, shape⟩
  · rw [root]
  · rw [shape]
  · rw [shape]

/-- An array is spelt as the array of its element, if that is a reference. -/
theorem arrayDescriptor_of_referenceElement (h : world.referenceElement a = some x) :
    arrayDescriptor x = a := by
  have array := shape?_of_referenceElement h
  refine arrayDescriptor_of_layout (shape?_array_iff.1 array).2 ?_
  cases denoted : BaseType.ofName? x with
  | none => rfl
  | some base =>
    rw [Universe.referenceElement, array] at h
    dsimp only at h
    rw [shape?_of_ofName? denoted] at h
    cases h

namespace Lawful

variable (lawful : world.Lawful) (spans : world.Spans extent)

include lawful spans

/-- **The root absorbs every name.** -/
theorem absorbs_root (resolves : world.resolves a = true) : world.Absorbs a rootName := by
  have root : world.resolves rootName = true := isType_rootName.resolves
  rintro c' (meets | meets)
  · rcases (lawful.meets_iff_descends spans resolves root).1 meets with
      ⟨-, same⟩ | ⟨notUp, ⟨down, -⟩ | ⟨-, apart⟩⟩
    · exact same
    · exact absurd (eq_of_root_descends down ▸ .self a) notUp
    · exact apart.eq_rootName (.inr rfl)
  · rcases (lawful.meets_iff_descends spans root resolves).1 meets with
      ⟨up, same⟩ | ⟨-, ⟨-, same⟩ | ⟨-, apart⟩⟩
    · exact same.trans (eq_of_root_descends up)
    · exact same
    · exact apart.eq_rootName (.inl rfl)

/-- A name is absorbed by every other that it descends from, unless they descend from each other. -/
theorem absorbs_of_descends (resolvesA : world.resolves a = true)
    (resolvesC : world.resolves c = true) (up : world.Descends a c)
    (notDown : ¬ world.Descends c a) : world.Absorbs a c := by
  rintro c' (meets | meets)
  · rcases (lawful.meets_iff_descends spans resolvesA resolvesC).1 meets with
      ⟨-, same⟩ | ⟨notUp, -⟩
    · exact same
    · exact absurd up notUp
  · rcases (lawful.meets_iff_descends spans resolvesC resolvesA).1 meets with
      ⟨down, -⟩ | ⟨-, ⟨-, same⟩ | ⟨notUp, -⟩⟩
    · exact absurd down notDown
    · exact same
    · exact absurd up notUp

/-- An array is absorbed by another if its element is absorbed by the element. -/
theorem absorbs_of_elements (resolvesA : world.resolves a = true)
    (resolvesC : world.resolves c = true) (first : world.referenceElement a = some x)
    (second : world.referenceElement c = some inner) (nameA : arrayDescriptor x = a)
    (nameC : arrayDescriptor inner = c) (h : world.Absorbs x inner) : world.Absorbs a c := by
  have arrayA := shape?_of_referenceElement first
  have arrayC := shape?_of_referenceElement second
  have resolvesX := resolves_array arrayA ▸ resolvesA
  have resolvesI := resolves_array arrayC ▸ resolvesC
  have elements (p q answer : String) (pq : p = a ∧ q = c ∨ p = c ∧ q = a)
      (apart : world.Unrelated p q answer) : answer = c := by
    cases apart with
    | @elements x' y' found first' second' meets =>
      have same : found = inner := by
        rcases pq with ⟨rfl, rfl⟩ | ⟨rfl, rfl⟩
        · obtain rfl := Option.some.inj (first.symm.trans first')
          obtain rfl := Option.some.inj (second.symm.trans second')
          exact h found (.inl meets)
        · obtain rfl := Option.some.inj (second.symm.trans first')
          obtain rfl := Option.some.inj (first.symm.trans second')
          exact h found (.inr meets)
      rw [same, nameC]
    | ancestors flat =>
      rcases pq with ⟨rfl, rfl⟩ | ⟨rfl, rfl⟩
      · rw [first, second] at flat
        rcases flat with none | none <;> cases none
      · rw [first, second] at flat
        rcases flat with none | none <;> cases none
  rintro c' (meets | meets)
  · rcases (lawful.meets_iff_descends spans resolvesA resolvesC).1 meets with
      ⟨-, same⟩ | ⟨notUp, ⟨down, -⟩ | ⟨-, apart⟩⟩
    · exact same
    · rw [descends_array_iff arrayA arrayC] at notUp
      rcases (descends_array_iff arrayC arrayA).1 down with same | down
      · exact absurd (.inl same.symm) notUp
      · have same := h x (.inl ((lawful.meets_iff_descends spans resolvesX resolvesI).2
          (.inr ⟨fun up => notUp (.inr up), .inl ⟨down, rfl⟩⟩)))
        exact absurd (.inr (same ▸ .self x)) notUp
    · exact elements a c c' (.inl ⟨rfl, rfl⟩) apart
  · rcases (lawful.meets_iff_descends spans resolvesC resolvesA).1 meets with
      ⟨up, same⟩ | ⟨-, ⟨-, same⟩ | ⟨-, apart⟩⟩
    · rcases (descends_array_iff arrayC arrayA).1 up with same' | up
      · exact same.trans same'.symm
      · have same' := h x (.inr ((lawful.meets_iff_descends spans resolvesI resolvesX).2
          (.inl ⟨up, rfl⟩)))
        rw [same, ← nameA, same', nameC]
    · exact same
    · exact elements c a c' (.inr ⟨rfl, rfl⟩) apart

/-- The root bounds all names that resolve. -/
theorem bounds_root (resolvesA : world.resolves a = true) (resolvesB : world.resolves b = true) :
    world.Bounds a b rootName where
  first := lawful.absorbs_root spans resolvesA
  second := lawful.absorbs_root spans resolvesB
  resolves := isType_rootName.resolves
  reference := .inl isType_rootName

/-- The first shared ancestor of two names bounds them. -/
theorem bounds_of_ancestors (resolvesA : world.resolves a = true)
    (resolvesB : world.resolves b = true) (notUp : ¬ world.Descends a b)
    (notDown : ¬ world.Descends b a) {above aboveOther : List String}
    (first : world.Lists a above) (second : world.Lists b aboveOther) :
    world.Bounds a b ((firstShared above aboveOther).getD rootName) := by
  have root := lawful.bounds_root spans resolvesA resolvesB
  rcases firstShared_cases above aboveOther with same | ⟨member, member'⟩
  · rw [same]
    exact root
  generalize (firstShared above aboveOther).getD rootName = c at member member' ⊢
  rcases of_mem_lists first member with rfl | rfl | ⟨isTypeA, isTypeC, upA⟩
  · rcases of_mem_lists second member' with rfl | rfl | ⟨-, -, upB⟩
    · exact absurd (.self c) notUp
    · exact root
    · exact absurd upB notDown
  · exact root
  · rcases of_mem_lists second member' with rfl | rfl | ⟨isTypeB, -, upB⟩
    · exact absurd upA notUp
    · exact root
    · refine ⟨lawful.absorbs_of_descends spans resolvesA isTypeC.resolves upA fun down => ?_,
        lawful.absorbs_of_descends spans resolvesB isTypeC.resolves upB fun down => ?_,
        isTypeC.resolves, .inl isTypeC⟩
      · exact notDown (lawful.descends_antisymm isTypeA isTypeC upA down ▸ upB)
      · exact notUp (lawful.descends_antisymm isTypeB isTypeC upB down ▸ upA)

/-- **What two unrelated names have in common bounds them.** -/
theorem bounds_of_unrelated (wellNamed : world.WellNamed) (resolvesA : world.resolves a = true)
    (resolvesB : world.resolves b = true) (notUp : ¬ world.Descends a b)
    (notDown : ¬ world.Descends b a) (h : world.Unrelated a b c) : world.Bounds a b c := by
  -- The elements of two arrays have fewer layers than the arrays.
  induction same : layers a using Nat.strongRecOn generalizing a b c with
  | _ depth ih =>
    cases h with
    | @elements x y inner first second meets =>
      have arrayA := shape?_of_referenceElement first
      have arrayB := shape?_of_referenceElement second
      have deeper := layers_of_layout (shape?_array_iff.1 arrayA).2
      have resolvesX := resolves_array arrayA ▸ resolvesA
      have resolvesY := resolves_array arrayB ▸ resolvesB
      have notUpX : ¬ world.Descends x y :=
        fun up => notUp ((descends_array_iff arrayA arrayB).2 (.inr up))
      have notDownX : ¬ world.Descends y x :=
        fun down => notDown ((descends_array_iff arrayB arrayA).2 (.inr down))
      have apart : world.Unrelated x y inner := by
        rcases (lawful.meets_iff_descends spans resolvesX resolvesY).1 meets with
          ⟨up, -⟩ | ⟨-, ⟨down, -⟩ | ⟨-, apart⟩⟩
        · exact absurd up notUpX
        · exact absurd down notDownX
        · exact apart
      have bounds := ih (layers x) (by omega) resolvesX resolvesY notUpX notDownX apart rfl
      have arrayC := wellNamed.shape?_arrayDescriptor bounds.reference
      have elementC := referenceElement_of_array arrayC bounds.reference
      have resolvesC : world.resolves (arrayDescriptor inner) = true :=
        (resolves_array arrayC).trans bounds.resolves
      exact ⟨lawful.absorbs_of_elements spans resolvesA resolvesC first elementC
          (arrayDescriptor_of_referenceElement first) rfl bounds.first,
        lawful.absorbs_of_elements spans resolvesB resolvesC second elementC
          (arrayDescriptor_of_referenceElement second) rfl bounds.second,
        resolvesC, .inr ⟨inner, arrayC⟩⟩
    | ancestors _ first second =>
      exact lawful.bounds_of_ancestors spans resolvesA resolvesB notUp notDown first second

/-- What two names share is one of them, from which the other descends, or bounds them. -/
theorem cases_of_shares (wellNamed : world.WellNamed) (h : world.Shares a b c) :
    (c = a ∧ world.Descends b a) ∨ (c = b ∧ world.Descends a b) ∨ world.Bounds a b c := by
  rcases h with meets | meets
  · obtain ⟨resolvesA, resolvesB, -⟩ := meets_iff.1 meets
    rcases (lawful.meets_iff_descends spans resolvesA resolvesB).1 meets with
      ⟨up, same⟩ | ⟨notUp, ⟨down, same⟩ | ⟨notDown, apart⟩⟩
    · exact .inr (.inl ⟨same, up⟩)
    · exact .inl ⟨same, down⟩
    · exact .inr (.inr
        (lawful.bounds_of_unrelated spans wellNamed resolvesA resolvesB notUp notDown apart))
  · obtain ⟨resolvesB, resolvesA, -⟩ := meets_iff.1 meets
    rcases (lawful.meets_iff_descends spans resolvesB resolvesA).1 meets with
      ⟨down, same⟩ | ⟨notDown, ⟨up, same⟩ | ⟨notUp, apart⟩⟩
    · exact .inl ⟨same, down⟩
    · exact .inr (.inl ⟨same, up⟩)
    · have bounds :=
        lawful.bounds_of_unrelated spans wellNamed resolvesB resolvesA notDown notUp apart
      exact .inr (.inr ⟨bounds.second, bounds.first, bounds.resolves, bounds.reference⟩)

end Lawful

end Universe

end ClassLattice
