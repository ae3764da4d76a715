import ClassLattice.Proofs.Universe.Lawful

/-!
# Descent

The subtype test on names decides descent along declared supertypes: superclasses for every type,
and interfaces too where the type that is looked for is an interface.  Every array descends from
the root, and an array from another if its element descends from that of the other.
-/

set_option autoImplicit false

namespace ClassLattice.Universe

open Relation

variable {world : Universe} {path : List String} {x y z parent : String} {depth extent : Nat}

/-- A name has another as its superclass. -/
def HasSuperclass (world : Universe) (name parent : String) : Prop :=
  ∃ declaration, world.shape? name = some (.declared declaration) ∧
    declaration.superName = some parent

/-- **A name descends from another.** -/
inductive Descends (world : Universe) : String → String → Prop
  | self (x : String) : Descends world x x
  | above {x parent y : String}
      (edge : world.HasSuperclass x parent ∨
        world.isInterface y = true ∧ world.Extends x parent)
      (h : Descends world parent y) : Descends world x y
  | root {x y element : String} (array : world.shape? x = some (.array element))
      (root : world.shape? y = some .root) : Descends world x y
  | element {x y element other : String} (array : world.shape? x = some (.array element))
      (array' : world.shape? y = some (.array other)) (h : Descends world element other) :
      Descends world x y

/-- A superclass is a supertype. -/
theorem HasSuperclass.extends (h : world.HasSuperclass x parent) : world.Extends x parent := by
  obtain ⟨declaration, shape, superName⟩ := h
  exact extends_superName shape superName

/-- An edge that a search takes leads to a supertype. -/
theorem edge_extends (h : world.HasSuperclass x parent ∨
    world.isInterface y = true ∧ world.Extends x parent) : world.Extends x parent :=
  h.elim HasSuperclass.extends And.right

/-- A walk above a type finds only what the type descends from. -/
theorem descends_of_climb {walk : String → Option Bool} {declaration : Declaration}
    (shape : world.shape? x = some (.declared declaration))
    (sound : ∀ parent, walk parent = some true → world.Descends parent y)
    (h : world.climb walk y declaration = some true) : world.Descends x y := by
  rcases climb_eq_some.1 h with ⟨above, -⟩ | ⟨-, beside⟩
  · unfold findAbove at above
    cases superName : declaration.superName with
    | none => simp [superName] at above
    | some parent =>
      have edge : world.HasSuperclass x parent := ⟨declaration, shape, superName⟩
      simp only [superName] at above
      split_ifs at above with same resolves
      · exact .above (.inl edge) (same ▸ .self parent)
      · exact .above (.inl edge) (sound parent above)
  · unfold findBeside at beside
    split_ifs at beside with interface resolve
    · obtain ⟨passed, parent, rest, split, -, found⟩ := anyM_eq_true.1 beside
      have member : parent ∈ declaration.interfaceNames := by
        rw [← List.mem_reverse, split]
        exact List.mem_append_right _ List.mem_cons_self
      exact .above (.inr ⟨interface, extends_interface shape member⟩) (sound parent found)
    · simp at beside

/-- A walk above a type that finds nothing has tried every edge that counts. -/
theorem walk_eq_false_of_climb (walk : String → Option Bool) {declaration : Declaration}
    (shape : world.shape? x = some (.declared declaration))
    (h : world.climb walk y declaration = some false)
    (edge : world.HasSuperclass x parent ∨ world.isInterface y = true ∧ world.Extends x parent) :
    walk parent = some false := by
  obtain ⟨above, beside⟩ : _ ∧ _ := (climb_eq_some.1 h).resolve_left (by simp)
  have first (superName : declaration.superName = some parent) : walk parent = some false := by
    unfold findAbove at above
    simp only [superName] at above
    split_ifs at above with same resolves
    · cases above
    · exact above
  rcases edge with ⟨declaration', shape', superName⟩ | ⟨interface, declaration', shape', member⟩
  · obtain rfl := Shape.declared.inj (Option.some.inj (shape.symm.trans shape'))
    exact first superName
  · obtain rfl := Shape.declared.inj (Option.some.inj (shape.symm.trans shape'))
    rcases List.mem_append.1 member with superName | listed
    · exact first (by simpa using superName)
    · unfold findBeside at beside
      rw [if_pos interface] at beside
      split_ifs at beside
      exact anyM_eq_false.1 beside parent (List.mem_reverse.2 listed)

/-- What the walk finds, a name descends from. -/
theorem descends_of_search (h : world.search depth path x y = some true) :
    world.Descends x y := by
  induction depth generalizing path x y with
  | zero => cases h
  | succ depth ih =>
    rw [search] at h
    by_cases same : x = y
    · exact same ▸ .self x
    rw [if_neg same] at h
    cases shape : world.shape? x with
    | none => simp [shape] at h
    | some found =>
      rw [shape] at h
      cases found with
      | root => simp at h
      | primitive => simp at h
      | array element =>
        dsimp only at h
        split at h
        · rename_i root
          exact .root shape root
        · rename_i other array
          exact .element shape array (ih h)
        · simp at h
      | declared declaration =>
        dsimp only at h
        split_ifs at h with lists seen
        · obtain ⟨interface, listed⟩ := (Bool.and_eq_true _ _).mp lists
          have listed : y ∈ declaration.interfaceNames := by simpa using listed
          exact .above (.inr ⟨interface, extends_interface shape listed⟩) (.self y)
        · exact descends_of_climb shape (fun parent found => ih found) h

/-- A search finds nothing only if the name does not descend from the goal. -/
theorem not_descends_of_search (h : world.search depth path x y = some false) :
    ¬ world.Descends x y := by
  induction depth generalizing path x y with
  | zero => cases h
  | succ depth ih =>
    rw [search] at h
    by_cases same : x = y
    · rw [if_pos same] at h
      cases h
    rw [if_neg same] at h
    intro descends
    cases descends with
    | self => exact same rfl
    | @above _ parent _ edge descends =>
      obtain ⟨declaration, shape, -⟩ := edge_extends edge
      rw [shape] at h
      dsimp only at h
      split_ifs at h with lists seen
      · cases h
      · exact ih (walk_eq_false_of_climb (world.search depth (x :: path) · y) shape h edge) descends
    | root array root =>
      rw [array, root] at h
      cases h
    | element array array' descends =>
      rw [array, array'] at h
      exact ih h descends

namespace Lawful

/-- **The subtype test decides descent.** -/
theorem finds_true_iff (lawful : world.Lawful) (spans : world.Spans extent)
    (resolves : world.resolves x = true) : world.Finds [] x y true ↔ world.Descends x y := by
  constructor
  · rintro ⟨depth, found⟩
    exact descends_of_search found
  · intro descends
    obtain ⟨found, depth, finds⟩ := lawful.exists_finds spans resolves y
    cases found with
    | true => exact ⟨depth, finds⟩
    | false => exact absurd descends (not_descends_of_search finds)

/-- **Nothing is found exactly if the name does not descend from the goal.** -/
theorem finds_false_iff (lawful : world.Lawful) (spans : world.Spans extent)
    (resolves : world.resolves x = true) : world.Finds [] x y false ↔ ¬ world.Descends x y := by
  constructor
  · rintro ⟨depth, found⟩
    exact not_descends_of_search found
  · intro apart
    exact lawful.not_finds_false spans resolves fun finds =>
      apart ((lawful.finds_true_iff spans resolves).1 finds)

/-- **What two names have in common** in terms of descent. -/
theorem meets_iff_descends {a b c : String} (lawful : world.Lawful) (spans : world.Spans extent)
    (resolvesA : world.resolves a = true) (resolvesB : world.resolves b = true) :
    world.Meets a b c ↔ (world.Descends a b ∧ c = b) ∨ (¬ world.Descends a b ∧
      ((world.Descends b a ∧ c = a) ∨ (¬ world.Descends b a ∧ world.Unrelated a b c))) := by
  rw [meets_iff, lawful.finds_true_iff spans resolvesA, lawful.finds_true_iff spans resolvesB,
    lawful.finds_false_iff spans resolvesA, lawful.finds_false_iff spans resolvesB]
  simp only [resolvesA, resolvesB, true_and]

/-- A class or interface that descends from another leads up to it. -/
theorem reflTransGen_of_descends (lawful : world.Lawful) (isType : world.IsType x)
    (h : world.Descends x y) : ReflTransGen world.Extends x y := by
  induction h with
  | self => exact .refl
  | above edge _ ih =>
    have extended := edge_extends edge
    exact .head extended (ih (lawful.closed _ _ extended))
  | root array => exact absurd array isType.not_array
  | element array => exact absurd array isType.not_array

/-- **No two classes or interfaces descend from each other.** -/
theorem descends_antisymm (lawful : world.Lawful) (isType : world.IsType x)
    (isType' : world.IsType y) (h : world.Descends x y) (h' : world.Descends y x) : x = y := by
  rcases reflTransGen_iff_eq_or_transGen.1 (lawful.reflTransGen_of_descends isType h) with same | up
  · exact same.symm
  · rcases reflTransGen_iff_eq_or_transGen.1 (lawful.reflTransGen_of_descends isType' h')
      with same | down
    · exact same
    · exact absurd (up.trans down) (lawful.acyclic x)

end Lawful

/-- A name descends from all its superclasses. -/
theorem descends_of_superclasses (h : ReflTransGen world.HasSuperclass x y) :
    world.Descends x y := by
  induction h using ReflTransGen.head_induction_on with
  | refl => exact .self y
  | head edge _ ih => exact .above (.inl edge) ih

/-- A name descends from all interfaces above it. -/
theorem descends_of_interface (interface : world.isInterface y = true)
    (h : ReflTransGen world.Extends x y) : world.Descends x y := by
  induction h using ReflTransGen.head_induction_on with
  | refl => exact .self y
  | head edge _ ih => exact .above (.inr ⟨interface, edge⟩) ih

end ClassLattice.Universe
