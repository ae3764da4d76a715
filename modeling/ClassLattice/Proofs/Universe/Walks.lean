import ClassLattice.Proofs.Universe.Search

/-!
# How walks up a hierarchy end

A walk goes from a type to its supertypes and from an array to its element, and remembers the types
that it is in the middle of.  It can run out of the depth it may go to, and it can be obstructed by
a type that it is in the middle of or by a supertype that cannot be looked up.
-/

set_option autoImplicit false

namespace ClassLattice.Universe

variable {world : Universe} {path : List String} {name parent element base : String}

/-- A name lists another among its direct supertypes. -/
def Extends (world : Universe) (name parent : String) : Prop :=
  ∃ declaration, world.shape? name = some (.declared declaration) ∧
    parent ∈ declaration.superTypeNames

/-- A name has another among its direct supertypes or as its element. -/
def Uses (world : Universe) (name other : String) : Prop :=
  world.Extends name other ∨ world.shape? name = some (.array other)

/-- Some names with all the names that they use. -/
def Upward (world : Universe) (types : String → Prop) : Prop :=
  ∀ name other, types name → world.Uses name other → types other

/-- A name and the names of all elements below it, as far as they are arrays. -/
inductive Nests (world : Universe) : String → String → Prop
  | self (name : String) : Nests world name name
  | element {name element inner : String} (h : world.shape? name = some (.array element))
      (below : Nests world element inner) : Nests world name inner

/-- A walk from a name can go up to a depth without an end. -/
inductive Deep (world : Universe) : Nat → List String → String → Prop
  | spent (path : List String) (name : String) : Deep world 0 path name
  | element {depth : Nat} {path : List String} {name element : String}
      (h : world.shape? name = some (.array element)) (below : Deep world depth path element) :
      Deep world (depth + 1) path name
  | above {depth : Nat} {path : List String} {name parent : String}
      (h : world.Extends name parent) (new : name ∉ path)
      (next : Deep world depth (name :: path) parent) : Deep world (depth + 1) path name

/-- A walk from a name can meet an obstacle. -/
inductive Obstructed (world : Universe) : List String → String → Prop
  | cyclic {path : List String} {name : String} (seen : name ∈ path) : Obstructed world path name
  | missing {path : List String} {name parent : String} (h : world.Extends name parent)
      (missing : world.resolves parent = false) : Obstructed world path name
  | element {path : List String} {name element : String}
      (h : world.shape? name = some (.array element)) (below : Obstructed world path element) :
      Obstructed world path name
  | above {path : List String} {name parent : String} (h : world.Extends name parent)
      (next : Obstructed world (name :: path) parent) : Obstructed world path name

/-- The superclass of a declaration is a supertype. -/
theorem extends_superName {declaration : Declaration}
    (shape : world.shape? name = some (.declared declaration))
    (h : declaration.superName = some parent) : world.Extends name parent :=
  ⟨declaration, shape, List.mem_append_left _ (by simp [h])⟩

/-- An interface of a declaration is a supertype. -/
theorem extends_interface {declaration : Declaration}
    (shape : world.shape? name = some (.declared declaration))
    (h : parent ∈ declaration.interfaceNames) : world.Extends name parent :=
  ⟨declaration, shape, List.mem_append_right _ h⟩

/-- Nothing but itself is nested in a declared type. -/
theorem Nests.eq_of_declared {declaration : Declaration} {inner : String}
    (h : world.Nests name inner) (shape : world.shape? name = some (.declared declaration)) :
    inner = name := by
  cases h with
  | self => rfl
  | element array _ =>
    rw [shape] at array
    cases array

/-- An interface that is nested in an array is nested in its element. -/
theorem Nests.of_array {inner : String} (h : world.Nests name inner)
    (shape : world.shape? name = some (.array element))
    (interface : world.isInterface inner = true) : world.Nests element inner := by
  cases h with
  | self => simp [isInterface, shape, Shape.isInterface] at interface
  | element array below =>
    obtain rfl := Shape.array.inj (Option.some.inj (array.symm.trans shape))
    exact below

/-- An interface is declared. -/
theorem exists_of_isInterface (h : world.isInterface name = true) :
    ∃ declaration, world.shape? name = some (.declared declaration) := by
  unfold isInterface at h
  cases shape : world.shape? name with
  | none => simp [shape] at h
  | some found =>
    cases found with
    | declared declaration => exact ⟨declaration, rfl⟩
    | _ => simp [shape, Shape.isInterface] at h

/-- A declared type is an interface if its declaration says so. -/
theorem isInterface_of_declared {declaration : Declaration}
    (shape : world.shape? name = some (.declared declaration)) :
    world.isInterface name = declaration.isInterface := by
  rw [isInterface, shape]
  rfl

/-- An interface that a walk must not lose: one that it looks for, or one that it is in the middle
of. -/
def Guards (world : Universe) (path : List String) (self base inner : String) : Prop :=
  world.isInterface inner = true ∧
    (world.Nests base inner ∨ inner ∈ path ∨ world.Nests self inner)

/-- What a walk guards it still guards when it goes on above a type. -/
theorem Guards.above {self inner : String} {declaration : Declaration}
    (h : world.Guards path self base inner)
    (shape : world.shape? self = some (.declared declaration)) (parent : String) :
    world.Guards (self :: path) parent base inner := by
  refine ⟨h.1, ?_⟩
  rcases h.2 with sought | seen | nested
  · exact .inl sought
  · exact .inr (.inl (List.mem_cons_of_mem _ seen))
  · exact .inr (.inl (nested.eq_of_declared shape ▸ List.mem_cons_self))

/-- A walk does not come to a guarded interface and go on. -/
theorem Guards.search_ne_false {self inner : String} {declaration : Declaration} {depth : Nat}
    (h : world.Guards path self base inner)
    (shape : world.shape? self = some (.declared declaration))
    (interface : world.isInterface base = true) :
    world.search depth (self :: path) inner base ≠ some false := by
  obtain ⟨isInterface, below | seen⟩ := h
  · obtain ⟨declaration', shape'⟩ := exists_of_isInterface interface
    obtain rfl := below.eq_of_declared shape'
    cases depth with
    | zero => simp [search]
    | succ depth => simp [search]
  · have seen : inner ∈ self :: path := by
      rcases seen with member | nested
      · exact List.mem_cons_of_mem _ member
      · rw [nested.eq_of_declared shape]
        exact List.mem_cons_self
    obtain ⟨declaration', shape'⟩ := exists_of_isInterface isInterface
    cases depth with
    | zero => simp [search]
    | succ depth =>
      rw [search, shape']
      split_ifs <;> simp_all

/-! ## Walks for what two names have in common -/

/-- A walk that finding what two names have in common may take can go up to a depth without an
end. -/
def DeepFor (world : Universe) (limit layers : Nat) (a b : String) : Prop :=
  (∃ x, (world.Nests a x ∨ world.Nests b x) ∧ world.Deep limit [] x) ∨ world.Deep layers [] a

/-- One of two names cannot be looked up, or a walk from one of them can meet an obstacle. -/
def Barred (world : Universe) (a b : String) : Prop :=
  world.resolves a = false ∨ world.resolves b = false ∨
    ∃ x, (world.Nests a x ∨ world.Nests b x) ∧ world.Obstructed [] x

end ClassLattice.Universe
