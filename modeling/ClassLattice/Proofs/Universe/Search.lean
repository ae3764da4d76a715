import ClassLattice.Proofs.Shape
import Mathlib.Tactic.SplitIfs

/-!
# The subtype test on names

The subtype test as it runs when no edge is resolved yet: a function of names and of what a
universe says about them, without a workspace.  It has no answer where the walk meets a type that
it is in the middle of, or a name that cannot be looked up.
-/

set_option autoImplicit false

namespace ClassLattice

/-! ## Tests that may have no answer -/

section Tests

variable {α : Type} {test other : α → Option Bool} {all passed rest : List α} {found : Bool}

/-- A search among members ends with the first one that is found. -/
theorem anyM_cons_some {head : α} :
    (head :: rest).anyM test = some found ↔
      test head = some true ∧ found = true ∨
        test head = some false ∧ rest.anyM test = some found := by
  rw [List.anyM_cons]
  cases h : test head with
  | none => simp
  | some value => cases value <;> simp [eq_comm]

/-- Nothing is found exactly if every test fails. -/
theorem anyM_eq_false : all.anyM test = some false ↔ ∀ x ∈ all, test x = some false := by
  induction all with
  | nil => simp
  | cons head rest ih =>
    rw [anyM_cons_some, ih]
    simp

/-- Something is found exactly if a test succeeds and all before it fail. -/
theorem anyM_eq_true :
    all.anyM test = some true ↔ ∃ passed member rest, all = passed ++ member :: rest ∧
      (∀ x ∈ passed, test x = some false) ∧ test member = some true := by
  induction all with
  | nil => simp
  | cons head tail ih =>
    rw [anyM_cons_some, ih]
    constructor
    · rintro (⟨here, -⟩ | ⟨fails, passed, member, rest, rfl, before, here⟩)
      · exact ⟨[], head, tail, rfl, by simp, here⟩
      · exact ⟨head :: passed, member, rest, rfl, by simpa [fails] using before, here⟩
    · rintro ⟨passed, member, rest, split, before, here⟩
      cases passed with
      | nil =>
        obtain ⟨rfl, rfl⟩ := List.cons.inj split
        exact .inl ⟨here, rfl⟩
      | cons first passed =>
        obtain ⟨rfl, rfl⟩ := List.cons.inj split
        exact .inr ⟨before head List.mem_cons_self, passed, member, rest, rfl,
          fun x member => before x (List.mem_cons_of_mem _ member), here⟩

/-- A search that stops has a test that stops. -/
theorem exists_of_anyM_eq_none (h : all.anyM test = none) : ∃ x ∈ all, test x = none := by
  induction all with
  | nil => cases h
  | cons head rest ih =>
    rw [List.anyM_cons] at h
    cases here : test head with
    | none => exact ⟨head, List.mem_cons_self, here⟩
    | some value =>
      cases value with
      | true => simp [here] at h
      | false =>
        obtain ⟨x, member, missing⟩ := ih (by simpa [here] using h)
        exact ⟨x, List.mem_cons_of_mem _ member, missing⟩

/-- Members that fail may be passed over. -/
theorem anyM_append (fails : ∀ x ∈ passed, test x = some false) :
    (passed ++ rest).anyM test = rest.anyM test := by
  induction passed with
  | nil => rfl
  | cons head passed ih =>
    rw [List.cons_append, List.anyM_cons, fails head List.mem_cons_self]
    exact ih fun x member => fails x (List.mem_cons_of_mem _ member)

/-- A search among members is the same by tests that tell what the others tell. -/
theorem anyM_mono (imp : ∀ x ∈ all, ∀ found, test x = some found → other x = some found)
    (h : all.anyM test = some found) : all.anyM other = some found := by
  induction all with
  | nil => exact h
  | cons head rest ih =>
    rw [anyM_cons_some] at h ⊢
    rcases h with ⟨here, rfl⟩ | ⟨fails, later⟩
    · exact .inl ⟨imp head List.mem_cons_self true here, rfl⟩
    · exact .inr ⟨imp head List.mem_cons_self false fails,
        ih (fun x member => imp x (List.mem_cons_of_mem _ member)) later⟩

end Tests

namespace Universe

variable {world : Universe}

/-! ## The walk -/

/-- What the walk finds above a type by its superclass. -/
def findAbove (world : Universe) (walk : String → Option Bool) (base : String)
    (declaration : Declaration) : Option Bool :=
  match declaration.superName with
  | none => some false
  | some parent =>
    if parent = base then some true else if world.resolves parent then walk parent else none

/-- What the walk finds above a type by its interfaces. -/
def findBeside (world : Universe) (walk : String → Option Bool) (base : String)
    (declaration : Declaration) : Option Bool :=
  if world.isInterface base then
    if declaration.interfaceNames.all world.resolves then
      declaration.interfaceNames.reverse.anyM walk
    else none
  else some false

/-- What the walk finds above a type, by its superclass first. -/
def climb (world : Universe) (walk : String → Option Bool) (base : String)
    (declaration : Declaration) : Option Bool :=
  (world.findAbove walk base declaration).bind fun found =>
    if found then some true else world.findBeside walk base declaration

/-- Whether a declaration lists an interface by name. -/
def lists (world : Universe) (declaration : Declaration) (base : String) : Bool :=
  world.isInterface base && declaration.interfaceNames.contains base

/-- Whether a walk from `self` reaches `base`, by name.  `path` holds the types whose supertypes
are being searched. -/
def search (world : Universe) : Nat → (path : List String) → (self base : String) → Option Bool
  | 0, _, _, _ => none
  | depth + 1, path, self, base =>
    if self = base then some true
    else
      match world.shape? self with
      | none => none
      | some .root | some (.primitive _) => some false
      | some (.array element) =>
        match world.shape? base with
        | some .root => some true
        | some (.array baseElement) => world.search depth path element baseElement
        | _ => some false
      | some (.declared declaration) =>
        if world.lists declaration base then some true
        else if path.contains self then none
        else world.climb (world.search depth (self :: path) · base) base declaration

/-- The walk ends with an answer. -/
def Finds (world : Universe) (path : List String) (self base : String) (found : Bool) : Prop :=
  ∃ depth, world.search depth path self base = some found

variable {walk other : String → Option Bool} {path : List String} {self base : String}
  {declaration : Declaration} {found : Bool} {depth : Nat}

/-- A climb finds something above, or nothing above and what it finds beside. -/
theorem climb_eq_some :
    world.climb walk base declaration = some found ↔
      world.findAbove walk base declaration = some true ∧ found = true ∨
        world.findAbove walk base declaration = some false ∧
          world.findBeside walk base declaration = some found := by
  unfold climb
  cases above : world.findAbove walk base declaration with
  | none => simp
  | some value => cases value <;> simp [eq_comm]

/-- Above a type there is its superclass and what is found from there. -/
theorem findAbove_of_superName {walk : String → Option Bool} {declaration : Declaration}
    {parent : String} (superName : declaration.superName = some parent)
    (resolves : world.resolves parent = true) :
    world.findAbove walk base declaration = if parent = base then some true else walk parent := by
  simp [findAbove, superName, resolves]

/-- A search above a type is the same by walks that find what the others find. -/
theorem findAbove_mono (imp : ∀ parent found, walk parent = some found → other parent = some found)
    (h : world.findAbove walk base declaration = some found) :
    world.findAbove other base declaration = some found := by
  unfold findAbove at h ⊢
  cases superName : declaration.superName with
  | none => simpa [superName] using h
  | some parent =>
    simp only [superName] at h ⊢
    split_ifs at h ⊢ with same resolves
    · exact h
    · exact imp parent found h

/-- A search beside a type is the same by walks that find what the others find. -/
theorem findBeside_mono (imp : ∀ parent found, walk parent = some found → other parent = some found)
    (h : world.findBeside walk base declaration = some found) :
    world.findBeside other base declaration = some found := by
  unfold findBeside at h ⊢
  split_ifs at h ⊢ with isInterface resolve
  · exact anyM_mono (fun parent _ => imp parent) h
  · exact h

/-- A climb is the same by walks that find what the others find. -/
theorem climb_mono (imp : ∀ parent found, walk parent = some found → other parent = some found)
    (h : world.climb walk base declaration = some found) :
    world.climb other base declaration = some found := by
  rw [climb_eq_some] at h ⊢
  exact h.imp (fun h => ⟨findAbove_mono imp h.1, h.2⟩)
    fun h => ⟨findAbove_mono imp h.1, findBeside_mono imp h.2⟩

/-- What is found is found with one step more at hand. -/
theorem search_succ (h : world.search depth path self base = some found) :
    world.search (depth + 1) path self base = some found := by
  induction depth generalizing path self base found with
  | zero => cases h
  | succ depth ih =>
    rw [search] at h ⊢
    by_cases same : self = base
    · rwa [if_pos same] at h ⊢
    · rw [if_neg same] at h ⊢
      cases shape : world.shape? self with
      | none => simp [shape] at h
      | some found =>
        simp only [shape] at h ⊢
        cases found with
        | root => exact h
        | primitive => exact h
        | array element =>
          dsimp only at h ⊢
          split at h
          · exact h
          · exact ih h
          · exact h
        | declared declaration =>
          dsimp only at h ⊢
          split_ifs at h ⊢ with lists seen
          · exact h
          · exact climb_mono (fun parent found h => ih h) h

/-- **What is found is found with more depth at hand.** -/
theorem search_mono {more : Nat} (le : depth ≤ more)
    (h : world.search depth path self base = some found) :
    world.search more path self base = some found := by
  induction le with
  | refl => exact h
  | step _ ih => exact search_succ ih

/-- **A walk has one answer.** -/
theorem Finds.unique {found' : Bool} (h : world.Finds path self base found)
    (h' : world.Finds path self base found') : found = found' := by
  obtain ⟨depth, h⟩ := h
  obtain ⟨depth', h'⟩ := h'
  have deep := search_mono (Nat.le_max_left depth depth') h
  rw [search_mono (Nat.le_max_right depth depth') h'] at deep
  exact (Option.some.inj deep).symm

end Universe

end ClassLattice
