import ClassLattice.Proofs.Universe.Search

/-!
# The subtype test on resolved edges

The subtype test on names as it runs when every edge is resolved that can be: the name of an
interface is compared with those that a type lists only where these cannot all be looked up, as the
edges to them stay pending.  What this test finds, the test with no edge resolved finds too.
-/

set_option autoImplicit false

namespace ClassLattice.Universe

variable {world : Universe} {walk : String → Option Bool} {path : List String}
  {self base : String} {declaration : Declaration} {found : Bool} {depth : Nat}

/-- Whether a declaration lists an interface by name on edges that cannot be resolved. -/
def listsPending (world : Universe) (declaration : Declaration) (base : String) : Bool :=
  world.lists declaration base && !declaration.interfaceNames.all world.resolves

/-- Whether a walk from `self` reaches `base` along resolved edges.  `path` holds the types whose
supertypes are being searched. -/
def follow (world : Universe) : Nat → (path : List String) → (self base : String) → Option Bool
  | 0, _, _, _ => none
  | depth + 1, path, self, base =>
    if self = base then some true
    else
      match world.shape? self with
      | none => none
      | some .root | some (.primitive _) => some false
      | some (.array element) =>
        match world.shape? base with
        | some .root => some true
        | some (.array baseElement) => world.follow depth path element baseElement
        | _ => some false
      | some (.declared declaration) =>
        if world.listsPending declaration base then some true
        else if path.contains self then none
        else world.climb (world.follow depth (self :: path) · base) base declaration

/-- A climb stops if it stops at the superclass, or finds nothing there and stops beside it. -/
theorem climb_eq_none :
    world.climb walk base declaration = none ↔
      world.findAbove walk base declaration = none ∨
        world.findAbove walk base declaration = some false ∧
          world.findBeside walk base declaration = none := by
  unfold climb
  cases above : world.findAbove walk base declaration with
  | none => simp
  | some value => cases value <;> simp

/-- A walk that ends at the base does not pass it by. -/
theorem climb_ne_false (lists : world.lists declaration base = true)
    (ends : walk base ≠ some false) : world.climb walk base declaration ≠ some false := by
  intro climbs
  obtain ⟨-, beside⟩ := (climb_eq_some.1 climbs).resolve_left (by simp)
  obtain ⟨interface, listed⟩ := Bool.and_eq_true _ _ ▸ lists
  rw [findBeside, if_pos interface] at beside
  split_ifs at beside
  have member : base ∈ declaration.interfaceNames := by simpa using listed
  exact ends (anyM_eq_false.1 beside base (List.mem_reverse.2 member))

/-- **What is found on resolved edges is found on names.** -/
theorem search_of_follow (h : world.follow depth path self base = some found) :
    world.search depth path self base = some found := by
  induction depth generalizing path self base found with
  | zero => cases h
  | succ depth ih =>
    rw [follow] at h
    rw [search]
    by_cases same : self = base
    · rwa [if_pos same] at h ⊢
    · rw [if_neg same] at h ⊢
      cases shape : world.shape? self with
      | none => simp [shape] at h
      | some found =>
        simp only [shape] at h ⊢
        cases found with
        | root => exact h
        | primitive => exact h
        | array element =>
          cases shapeBase : world.shape? base with
          | none => simpa [shapeBase] using h
          | some other =>
            cases other with
            | array baseElement =>
              simp only [shapeBase] at h ⊢
              exact ih h
            | _ => simpa [shapeBase] using h
        | declared declaration =>
          dsimp only at h ⊢
          cases lists : world.lists declaration base with
          | false =>
            rw [listsPending, lists, Bool.false_and] at h
            simp only [Bool.false_eq_true, if_false] at h ⊢
            split_ifs at h ⊢ with seen
            exact climb_mono (fun parent found h => ih h) h
          | true =>
            rw [if_pos rfl]
            split_ifs at h with pending seen
            · exact h
            -- The walk goes on here, and it does not pass by what is listed.
            · have ends : world.follow depth (self :: path) base base ≠ some false := by
                cases depth <;> simp [follow]
              cases found with
              | true => rfl
              | false => exact absurd h (climb_ne_false lists ends)

/-- What a walk on names does not find is not found on resolved edges. -/
theorem follow_ne_true (nothing : world.search depth path self base = some false) (more : Nat) :
    world.follow more path self base ≠ some true := by
  intro h
  have same := Finds.unique ⟨more, search_of_follow h⟩ ⟨depth, nothing⟩
  cases same

/-! ## Walks without an answer -/

/-- A search among names stops where one of them stops it and none before was the goal. -/
theorem anyM_eq_none {test : String → Option Bool} {passed rest : List String} {member : String}
    (passes : ∀ name ∈ passed, test name ≠ some true) (stops : test member = none) :
    (passed ++ member :: rest).anyM test = none := by
  induction passed with
  | nil => rw [List.nil_append, List.anyM_cons, stops]; rfl
  | cons head passed ih =>
    have later := ih fun name listed => passes name (List.mem_cons_of_mem _ listed)
    rw [List.cons_append, List.anyM_cons]
    cases here : test head with
    | none => rfl
    | some value =>
      cases value with
      | true => exact absurd here (passes head List.mem_cons_self)
      | false => exact later

/-- A climb stops where the search beside the superclass does and nothing is found above. -/
theorem climb_eq_none_of_beside (nothing : world.findAbove walk base declaration ≠ some true)
    (stops : world.findBeside walk base declaration = none) :
    world.climb walk base declaration = none := by
  refine climb_eq_none.2 ?_
  cases above : world.findAbove walk base declaration with
  | none => exact .inl rfl
  | some value =>
    cases value with
    | true => exact absurd above nothing
    | false => exact .inr ⟨rfl, stops⟩

/-- A climb stops where the walk from the superclass does. -/
theorem climb_eq_none_of_above {parent : String} (superName : declaration.superName = some parent)
    (apart : parent ≠ base) (stops : walk parent = none) :
    world.climb walk base declaration = none := by
  refine climb_eq_none.2 (.inl ?_)
  rw [findAbove, superName]
  simp only [if_neg apart, stops, ite_self]

/-- A walk stands at a class or interface at which it compares no names. -/
structure Passes (world : Universe) (path : List String) (name base : String)
    (declaration : Declaration) : Prop where
  shape : world.shape? name = some (.declared declaration)
  apart : name ≠ base
  new : name ∉ path
  followed : world.listsPending declaration base = false

/-- A walk climbs from where it stands. -/
theorem Passes.follow_eq {name : String} (passes : world.Passes path name base declaration) :
    world.follow (depth + 1) path name base =
      world.climb (world.follow depth (name :: path) · base) base declaration := by
  have new : path.contains name = false := by simpa using passes.new
  rw [follow, if_neg passes.apart, passes.shape]
  simp only [passes.followed, new, Bool.false_eq_true, if_false]

/-- A walk ends nowhere if it climbs from where it stands and ends nowhere there. -/
theorem Passes.follow_eq_none {name : String} (passes : world.Passes path name base declaration)
    (stops : ∀ more, world.climb (world.follow more (name :: path) · base) base declaration = none)
    (more : Nat) : world.follow more path name base = none := by
  cases more with
  | zero => rfl
  | succ more => exact passes.follow_eq.trans (stops more)

end ClassLattice.Universe
