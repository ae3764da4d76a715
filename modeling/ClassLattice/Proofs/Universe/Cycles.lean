import ClassLattice.Proofs.Query.Blame
import ClassLattice.Proofs.Universe.Shared

/-!
# Cycles in a hierarchy

The supertypes of a type may lead back to where they started.  A walk carries the types that it is
in the middle of, each of which leads up to where the walk is.  So a type that it meets again is its
own ancestor.  A walk that gathers all ancestors goes everywhere, so it ends only if there is no
such type above the one where it starts.
-/

set_option autoImplicit false

namespace ClassLattice.Universe

open Relation

variable {world : Universe} {reader : Reader} {types : String → Prop} {depth limit : Nat}
  {path : List String} {name parent a b x y : String} {error : HierarchyError}

/-- A name leads to another by supertypes and elements. -/
def Involves (world : Universe) : String → String → Prop := ReflTransGen world.Uses

/-- Some types declare only classes and interfaces as their supertypes. -/
def ClosedOver (world : Universe) (types : String → Prop) : Prop :=
  ∀ name parent, types name → world.Extends name parent → world.IsType parent

/-- All supertypes are classes or interfaces. -/
def Closed (world : Universe) : Prop :=
  ∀ name parent, world.Extends name parent → world.IsType parent

/-- None of some types is its own ancestor. -/
def AcyclicOver (world : Universe) (types : String → Prop) : Prop :=
  ∀ name, types name → ¬ TransGen world.Extends name name

/-- No type that a name leads up to is its own ancestor. -/
def Grounded (world : Universe) (name : String) : Prop :=
  world.AcyclicOver (ReflTransGen world.Extends name)

/-- A type to which a name leads up and which is its own ancestor. -/
def HasCycleAt (world : Universe) (name x : String) : Prop :=
  ReflTransGen world.Extends name x ∧ TransGen world.Extends x x

/-- An error that names a type which a name leads up to and which is its own ancestor. -/
def CyclicAbove (world : Universe) (name : String) (error : HierarchyError) : Prop :=
  ∃ x, error = .cyclic x ∧ world.HasCycleAt name x

/-- What is closed is closed over any names. -/
theorem Closed.over (closed : world.Closed) : world.ClosedOver types :=
  fun name parent _ extended => closed name parent extended

/-- All that a name leads to is closed upwards. -/
theorem upward_involves (name : String) : world.Upward (world.Involves name) :=
  fun _ _ involved uses => involved.tail uses

/-- What is closed upwards has all that its names lead to. -/
theorem Upward.of_involves (upward : world.Upward types) (start : types x)
    (h : world.Involves x y) : types y := by
  induction h with
  | refl => exact start
  | tail _ uses ih => exact upward _ _ ih uses

/-- Names that are closed upwards stay so together with others that are. -/
theorem upward_or {others : String → Prop} (h : world.Upward types) (h' : world.Upward others) :
    world.Upward fun name => types name ∨ others name := by
  intro name other among uses
  exact among.imp (fun among => h name other among uses) fun among => h' name other among uses

/-- Where supertypes are classes or interfaces, so is all above one. -/
theorem Closed.isType_of_reflTransGen (closed : world.Closed) (isType : world.IsType name)
    (h : ReflTransGen world.Extends name x) : world.IsType x := by
  cases h with
  | refl => exact isType
  | tail _ extended => exact closed _ _ extended

/-- A class or interface leads only to its ancestors. -/
theorem Closed.extends_of_involves (closed : world.Closed) (isType : world.IsType name)
    (h : world.Involves name x) : ReflTransGen world.Extends name x := by
  induction h with
  | refl => exact .refl
  | tail _ uses ih =>
    rcases uses with extended | array
    · exact ih.tail extended
    · exact absurd array (closed.isType_of_reflTransGen isType ih).not_array

/-! ## What a walk blames -/

/-- **Where every type can be had, a walk fails for want of depth or at a type that is its own
ancestor**, as long as it is in the middle of types below it only. -/
theorem Blames.deep_or_cyclic (h : world.Blames reader depth path name error)
    (upward : world.Upward types) (closed : world.ClosedOver types)
    (available : ∀ name error, types name → ¬ reader.Fails world.registry name error)
    (start : types name)
    (below : ∀ other ∈ path, world.IsType name ∧ TransGen world.Extends other name) :
    world.Deep depth path name ∨
      ∃ x, error = .cyclic x ∧ world.Involves name x ∧ TransGen world.Extends x x := by
  -- `below` carries the induction: a type that the walk meets again leads up to itself.
  induction h with
  | spent path name => exact .inl (.spent path name)
  | @cyclic depth path name seen => exact .inr ⟨name, rfl, .refl, (below name seen).2⟩
  | unread extended fails =>
    exact absurd fails (available _ _ (upward _ _ start (.inl extended)))
  | element array _ ih =>
    have outside (other : String) (member : other ∈ _) : False :=
      (below other member).1.not_array array
    have further := ih (upward _ _ start (.inr array)) fun other member =>
      (outside other member).elim
    rcases further with deep | ⟨x, blamed, involved, cycle⟩
    · exact .inl (.element array deep)
    · exact .inr ⟨x, blamed, .head (.inr array) involved, cycle⟩
  | @above depth path name parent error extended new _ ih =>
    have isType : world.IsType parent := closed _ _ start extended
    have below' : ∀ other ∈ name :: path,
        world.IsType parent ∧ TransGen world.Extends other parent := by
      intro other member
      rcases List.mem_cons.1 member with rfl | rest
      · exact ⟨isType, .single extended⟩
      · exact ⟨isType, (below other rest).2.tail extended⟩
    rcases ih (upward _ _ start (.inl extended)) below' with deep | ⟨x, blamed, involved, cycle⟩
    · exact .inl (.above extended new deep)
    · exact .inr ⟨x, blamed, .head (.inl extended) involved, cycle⟩

/-- Where the reader serves the universe, a walk from a class or interface fails for want of depth or
at a cycle above it. -/
theorem Blames.deep_or_cyclicAbove (h : world.Blames reader depth [] name error)
    (closed : world.Closed) (serves : reader.Serves world) (isType : world.IsType name) :
    world.Deep depth [] name ∨ world.CyclicAbove name error := by
  have available (other : String) (error : HierarchyError) (involved : world.Involves name other) :
      ¬ reader.Fails world.registry other error := by
    intro fails
    have up := closed.extends_of_involves isType involved
    have resolves := (closed.isType_of_reflTransGen isType up).resolves
    rw [serves.not_resolves fails] at resolves
    cases resolves
  have blamed := h.deep_or_cyclic (upward_involves name) closed.over available .refl
    fun _ member => (List.not_mem_nil member).elim
  apply blamed.imp_right
  intro cyclic
  obtain ⟨x, same, involved, cycle⟩ := cyclic
  exact ⟨x, same, closed.extends_of_involves isType involved, cycle⟩

/-- Where the reader serves the universe, a walk from a class or interface stalls at a cycle above
it only. -/
theorem Stalls.cyclicAbove (h : world.Stalls reader name error) (closed : world.Closed)
    (serves : reader.Serves world) (isType : world.IsType name) : world.CyclicAbove name error := by
  obtain ⟨depth, blames, shallow⟩ := h
  exact (blames.deep_or_cyclicAbove closed serves isType).resolve_left shallow

/-- **Nothing is to blame** for two names if every type that they lead to can be had and none is its
own ancestor, and no walk runs out of depth. -/
theorem not_blamesFor (upward : world.Upward types) (closed : world.ClosedOver types)
    (acyclic : world.AcyclicOver types)
    (available : ∀ name error, types name → ¬ reader.Fails world.registry name error)
    (startA : types a) (startB : types b)
    (shallow : ∀ x, types x → layers x ≤ layers a ∨ layers x ≤ layers b →
      ¬ world.Deep limit [] x) (enough : layers a < depth) :
    ¬ world.BlamesFor reader limit depth a b error := by
  intro h
  induction h with
  | spent => exact Nat.not_lt_zero _ enough
  | unread one fails =>
    rcases one with rfl | rfl
    · exact available _ _ startA fails
    · exact available _ _ startB fails
  | @walk depth a b x error one blames =>
    have start : types x := by
      rcases one with rfl | rfl
      · exact startA
      · exact startB
    have fewer : layers x ≤ layers a ∨ layers x ≤ layers b := by
      rcases one with rfl | rfl
      · exact .inl (Nat.le_refl _)
      · exact .inr (Nat.le_refl _)
    have blamed := blames.deep_or_cyclic upward closed available start
      fun _ member => (List.not_mem_nil member).elim
    rcases blamed with deep | ⟨y, -, involved, cycle⟩
    · exact shallow x start fewer deep
    · exact acyclic y (upward.of_involves start involved) cycle
  | elements first second _ ih =>
    have deeper := layers_of_layout (shape?_array_iff.1 first).2
    have deeper' := layers_of_layout (shape?_array_iff.1 second).2
    apply ih (upward _ _ startA (.inr first)) (upward _ _ startB (.inr second))
    · intro x among fewer
      exact shallow x among (by omega)
    · omega

/-! ## Walks that gather all ancestors -/

/-- A name is grounded if all above it are. -/
theorem Grounded.intro (above : ∀ parent, world.Extends name parent → world.Grounded parent) :
    world.Grounded name := by
  intro x up cycle
  rcases up.cases_head with rfl | ⟨parent, extended, up⟩
  · rcases TransGen.head'_iff.1 cycle with ⟨parent, extended, back⟩
    exact above parent extended name back cycle
  · exact above parent extended x up cycle

/-- What is above a grounded name is grounded. -/
theorem Grounded.above (h : world.Grounded name) (extended : world.Extends name parent) :
    world.Grounded parent := fun x up => h x (.head extended up)

/-- No cycle is met from a grounded name. -/
theorem Grounded.not_hasCycleAt (h : world.Grounded name) : ¬ world.HasCycleAt name x :=
  fun cycle => h x cycle.1 cycle.2

/-- A walk that gathers from a type has gathered from each of its supertypes. -/
theorem exists_gather_of_extends {onChain : Bool} {steps : Nat} {met : Lineage}
    {found : Nat × Lineage}
    (h : world.gather (limit + 1) path onChain steps name met = some found)
    (extended : world.Extends name parent) :
    ∃ path onChain steps met found,
      world.gather limit path onChain steps parent met = some found := by
  obtain ⟨declaration, shape, member⟩ := extended
  by_cases seen : name ∈ path
  · simp [gather, shape, seen] at h
  rw [gather_declared shape seen] at h
  obtain ⟨withChain, above, beside⟩ := Option.bind_eq_some_iff.1 h
  obtain ⟨sum, summed, -⟩ := Option.map_eq_some_iff.1 beside
  rcases List.mem_append.1 member with superName | listed
  · have superName : declaration.superName = some parent := by simpa using superName
    unfold gatherAbove at above
    simp only [superName] at above
    split_ifs at above
    obtain ⟨found, walked, -⟩ := Option.map_eq_some_iff.1 above
    exact ⟨_, _, _, _, found, walked⟩
  · unfold gatherBeside at summed
    split_ifs at summed
    obtain ⟨value, next, step⟩ := exists_of_foldlM_eq_some summed (List.mem_reverse.2 listed)
    obtain ⟨found, walked, -⟩ := Option.map_eq_some_iff.1 step
    exact ⟨_, _, _, _, found, walked⟩

/-- **A walk that gathers all ancestors ends only below no cycle.** -/
theorem grounded_of_gather {onChain : Bool} {steps : Nat} {met : Lineage} {found : Nat × Lineage}
    (h : world.gather limit path onChain steps name met = some found) : world.Grounded name := by
  induction limit generalizing path onChain steps name met found with
  | zero => cases h
  | succ limit ih =>
    apply Grounded.intro
    intro parent extended
    obtain ⟨path, onChain, steps, met, found, walked⟩ := exists_gather_of_extends h extended
    exact ih walked

/-- **A name has a list of ancestors only if it is not below a cycle.** -/
theorem Lists.grounded {names : List String} (h : world.Lists name names) :
    world.Grounded name := by
  obtain ⟨limit, listed⟩ := h
  apply Grounded.intro
  intro parent extended
  obtain ⟨declaration, shape, -⟩ := id extended
  rw [flatten, shape] at listed
  obtain ⟨found, gathered, -⟩ := Option.map_eq_some_iff.1 listed
  exact (grounded_of_gather gathered).above extended

/-! ## Descent where there may be cycles -/

/-- A name is above a class or interface: it is the name itself, or it is on the chain of
superclasses and not an interface, or it is an interface that the name leads up to. -/
inductive Above (world : Universe) (a b : String) : Prop
  | self (same : b = a)
  | superclass (kind : world.isInterface b = false) (up : ReflTransGen world.HasSuperclass a b)
  | interface (kind : world.isInterface b = true) (up : ReflTransGen world.Extends a b)

/-- A class is above by superclasses, an interface by supertypes of any kind. -/
theorem Above.of_kind (h : world.Above a b) :
    (world.isInterface b = false ∧ ReflTransGen world.HasSuperclass a b) ∨
      (world.isInterface b = true ∧ ReflTransGen world.Extends a b) := by
  cases h with
  | self same =>
    subst same
    cases kind : world.isInterface b with
    | false => exact .inl ⟨rfl, .refl⟩
    | true => exact .inr ⟨rfl, .refl⟩
  | superclass kind up => exact .inl ⟨kind, up⟩
  | interface kind up => exact .inr ⟨kind, up⟩

/-- **A type descends from all that is above it and from nothing else**, where metadata are closed.
-/
theorem Closed.descends_iff (closed : world.Closed) (isType : world.IsType a) :
    world.Descends a b ↔ world.Above a b := by
  constructor
  · intro descends
    induction descends with
    | self x => exact .self rfl
    | @above x parent y edge _ ih =>
      have extended := edge_extends edge
      rcases (ih (closed _ _ extended)).of_kind with ⟨kind, up⟩ | ⟨kind, up⟩
      · -- Where no interface is looked for, only superclasses are followed.
        have superclass : world.HasSuperclass x parent := by
          rcases edge with superclass | ⟨interface, -⟩
          · exact superclass
          · rw [kind] at interface
            cases interface
        exact .superclass kind (.head superclass up)
      · exact .interface kind (.head extended up)
    | root array => exact absurd array isType.not_array
    | element array => exact absurd array isType.not_array
  · intro above
    cases above with
    | self same =>
      subst same
      exact .self b
    | superclass _ up => exact descends_of_superclasses up
    | interface kind up => exact descends_of_interface kind up

/-- **The list of all ancestors holds what is above a class or interface**, and the root. -/
theorem Lists.mem_iff_above {names : List String} (lists : world.Lists a names)
    (closed : world.Closed) (isType : world.IsType a) (notRoot : b ≠ rootName) :
    b ∈ names ↔ world.Above a b := by
  obtain ⟨chain, ranked, ranking, rfl⟩ := exists_ranking isType lists
  rw [ranking.mem_iff]
  constructor
  · rintro (⟨isClass, up⟩ | ⟨kind, up⟩ | root)
    · exact .superclass isClass.not_isInterface up
    · exact .interface kind up
    · exact absurd root notRoot
  · intro above
    rcases above.of_kind with ⟨kind, up⟩ | ⟨kind, up⟩
    · have extended := ReflTransGen.mono (fun _ _ => HasSuperclass.extends) _ _ up
      exact .inl ⟨(closed.isType_of_reflTransGen isType extended).isClass notRoot kind, up⟩
    · exact .inr (.inl ⟨kind, up⟩)

end ClassLattice.Universe
