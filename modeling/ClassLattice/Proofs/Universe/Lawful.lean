import ClassLattice.Proofs.Universe.Depth
import ClassLattice.Proofs.Universe.Meet
import Mathlib.Logic.Relation

/-!
# Lawful universes

In a lawful universe every supertype is a class or an interface that can be looked up, and no type
is its own ancestor.  There no walk meets an obstacle, so that where the names that occur as
supertypes are bounded every question about names has an answer.
-/

set_option autoImplicit false

namespace ClassLattice.Universe

open Relation

variable {world : Universe} {path : List String} {name parent base a b x : String}
  {depth limit extent : Nat}

/-- A name is that of a class or interface, of which the root is one. -/
def IsType (world : Universe) (name : String) : Prop :=
  world.shape? name = some .root ∨ ∃ declaration, world.shape? name = some (.declared declaration)

/-- All supertypes are classes or interfaces, and none is its own ancestor. -/
structure Lawful (world : Universe) : Prop where
  closed : ∀ name parent, world.Extends name parent → world.IsType parent
  acyclic : ∀ name, ¬ TransGen world.Extends name name

/-- Classes and interfaces resolve. -/
theorem IsType.resolves (h : world.IsType name) : world.resolves name = true := by
  rcases h with root | ⟨declaration, declared⟩
  · exact resolves_of_flat root rfl
  · exact resolves_of_flat declared rfl

/-- What has a supertype is no array. -/
theorem Extends.not_array {element : String} (h : world.Extends name parent) :
    world.shape? name ≠ some (.array element) := by
  obtain ⟨declaration, shape, -⟩ := h
  rw [shape]
  simp

/-- A class or interface is no array. -/
theorem IsType.not_array {element : String} (h : world.IsType name) :
    world.shape? name ≠ some (.array element) := by
  rcases h with root | ⟨declaration, declared⟩
  · simp [root]
  · simp [declared]

namespace Lawful

/-- In a lawful universe all that is above a name is a class or interface. -/
theorem isType_of_transGen (lawful : world.Lawful) (h : TransGen world.Extends name parent) :
    world.IsType parent := by
  cases h with
  | single extended => exact lawful.closed _ _ extended
  | tail _ extended => exact lawful.closed _ _ extended

/-- **No walk meets an obstacle**, as long as it is in the middle of types below it only. -/
theorem not_obstructed (lawful : world.Lawful)
    (below : ∀ other ∈ path, TransGen world.Extends other name) :
    ¬ world.Obstructed path name := by
  intro h
  -- `below` carries the induction: a type that the walk meets again would be its own ancestor.
  induction h with
  | cyclic seen => exact lawful.acyclic _ (below _ seen)
  | missing extended missing =>
    rw [(lawful.closed _ _ extended).resolves] at missing
    cases missing
  | element array _ ih =>
    exact ih fun other member =>
      absurd array (lawful.isType_of_transGen (below other member)).not_array
  | above extended _ ih =>
    refine ih fun other member => ?_
    rcases List.mem_cons.1 member with rfl | rest
    · exact .single extended
    · exact (below other rest).tail extended

/-- In a lawful universe no walk meets an obstacle. -/
theorem not_obstructed_nil (lawful : world.Lawful) : ¬ world.Obstructed [] name :=
  lawful.not_obstructed fun _ member => (List.not_mem_nil member).elim

/-- In a lawful universe nothing bars two names that resolve. -/
theorem not_barred (lawful : world.Lawful) (resolvesA : world.resolves a = true)
    (resolvesB : world.resolves b = true) : ¬ world.Barred a b := by
  rintro (lost | lost | ⟨x, -, obstructed⟩)
  · rw [resolvesA] at lost
    cases lost
  · rw [resolvesB] at lost
    cases lost
  · exact lawful.not_obstructed_nil obstructed

end Lawful

/-! ## Walks that end -/

/-- Where not all names resolve there is one that does not. -/
theorem exists_lost {names : List String} (h : ¬ names.all world.resolves = true) :
    ∃ name ∈ names, world.resolves name = false := by
  have lost : ¬ ∀ name ∈ names, world.resolves name = true := by simpa using h
  push Not at lost
  simpa using lost

/-- Where a climb stops there is a supertype that does not resolve or from which the walk stops. -/
theorem exists_of_climb_eq_none {walk : String → Option Bool} {declaration : Declaration}
    (h : world.climb walk base declaration = none) :
    ∃ parent ∈ declaration.superTypeNames, world.resolves parent = false ∨ walk parent = none := by
  unfold climb at h
  cases found : world.findAbove walk base declaration with
  | none =>
    unfold findAbove at found
    cases superName : declaration.superName with
    | none => simp [superName] at found
    | some parent =>
      simp only [superName] at found
      refine ⟨parent, List.mem_append_left _ (by simp [superName]), ?_⟩
      split_ifs at found with same resolves
      · exact .inr found
      · exact .inl (Bool.not_eq_true _ ▸ resolves)
  | some value =>
    rw [found, Option.bind_some] at h
    split_ifs at h
    unfold findBeside at h
    split_ifs at h with interface resolve
    · obtain ⟨parent, member, missing⟩ := exists_of_anyM_eq_none h
      exact ⟨parent, List.mem_append_right _ (List.mem_reverse.1 member), .inr missing⟩
    · obtain ⟨parent, member, lost⟩ := exists_lost resolve
      exact ⟨parent, List.mem_append_right _ member, .inl lost⟩

/-- A walk from a name that can be looked up ends with an answer, unless it goes too deep or meets
an obstacle. -/
theorem deep_or_obstructed_of_search (resolves : world.resolves name = true)
    (h : world.search depth path name base = none) :
    world.Deep depth path name ∨ world.Obstructed path name := by
  induction depth generalizing path name base with
  | zero => exact .inl (.spent path name)
  | succ depth ih =>
    rw [search] at h
    by_cases same : name = base
    · rw [if_pos same] at h
      cases h
    rw [if_neg same] at h
    obtain ⟨shape, shape?⟩ := exists_shape_of_resolves resolves
    rw [shape?] at h
    cases shape with
    | root => cases h
    | primitive => cases h
    | array element =>
      dsimp only at h
      split at h
      · cases h
      · exact (ih (resolves_array shape? ▸ resolves) h).imp (.element shape?) (.element shape?)
      · cases h
    | declared declaration =>
      dsimp only at h
      split_ifs at h with lists seen
      · exact .inr (.cyclic (by simpa using seen))
      · have new : name ∉ path := by simpa using seen
        obtain ⟨parent, member, missing⟩ := exists_of_climb_eq_none h
        have extended : world.Extends name parent := ⟨declaration, shape?, member⟩
        cases lost : world.resolves parent with
        | false => exact .inr (.missing extended lost)
        | true =>
          rcases missing with missing | missing
          · rw [lost] at missing
            cases missing
          · exact (ih lost missing).imp (.above extended new) (.above extended)

/-- Where gathering stops there is a supertype that does not resolve or from which a walk stops. -/
theorem exists_of_gather_eq_none {walk walk' : Gatherer} {declaration : Declaration}
    {met : Lineage} {finish : Nat × Lineage → Nat × Lineage}
    (h : ((world.gatherAbove walk declaration met).bind fun withChain =>
      (world.gatherBeside walk' declaration withChain).map finish) = none) :
    ∃ parent ∈ declaration.superTypeNames, world.resolves parent = false ∨
      ∃ met, walk parent met = none ∨ walk' parent met = none := by
  cases found : world.gatherAbove walk declaration met with
  | none =>
    unfold gatherAbove at found
    cases superName : declaration.superName with
    | none => simp [superName] at found
    | some parent =>
      simp only [superName] at found
      refine ⟨parent, List.mem_append_left _ (by simp [superName]), ?_⟩
      split_ifs at found with resolves
      · exact .inr ⟨met, .inl (Option.map_eq_none_iff.1 found)⟩
      · exact .inl (Bool.not_eq_true _ ▸ resolves)
  | some withChain =>
    rw [found, Option.bind_some] at h
    have beside := Option.map_eq_none_iff.1 h
    unfold gatherBeside at beside
    split_ifs at beside with resolve
    · obtain ⟨parent, member, sum, missing⟩ := exists_of_foldlM_eq_none beside
      exact ⟨parent, List.mem_append_right _ (List.mem_reverse.1 member),
        .inr ⟨sum.2, .inr (Option.map_eq_none_iff.1 missing)⟩⟩
    · obtain ⟨parent, member, lost⟩ := exists_lost resolve
      exact ⟨parent, List.mem_append_right _ member, .inl lost⟩

/-- The ancestors of a name that can be looked up are gathered, unless the walk goes too deep or
meets an obstacle. -/
theorem deep_or_obstructed_of_gather {onChain : Bool} {steps : Nat} {met : Lineage}
    (resolves : world.resolves name = true)
    (h : world.gather depth path onChain steps name met = none) :
    world.Deep depth path name ∨ world.Obstructed path name := by
  induction depth generalizing path onChain steps name met with
  | zero => exact .inl (.spent path name)
  | succ depth ih =>
    obtain ⟨shape, shape?⟩ := exists_shape_of_resolves resolves
    cases shape with
    | declared declaration =>
      by_cases seen : name ∈ path
      · exact .inr (.cyclic seen)
      · rw [gather_declared shape? seen] at h
        obtain ⟨parent, member, missing⟩ := exists_of_gather_eq_none h
        have extended : world.Extends name parent := ⟨declaration, shape?, member⟩
        cases lost : world.resolves parent with
        | false => exact .inr (.missing extended lost)
        | true =>
          rcases missing with missing | ⟨met, missing | missing⟩
          · rw [lost] at missing
            cases missing
          · exact (ih lost missing).imp (.above extended seen) (.above extended)
          · exact (ih lost missing).imp (.above extended seen) (.above extended)
    | _ => simp [gather, shape?] at h

namespace Lawful

/-- **Every walk between names that can be looked up ends with an answer.** -/
theorem exists_finds (lawful : world.Lawful) (spans : world.Spans extent)
    (resolves : world.resolves name = true) (base : String) :
    ∃ found, world.Finds [] name base found := by
  cases found : world.search (layers name + 2 + 2 * extent) [] name base with
  | some value => exact ⟨value, _, found⟩
  | none =>
    rcases deep_or_obstructed_of_search resolves found with deep | obstructed
    · have least := deep.le spans
      omega
    · exact absurd obstructed lawful.not_obstructed_nil

/-- **Every name that can be looked up has a list of ancestors.** -/
theorem exists_lists (lawful : world.Lawful) (spans : world.Spans extent)
    (resolves : world.resolves name = true) : ∃ names, world.Lists name names := by
  obtain ⟨shape, shape?⟩ := exists_shape_of_resolves resolves
  cases shape with
  | declared declaration =>
    cases found : world.gather (layers name + 2 + 2 * extent) [] true 0 name {} with
    | some result =>
      exact ⟨_, _, by rw [flatten, shape?]; dsimp only; rw [found]; rfl⟩
    | none =>
      rcases deep_or_obstructed_of_gather resolves found with deep | obstructed
      · have least := deep.le spans
        omega
      · exact absurd obstructed lawful.not_obstructed_nil
  | _ => exact ⟨_, 0, by rw [flatten, shape?]⟩

/-- In a lawful universe a search that does not find the goal finds that there is none. -/
theorem not_finds_false (lawful : world.Lawful) (spans : world.Spans extent)
    (resolves : world.resolves name = true) (h : ¬ world.Finds [] name base true) :
    world.Finds [] name base false := by
  obtain ⟨found, finds⟩ := lawful.exists_finds spans resolves base
  cases found with
  | true => exact absurd finds h
  | false => exact finds

/-- **Any two names that can be looked up have something in common.** -/
theorem exists_meets (lawful : world.Lawful) (spans : world.Spans extent)
    (resolvesA : world.resolves a = true) (resolvesB : world.resolves b = true) :
    ∃ c, world.Meets a b c := by
  -- Only arrays of references leave the question to other names, and these have fewer layers.
  induction same : layers a using Nat.strongRecOn generalizing a b with
  | _ depth ih =>
    by_cases up : world.Finds [] a b true
    · exact ⟨b, meets_iff.2 ⟨resolvesA, resolvesB, .inl ⟨up, rfl⟩⟩⟩
    have notUp := lawful.not_finds_false spans resolvesA up
    by_cases down : world.Finds [] b a true
    · exact ⟨a, meets_iff.2 ⟨resolvesA, resolvesB, .inr ⟨notUp, .inl ⟨down, rfl⟩⟩⟩⟩
    have notDown := lawful.not_finds_false spans resolvesB down
    have iff (answer : String) : world.Meets a b answer ↔ world.Unrelated a b answer :=
      meets_iff_unrelated resolvesA resolvesB notUp notDown
    obtain ⟨above, listed⟩ := lawful.exists_lists spans resolvesA
    obtain ⟨aboveOther, listed'⟩ := lawful.exists_lists spans resolvesB
    cases elementA : world.referenceElement a with
    | none => exact ⟨_, (iff _).2 (.ancestors (.inl elementA) listed listed')⟩
    | some x =>
      cases elementB : world.referenceElement b with
      | none => exact ⟨_, (iff _).2 (.ancestors (.inr elementB) listed listed')⟩
      | some y =>
        have shapeA := shape?_of_referenceElement elementA
        have shapeB := shape?_of_referenceElement elementB
        have deeper := layers_of_layout (shape?_array_iff.1 shapeA).2
        obtain ⟨inner, meets⟩ := ih (layers x) (by omega) (resolves_array shapeA ▸ resolvesA)
          (resolves_array shapeB ▸ resolvesB) rfl
        exact ⟨_, (iff _).2 (.elements elementA elementB meets)⟩

end Lawful

end ClassLattice.Universe
