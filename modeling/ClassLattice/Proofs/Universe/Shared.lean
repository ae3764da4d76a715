import ClassLattice.Proofs.Universe.Ranking

/-!
# What two classes or interfaces share

In a lawful universe two classes or interfaces, of which neither descends from the other, have in
common the nearest class that both chains hold, or else the interface that ranks first among those
above both, or else the root.
-/

set_option autoImplicit false

namespace ClassLattice

/-- An interface ranks before itself. -/
theorem RankedName.ranksBefore_refl (ranked : RankedName) : ranked.ranksBefore ranked = true := by
  rw [RankedName.ranksBefore_iff]
  exact .inr ⟨rfl, .inr ⟨rfl, String.le_refl _⟩⟩

namespace Universe

open Relation

variable {world : Universe} {a b c d : String} {extent : Nat} {above aboveOther : List String}

/-- Two names have a class among their superclasses, other than the root. -/
def SharedClass (world : Universe) (a b c : String) : Prop :=
  world.IsClass c ∧ ReflTransGen world.HasSuperclass a c ∧ ReflTransGen world.HasSuperclass b c

/-- Two names have an interface above them, which may be one of them. -/
def SharedInterface (world : Universe) (a b i : String) : Prop :=
  world.isInterface i = true ∧ ReflTransGen world.Extends a i ∧ ReflTransGen world.Extends b i

/-- The shared class from which all others are superclasses. -/
def Nearest (world : Universe) (a b c : String) : Prop :=
  world.SharedClass a b c ∧ ∀ d, world.SharedClass a b d → ReflTransGen world.HasSuperclass c d

/-- The shared interface that the walk from the first of two names ranks before all others. -/
def RanksFirst (world : Universe) (a b c : String) : Prop :=
  world.SharedInterface a b c ∧ ∃ r, world.Ranks a r ∧ r.name = c ∧
    ∀ r', world.Ranks a r' → world.SharedInterface a b r'.name → r.ranksBefore r' = true

/-- **The first ancestor that two classes or interfaces share.** -/
inductive FirstShared (world : Universe) (a b : String) : String → Prop
  | nearest {c : String} (h : world.Nearest a b c) : FirstShared world a b c
  | ranked {c : String} (noClass : ∀ d, ¬ world.SharedClass a b d) (h : world.RanksFirst a b c) :
      FirstShared world a b c
  | root (noClass : ∀ d, ¬ world.SharedClass a b d)
      (noInterface : ∀ i, ¬ world.SharedInterface a b i) :
      FirstShared world a b rootName

/-- A class is shared either way. -/
theorem SharedClass.symm (h : world.SharedClass a b c) : world.SharedClass b a c :=
  ⟨h.1, h.2.2, h.2.1⟩

/-- An interface is shared either way. -/
theorem SharedInterface.symm (h : world.SharedInterface a b c) : world.SharedInterface b a c :=
  ⟨h.1, h.2.2, h.2.1⟩

/-- The nearest class is nearest either way. -/
theorem Nearest.symm (h : world.Nearest a b c) : world.Nearest b a c :=
  ⟨h.1.symm, fun d shared => h.2 d shared.symm⟩

/-- A name descends from a class that it shares. -/
theorem SharedClass.descends (h : world.SharedClass a b c) : world.Descends a c :=
  descends_of_superclasses h.2.1

/-- A name descends from an interface that it shares. -/
theorem SharedInterface.descends (h : world.SharedInterface a b c) : world.Descends a c :=
  descends_of_interface h.1 h.2.1

/-- The list of all ancestors has the superclasses, the interfaces above and the root. -/
theorem Ranking.mem_iff {name : String} {chain : List String} {ranked : List RankedName}
    (h : world.Ranking name chain ranked) :
    c ∈ chain ++ ranked.map (·.name) ++ [rootName] ↔
      (world.IsClass c ∧ ReflTransGen world.HasSuperclass name c) ∨
        (world.isInterface c = true ∧ ReflTransGen world.Extends name c) ∨ c = rootName := by
  rw [List.mem_append, List.mem_append, List.mem_singleton, h.chain.mem_iff, or_assoc, and_comm]
  refine or_congr_right (or_congr_left ⟨fun member => ?_, fun ⟨interface, path⟩ => ?_⟩)
  · obtain ⟨r, listed, rfl⟩ := List.mem_map.1 member
    exact ⟨(h.above r listed).1, (h.above r listed).2.1⟩
  · obtain ⟨r, member, named⟩ := h.all c interface path
    exact List.mem_map.2 ⟨r, member, named⟩

/-- The first one that passes a test in a list by rank ranks before all others that do. -/
theorem ranksBefore_of_find? {ranked : List RankedName} {r : RankedName}
    {test : RankedName → Bool} (sorted : ranked.Pairwise fun a b => a.ranksBefore b = true)
    (found : ranked.find? test = some r) :
    ∀ r' ∈ ranked, test r' = true → r.ranksBefore r' = true := by
  obtain ⟨-, before, after, rfl, failed⟩ := List.find?_eq_some_iff_append.1 found
  intro r' member passes
  rcases List.mem_append.1 member with early | late
  · have fails := failed r' early
    rw [passes] at fails
    cases fails
  · rcases List.mem_cons.1 late with rfl | late
    · exact r'.ranksBefore_refl
    · exact (List.pairwise_cons.1 (List.pairwise_append.1 sorted).2.1).1 r' late

/-- **What the lists of two classes or interfaces share first.** -/
theorem firstShared_of_lists (isTypeA : world.IsType a) (isTypeB : world.IsType b)
    (first : world.Lists a above) (second : world.Lists b aboveOther) :
    world.FirstShared a b ((firstShared above aboveOther).getD rootName) := by
  obtain ⟨chain, ranked, ranking, rfl⟩ := exists_ranking isTypeA first
  obtain ⟨chain', ranked', ranking', rfl⟩ := exists_ranking isTypeB second
  generalize names : chain' ++ ranked'.map (·.name) ++ [rootName] = others
  have listed (c : String) : others.contains c = true ↔ (world.IsClass c ∧
      ReflTransGen world.HasSuperclass b c) ∨ (world.isInterface c = true ∧
        ReflTransGen world.Extends b c) ∨ c = rootName := by
    rw [← names, ← ranking'.mem_iff, List.contains_iff_mem]
  have sharedClass {c : String} (member : c ∈ chain) :
      others.contains c = true ↔ world.SharedClass a b c := by
    obtain ⟨path, isClass⟩ := ranking.chain.mem_iff.1 member
    rw [listed]
    constructor
    · rintro (⟨-, path'⟩ | ⟨interface, -⟩ | root)
      · exact ⟨isClass, path, path'⟩
      · rw [isClass.not_isInterface] at interface
        cases interface
      · exact absurd root isClass.ne_rootName
    · exact fun shared => .inl ⟨isClass, shared.2.2⟩
  have sharedInterface {r : RankedName} (member : r ∈ ranked) :
      others.contains r.name = true ↔ world.SharedInterface a b r.name := by
    obtain ⟨interface, path, -⟩ := ranking.above r member
    rw [listed]
    constructor
    · rintro (⟨isClass, -⟩ | ⟨-, path'⟩ | root)
      · rw [isClass.not_isInterface] at interface
        cases interface
      · exact ⟨interface, path, path'⟩
      · exact absurd root (ne_rootName_of_isInterface interface)
    · exact fun shared => .inr (.inl ⟨interface, shared.2.2⟩)
  -- The list is searched in its three parts: the chain, the interfaces by rank, and the root.
  unfold firstShared
  rw [List.find?_append, List.find?_append]
  cases onChain : chain.find? others.contains with
  | some c =>
    obtain ⟨⟨member, shared⟩, least⟩ := ranking.chain.find?_eq_some onChain
    refine .nearest ⟨(sharedClass member).1 shared, fun d shared' => ?_⟩
    have member' := ranking.chain.mem_iff.2 ⟨shared'.2.1, shared'.1⟩
    exact least d member' ((sharedClass member').2 shared')
  | none =>
    have noClass (d : String) : ¬ world.SharedClass a b d := fun shared => by
      have member := ranking.chain.mem_iff.2 ⟨shared.2.1, shared.1⟩
      exact List.find?_eq_none.1 onChain d member ((sharedClass member).2 shared)
    rw [List.find?_map]
    cases byRank : ranked.find? (others.contains ∘ fun r => r.name) with
    | some r =>
      have member := List.mem_of_find?_eq_some byRank
      have passes : (others.contains ∘ fun r => r.name) r = true := List.find?_some byRank
      have shared := (sharedInterface member).1 passes
      refine .ranked noClass ⟨shared, r, (ranking.ranks r).1 member, rfl, fun r' ranks shared' => ?_⟩
      have member' := (ranking.ranks r').2 ranks
      exact ranksBefore_of_find? ranking.sorted byRank r' member'
        ((sharedInterface member').2 shared')
    | none =>
      have noInterface (i : String) : ¬ world.SharedInterface a b i := fun shared => by
        obtain ⟨r, member, rfl⟩ := ranking.all i shared.1 shared.2.1
        exact List.find?_eq_none.1 byRank r member ((sharedInterface member).2 shared)
      have root : others.contains rootName = true := (listed rootName).2 (.inr (.inr rfl))
      simp only [Option.map_none, Option.none_or, List.find?_cons_of_pos root, Option.getD_some]
      exact .root noClass noInterface

/-- A class or interface has no element. -/
theorem IsType.referenceElement (h : world.IsType a) : world.referenceElement a = none := by
  rcases h with root | ⟨declaration, shape⟩
  · simp [Universe.referenceElement, root]
  · simp [Universe.referenceElement, shape]

/-- **What two classes or interfaces have in common in a lawful universe.** -/
theorem Lawful.cases_of_meets (lawful : world.Lawful) (spans : world.Spans extent)
    (isTypeA : world.IsType a) (isTypeB : world.IsType b) (h : world.Meets a b c) :
    (world.Descends a b ∧ c = b) ∨ (¬ world.Descends a b ∧ world.Descends b a ∧ c = a) ∨
      (¬ world.Descends a b ∧ ¬ world.Descends b a ∧ world.FirstShared a b c) := by
  rw [lawful.meets_iff_descends spans isTypeA.resolves isTypeB.resolves] at h
  refine h.imp_right fun ⟨notUp, h⟩ => h.imp (fun h => ⟨notUp, h⟩) fun ⟨notDown, apart⟩ => ?_
  refine ⟨notUp, notDown, ?_⟩
  cases apart with
  | elements first second =>
    rw [isTypeA.referenceElement] at first
    cases first
  | ancestors _ first second => exact firstShared_of_lists isTypeA isTypeB first second

end Universe

end ClassLattice
