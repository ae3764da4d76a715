import ClassLattice.Proofs.Universe.Ancestry

/-!
# The list of ancestors

The list of all ancestors of a class or interface in terms of what is above it: the classes on its
chain, the nearest first, then the interfaces, none of which ranks before the one ahead of it.
-/

set_option autoImplicit false

namespace ClassLattice

namespace RankedName

variable {a b c : RankedName}

/-- Rank is by strength, then by depth, then by name. -/
theorem ranksBefore_iff :
    a.ranksBefore b = true ↔ b.strength < a.strength ∨ a.strength = b.strength ∧
      (a.depth < b.depth ∨ a.depth = b.depth ∧ a.name ≤ b.name) := by
  unfold ranksBefore
  split_ifs with strength depth
  · simp only [decide_eq_true_eq]
    exact ⟨.inl, fun h => h.elim id fun h => absurd h.1 strength⟩
  · have strength : a.strength = b.strength := by simpa using strength
    simp only [decide_eq_true_eq]
    refine ⟨fun h => .inr ⟨strength, .inl h⟩, ?_⟩
    rintro (less | ⟨-, less | ⟨same, -⟩⟩)
    · omega
    · exact less
    · exact absurd same depth
  · have strength : a.strength = b.strength := by simpa using strength
    have depth : a.depth = b.depth := by simpa using depth
    simp only [decide_eq_true_eq]
    refine ⟨fun h => .inr ⟨strength, .inr ⟨depth, h⟩⟩, ?_⟩
    rintro (less | ⟨-, less | ⟨-, le⟩⟩)
    · omega
    · omega
    · exact le

/-- Rank is transitive. -/
theorem ranksBefore_trans (h : a.ranksBefore b = true) (h' : b.ranksBefore c = true) :
    a.ranksBefore c = true := by
  rw [ranksBefore_iff] at h h' ⊢
  rcases h with less | ⟨strength, less | ⟨depth, le⟩⟩ <;>
    rcases h' with less' | ⟨strength', less' | ⟨depth', le'⟩⟩
  all_goals first
    | exact .inl (by omega)
    | exact .inr ⟨by omega, .inl (by omega)⟩
    | exact .inr ⟨by omega, .inr ⟨by omega, String.le_trans le le'⟩⟩

/-- Interfaces that rank before each other have one name. -/
theorem name_eq_of_ranksBefore (h : a.ranksBefore b = true) (h' : b.ranksBefore a = true) :
    a.name = b.name := by
  rw [ranksBefore_iff] at h h'
  rcases h with less | ⟨strength, less | ⟨depth, le⟩⟩ <;>
    rcases h' with less' | ⟨strength', less' | ⟨depth', le'⟩⟩
  all_goals first
    | omega
    | exact String.le_antisymm le le'

/-- Of two interfaces one ranks before the other. -/
theorem ranksBefore_total (a b : RankedName) : (a.ranksBefore b || b.ranksBefore a) = true := by
  rw [Bool.or_eq_true, ranksBefore_iff, ranksBefore_iff]
  rcases Nat.lt_trichotomy a.strength b.strength with less | same | less
  · exact .inr (.inl less)
  · rcases Nat.lt_trichotomy a.depth b.depth with less | same' | less
    · exact .inl (.inr ⟨same, .inl less⟩)
    · rcases String.le_total a.name b.name with le | le
      · exact .inl (.inr ⟨same, .inr ⟨same', le⟩⟩)
      · exact .inr (.inr ⟨same.symm, .inr ⟨same'.symm, le⟩⟩)
    · exact .inr (.inr ⟨same.symm, .inl less⟩)
  · exact .inl (.inl less)

end RankedName

namespace Lineage

/-- A ranked list is in the order of ranks. -/
theorem sorted_ranked (lineage : Lineage) :
    lineage.ranked.Pairwise fun a b => a.ranksBefore b = true := by
  refine List.pairwise_mergeSort (fun _ _ _ => ?_) RankedName.ranksBefore_total _
  exact RankedName.ranksBefore_trans

/-- To rank interfaces adds none and loses none. -/
theorem perm_ranked (lineage : Lineage) : lineage.ranked.Perm lineage.interfaces :=
  (List.mergeSort_perm _ _).trans (List.reverse_perm _)

end Lineage

namespace Universe

open Relation

variable {world : Universe} {a b c name : String} {chain names : List String}
  {ranked : RankedName}

/-- A name is that of a class other than the root. -/
def IsClass (world : Universe) (name : String) : Prop :=
  ∃ declaration, world.shape? name = some (.declared declaration) ∧ declaration.isInterface = false

/-- The walk that gathers the ancestors of a name ranks an interface. -/
def Ranks (world : Universe) (name : String) (ranked : RankedName) : Prop :=
  ∃ limit found, world.gather limit [] true 0 name {} = some found ∧ ranked ∈ found.2.interfaces

/-- The root is no class of the universe. -/
theorem IsClass.ne_rootName (h : world.IsClass name) : name ≠ rootName := by
  rintro rfl
  obtain ⟨declaration, shape, -⟩ := h
  rw [shape?_root_iff.2 rfl] at shape
  cases shape

/-- The root is no interface. -/
theorem ne_rootName_of_isInterface (h : world.isInterface name = true) : name ≠ rootName := by
  rintro rfl
  obtain ⟨declaration, shape⟩ := exists_of_isInterface h
  rw [shape?_root_iff.2 rfl] at shape
  cases shape

/-- A class is no interface. -/
theorem IsClass.not_isInterface (h : world.IsClass name) : world.isInterface name = false := by
  obtain ⟨declaration, shape, kind⟩ := h
  rw [isInterface, shape]
  exact kind

/-- A class or interface other than the root is a class if it is no interface. -/
theorem IsType.isClass (isType : world.IsType name) (notRoot : name ≠ rootName)
    (kind : world.isInterface name = false) : world.IsClass name := by
  rcases isType with root | ⟨declaration, shape⟩
  · exact absurd (shape?_root_iff.1 root) notRoot
  · rw [isInterface, shape] at kind
    exact ⟨declaration, shape, kind⟩

/-! ## The chain of superclasses -/

/-- The chain of a class has it in front of the superclasses, that of an interface does not. -/
theorem mem_own_iff {declaration : Declaration} {rest : List String}
    (shape : world.shape? name = some (.declared declaration)) :
    (c ∈ if declaration.isInterface then rest else name :: rest) ↔
      (c = name ∧ world.IsClass c) ∨ c ∈ rest := by
  cases kind : declaration.isInterface with
  | false =>
    have isClass : world.IsClass name := ⟨declaration, shape, kind⟩
    simp only [Bool.false_eq_true, if_false, List.mem_cons]
    exact or_congr_left ⟨fun same => ⟨same, same ▸ isClass⟩, And.left⟩
  | true =>
    simp only [if_true]
    refine ⟨.inr, fun h => h.elim (fun ⟨same, isClass⟩ => ?_) id⟩
    have interface : world.isInterface name = true := by
      rw [isInterface, shape]
      exact kind
    subst same
    rw [isClass.not_isInterface] at interface
    cases interface

/-- A superclass of a declared type is the type itself or above its superclass. -/
theorem reflTransGen_hasSuperclass_iff {declaration : Declaration}
    (shape : world.shape? name = some (.declared declaration)) :
    ReflTransGen world.HasSuperclass name c ↔ c = name ∨
      ∃ parent, declaration.superName = some parent ∧ ReflTransGen world.HasSuperclass parent c := by
  constructor
  · intro path
    rcases path.cases_head with rfl | ⟨parent, ⟨declaration', shape', superName⟩, path⟩
    · exact .inl rfl
    · obtain rfl := Shape.declared.inj (Option.some.inj (shape.symm.trans shape'))
      exact .inr ⟨parent, superName, path⟩
  · rintro (rfl | ⟨parent, superName, path⟩)
    · exact .refl
    · exact .head ⟨declaration, shape, superName⟩ path

/-- **The chain holds the classes among the superclasses.** -/
theorem Chain.mem_iff (h : world.Chain name chain) :
    c ∈ chain ↔ ReflTransGen world.HasSuperclass name c ∧ world.IsClass c := by
  induction h with
  | stop none =>
    refine ⟨fun member => (List.not_mem_nil member).elim, fun ⟨path, declaration, shape, _⟩ => ?_⟩
    rcases path.cases_head with rfl | ⟨parent, ⟨declaration', shape', -⟩, -⟩
    · exact absurd shape (none declaration)
    · exact absurd shape' (none declaration')
  | last shape none =>
    rw [mem_own_iff shape, reflTransGen_hasSuperclass_iff shape]
    simp [none]
  | step shape superName above ih =>
    rw [mem_own_iff shape, reflTransGen_hasSuperclass_iff shape, ih]
    simp [superName, or_and_right]

/-- The first class on the chain of which something holds is below all others. -/
theorem Chain.find?_eq_some (h : world.Chain name chain) {test : String → Bool}
    (found : chain.find? test = some c) :
    (c ∈ chain ∧ test c = true) ∧
      ∀ d ∈ chain, test d = true → ReflTransGen world.HasSuperclass c d := by
  refine ⟨⟨List.mem_of_find?_eq_some found, List.find?_some found⟩, ?_⟩
  induction h with
  | stop none => cases found
  | @last name declaration shape none =>
    intro d member passes
    cases kind : declaration.isInterface with
    | true => simp [kind] at member
    | false =>
      simp only [kind, Bool.false_eq_true, if_false, List.mem_singleton] at member found
      subst member
      rw [List.find?_cons_of_pos passes] at found
      exact Option.some.inj found ▸ .refl
  | @step name parent declaration rest shape superName above ih =>
    intro d member passes
    cases kind : declaration.isInterface with
    | true =>
      simp only [kind, if_true] at member found
      exact ih found d member passes
    | false =>
      simp only [kind, Bool.false_eq_true, if_false] at member found
      by_cases here : test name = true
      · rw [List.find?_cons_of_pos here] at found
        obtain rfl := Option.some.inj found
        rcases List.mem_cons.1 member with rfl | later
        · exact .refl
        · exact .head ⟨declaration, shape, superName⟩ (above.mem_iff.1 later).1
      · rw [List.find?_cons_of_neg here] at found
        rcases List.mem_cons.1 member with rfl | later
        · exact absurd passes here
        · exact ih found d later passes

/-! ## The whole list -/

/-- The list of all ancestors of a class or interface: its chain, and the interfaces above it by
rank. -/
structure Ranking (world : Universe) (name : String) (chain : List String)
    (ranked : List RankedName) : Prop where
  chain : world.Chain name chain
  sorted : ranked.Pairwise fun a b => a.ranksBefore b = true
  nodup : (ranked.map (·.name)).Nodup
  ranks : ∀ r, r ∈ ranked ↔ world.Ranks name r
  above : ∀ r ∈ ranked, world.isInterface r.name = true ∧ ReflTransGen world.Extends name r.name ∧
    ∃ limit, world.HasStrength limit r.name r.strength
  all : ∀ i, world.isInterface i = true → ReflTransGen world.Extends name i →
    ∃ r ∈ ranked, r.name = i

/-- What a walk ranks is what it has gathered. -/
theorem ranks_iff {limit : Nat} {found : Nat × Lineage}
    (gathered : world.gather limit [] true 0 name {} = some found) :
    world.Ranks name ranked ↔ ranked ∈ found.2.interfaces := by
  refine ⟨fun ⟨limit', found', gathered', member⟩ => ?_,
    fun member => ⟨limit, found, gathered, member⟩⟩
  have deep := gather_mono (Nat.le_max_left limit limit') gathered
  rw [gather_mono (Nat.le_max_right limit limit') gathered'] at deep
  exact Option.some.inj deep ▸ member

/-- **The list of all ancestors of a class or interface.** -/
theorem exists_ranking (isType : world.IsType name) (h : world.Lists name names) :
    ∃ chain ranked, world.Ranking name chain ranked ∧
      names = chain ++ ranked.map (·.name) ++ [rootName] := by
  obtain ⟨limit, listed⟩ := h
  rcases isType with root | ⟨declaration, shape⟩
  · have undeclared (declaration : Declaration) :
        world.shape? name ≠ some (.declared declaration) := by simp [root]
    rw [flatten, root] at listed
    obtain rfl := Option.some.inj listed
    refine ⟨[], [], ⟨.stop undeclared, .nil, .nil, fun r => ?_, fun _ member =>
      (List.not_mem_nil member).elim, fun i interface path => ?_⟩, by simp [shape?_root_iff.1 root]⟩
    · have gathered : world.gather 1 [] true 0 name {} = some (0, {}) := by simp [gather, root]
      exact (ranks_iff gathered).symm
    · rcases path.cases_head with rfl | ⟨parent, ⟨declaration, shape, -⟩, -⟩
      · exact absurd (shape?_root_iff.1 root) (ne_rootName_of_isInterface interface)
      · exact absurd shape (undeclared declaration)
  · rw [flatten, shape] at listed
    obtain ⟨⟨strength, lineage⟩, gathered, rfl⟩ := Option.map_eq_some_iff.1 listed
    obtain ⟨grows, ⟨chain, isChain, classes⟩, -⟩ := grows_gather gathered
    have perm := lineage.perm_ranked
    refine ⟨chain, lineage.ranked, ⟨isChain, lineage.sorted_ranked, ?_, fun r => ?_,
      fun r member => ?_, fun i interface path => ?_⟩, ?_⟩
    · exact (perm.map _).nodup_iff.2 (grows.nodup .nil)
    · rw [perm.mem_iff]
      exact (ranks_iff gathered).symm
    · rcases grows.adds r (perm.mem_iff.1 member) with before | ⟨above, strength⟩
      · exact (List.not_mem_nil before).elim
      · obtain ⟨interface, source, member, path⟩ := above
        obtain rfl := List.mem_singleton.1 member
        exact ⟨interface, path, limit, strength⟩
    · obtain ⟨r, member, named⟩ :=
        grows.all i ⟨interface, name, List.mem_singleton_self name, path⟩
      exact ⟨r, perm.mem_iff.2 member, named⟩
    · rw [Lineage.toList, classes, List.append_nil, List.reverse_reverse]

end Universe

end ClassLattice
