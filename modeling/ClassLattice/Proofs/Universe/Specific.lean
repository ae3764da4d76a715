import ClassLattice.Proofs.Universe.Shared

/-!
# The most specific common supertype

In a lawful universe shaped as class files are, what two classes or interfaces have in common is
the nearest class that they share; if they share none, an interface below which no ordinary shared
interface lies; and the root only if they share nothing else.
-/

set_option autoImplicit false

namespace ClassLattice.Universe

open Relation

variable {world : Universe} {a b c d name parent : String} {extent more : Nat}

/-- Superclasses are classes, the superclass of an interface is the root, and lists of interfaces
name interfaces. -/
structure ClassShaped (world : Universe) : Prop where
  superclass : ∀ name parent, world.HasSuperclass name parent →
    parent = rootName ∨ world.IsClass name ∧ world.IsClass parent
  interfaces : ∀ name declaration, world.shape? name = some (.declared declaration) →
    ∀ parent ∈ declaration.interfaceNames, world.isInterface parent = true

/-- A name is that of an interface that is not registered as a marker. -/
def IsOrdinary (world : Universe) (name : String) : Prop :=
  ∃ declaration, world.shape? name = some (.declared declaration) ∧
    declaration.isInterface = true ∧ declaration.isMarker = false

/-- The number of nodes in the unfolding of an interface along its interfaces, as far as a depth. -/
def unfolding (world : Universe) : Nat → String → Nat
  | 0, _ => 0
  | depth + 1, name =>
    match world.shape? name with
    | some shape => 1 + (shape.interfaceNames.map (world.unfolding depth)).sum
    | none => 1

/-- The unfolding of every interface holds few enough nodes for its strength to be told apart. -/
def Moderate (world : Universe) : Prop :=
  ∀ name, world.isInterface name = true → ∀ depth, world.unfolding depth name < greatestStrength

/-- **A most specific common supertype of two classes or interfaces.** -/
structure MostSpecific (world : Universe) (a b c : String) : Prop where
  /-- If they share a class other than the root, it is the nearest. -/
  nearest : (∃ d, world.SharedClass a b d) → world.Nearest a b c
  /-- If they share no class but an interface, it is one that no other extends which is shared and
  ordinary. -/
  least : (∀ d, ¬ world.SharedClass a b d) → (∃ i, world.SharedInterface a b i) →
    world.SharedInterface a b c ∧ ∀ d, world.SharedInterface a b d → world.IsOrdinary d →
      ¬ TransGen world.Extends d c
  /-- It is the root exactly if they share nothing else. -/
  root : c = rootName ↔
    (∀ d, ¬ world.SharedClass a b d) ∧ ∀ i, ¬ world.SharedInterface a b i

/-! ## Strength -/

/-- An interface weighs no more than its unfolding. -/
theorem weight_le_unfolding (depth : Nat) (name : String) :
    world.weight depth name ≤ world.unfolding depth name := by
  induction depth generalizing name with
  | zero => exact Nat.le_refl 0
  | succ depth ih =>
    rw [weight, unfolding]
    split
    · rename_i declaration shape
      split_ifs
      · have own : declaration.ownStrength ≤ 1 := by
          unfold Declaration.ownStrength
          split_ifs <;> omega
        have below : (declaration.interfaceNames.map (world.weight depth)).sum ≤
            (declaration.interfaceNames.map (world.unfolding depth)).sum :=
          List.sum_le_sum fun name _ => ih name
        rw [shape]
        exact Nat.add_le_add own below
      · exact Nat.zero_le _
    · exact Nat.zero_le _

/-- An interface weighs as much as each that it lists, and an ordinary one more. -/
theorem weight_succ_ge {declaration : Declaration}
    (shape : world.shape? name = some (.declared declaration))
    (kind : declaration.isInterface = true) (listed : parent ∈ declaration.interfaceNames)
    (depth : Nat) :
    declaration.ownStrength + world.weight depth parent ≤ world.weight (depth + 1) name := by
  rw [weight, shape]
  simp only [kind, if_true]
  have single : world.weight depth parent ≤
      (declaration.interfaceNames.map (world.weight depth)).sum :=
    List.single_le_sum (fun _ _ => Nat.zero_le _) _ (List.mem_map_of_mem listed)
  omega

namespace ClassShaped

/-- In a class-shaped universe an interface extends the root and those that it lists. -/
theorem listed_of_extends (shaped : world.ClassShaped) {declaration : Declaration}
    (shape : world.shape? name = some (.declared declaration))
    (kind : declaration.isInterface = true) (h : world.Extends name parent) :
    parent = rootName ∨ parent ∈ declaration.interfaceNames := by
  obtain ⟨declaration', shape', member⟩ := h
  obtain rfl := Shape.declared.inj (Option.some.inj (shape.symm.trans shape'))
  rcases List.mem_append.1 member with superName | listed
  · rcases shaped.superclass name parent ⟨declaration, shape, by simpa using superName⟩ with
      root | ⟨isClass, -⟩
    · exact .inl root
    · have interface : world.isInterface name = true := by
        rw [isInterface, shape]
        exact kind
      rw [isClass.not_isInterface] at interface
      cases interface
  · exact .inr listed

end ClassShaped

/-- The root extends nothing. -/
theorem not_extends_root : ¬ world.Extends rootName parent := by
  rintro ⟨declaration, shape, -⟩
  rw [shape?_root_iff.2 rfl] at shape
  cases shape

namespace ClassShaped

/-- A step up from an interface to something below an interface goes along the list. -/
theorem listed_of_below (shaped : world.ClassShaped) {declaration : Declaration}
    (shape : world.shape? name = some (.declared declaration))
    (kind : declaration.isInterface = true) (edge : world.Extends name parent)
    (path : ReflTransGen world.Extends parent c) (interface : world.isInterface c = true) :
    parent ∈ declaration.interfaceNames := by
  refine (shaped.listed_of_extends shape kind edge).resolve_left fun root => ?_
  subst root
  rcases path.cases_head with rfl | ⟨other, edge, -⟩
  · exact ne_rootName_of_isInterface interface rfl
  · exact not_extends_root edge

/-- What is above an interface weighs no more than it does, a few steps further down. -/
theorem exists_weight_le (shaped : world.ClassShaped) (path : ReflTransGen world.Extends d c)
    (interfaceD : world.isInterface d = true) (interface : world.isInterface c = true) :
    ∃ steps, ∀ depth, world.weight depth c ≤ world.weight (depth + steps) d := by
  induction path using ReflTransGen.head_induction_on with
  | refl => exact ⟨0, fun _ => Nat.le_refl _⟩
  | @head d parent edge path ih =>
    obtain ⟨declaration, shape⟩ := exists_of_isInterface interfaceD
    have kind : declaration.isInterface = true := by
      rw [isInterface, shape] at interfaceD
      exact interfaceD
    have listed := shaped.listed_of_below shape kind edge path interface
    obtain ⟨steps, less⟩ := ih (shaped.interfaces d declaration shape parent listed)
    refine ⟨steps + 1, fun depth => ?_⟩
    have first := less depth
    have next : _ ≤ world.weight (depth + steps + 1) d :=
      weight_succ_ge shape kind listed (depth + steps)
    rw [← Nat.add_assoc]
    omega

/-- **An ordinary interface weighs more than every interface that it extends.** -/
theorem exists_weight_lt (shaped : world.ClassShaped) (path : TransGen world.Extends d c)
    (ordinary : world.IsOrdinary d) (interface : world.isInterface c = true) :
    ∃ steps, ∀ depth, world.weight depth c < world.weight (depth + steps) d := by
  obtain ⟨declaration, shape, kind, marker⟩ := ordinary
  obtain ⟨parent, edge, path⟩ := TransGen.head'_iff.1 path
  have listed := shaped.listed_of_below shape kind edge path interface
  obtain ⟨steps, less⟩ :=
    shaped.exists_weight_le path (shaped.interfaces d declaration shape parent listed) interface
  refine ⟨steps + 1, fun depth => ?_⟩
  have own : declaration.ownStrength = 1 := by
    simp [Declaration.ownStrength, kind, marker]
  have first := less depth
  have next : _ ≤ world.weight (depth + steps + 1) d :=
    weight_succ_ge shape kind listed (depth + steps)
  rw [← Nat.add_assoc]
  omega

/-- An ordinary interface is stronger than every interface that it extends. -/
theorem strength_lt (shaped : world.ClassShaped) (moderate : world.Moderate)
    (path : TransGen world.Extends d c) (ordinary : world.IsOrdinary d)
    (interface : world.isInterface c = true) {limit limit' strength strength' : Nat}
    (h : world.HasStrength limit c strength) (h' : world.HasStrength limit' d strength') :
    strength < strength' := by
  obtain ⟨steps, less⟩ := shaped.exists_weight_lt path ordinary interface
  have interfaceD : world.isInterface d = true := by
    obtain ⟨declaration, shape, kind, -⟩ := ordinary
    rw [isInterface, shape]
    exact kind
  -- Both strengths are read off at depths where one unfolding holds the other.
  have first := h (max limit limit') (Nat.le_max_left _ _)
  have second := h' (max limit limit' + steps)
    (Nat.le_trans (Nat.le_max_right _ _) (Nat.le_add_right _ _))
  have bound := moderate d interfaceD (max limit limit' + steps)
  have light := world.weight_le_unfolding (max limit limit' + steps) d
  have more := less (max limit limit')
  omega

end ClassShaped

/-! ## The answer -/

/-- No ordinary shared interface extends the one that ranks first. -/
theorem RanksFirst.least (shaped : world.ClassShaped) (moderate : world.Moderate)
    {ranked : List RankedName} {chain : List String} (ranking : world.Ranking a chain ranked)
    (h : world.RanksFirst a b c) (shared : world.SharedInterface a b d)
    (ordinary : world.IsOrdinary d) : ¬ TransGen world.Extends d c := by
  intro path
  obtain ⟨sharedC, r, ranks, rfl, least⟩ := h
  -- The extending interface would be stronger and so rank before the first.
  obtain ⟨interface, -, limit, strength⟩ := ranking.above r ((ranking.ranks r).2 ranks)
  obtain ⟨r', member, rfl⟩ := ranking.all d shared.1 shared.2.1
  obtain ⟨-, -, limit', strength'⟩ := ranking.above r' member
  have less := shaped.strength_lt moderate path ordinary interface strength strength'
  have le := RankedName.ranksBefore_iff.1 (least r' ((ranking.ranks r').1 member) shared)
  omega

/-- A class or interface is the root, a class or an interface. -/
theorem IsType.cases (h : world.IsType name) :
    name = rootName ∨ world.IsClass name ∨ world.isInterface name = true := by
  rcases h with root | ⟨declaration, shape⟩
  · exact .inl (shape?_root_iff.1 root)
  · cases kind : declaration.isInterface with
    | false => exact .inr (.inl ⟨declaration, shape, kind⟩)
    | true =>
      refine .inr (.inr ?_)
      rw [isInterface, shape]
      exact kind

/-- What descends from a class has it among its superclasses. -/
theorem Lawful.superclasses_of_descends (lawful : world.Lawful) (isType : world.IsType a)
    (isClass : world.IsClass b) (h : world.Descends a b) :
    ReflTransGen world.HasSuperclass a b := by
  induction h with
  | self => exact .refl
  | above edge _ ih =>
    have isType' := lawful.closed _ _ (edge_extends edge)
    rcases edge with edge | ⟨interface, -⟩
    · exact .head edge (ih isType' isClass)
    · rw [isClass.not_isInterface] at interface
      cases interface
  | root array => exact absurd array isType.not_array
  | element array => exact absurd array isType.not_array

/-- A most specific supertype is most specific either way. -/
theorem MostSpecific.symm (h : world.MostSpecific a b c) : world.MostSpecific b a c where
  nearest := fun ⟨d, shared⟩ => (h.nearest ⟨d, shared.symm⟩).symm
  least := fun noClass ⟨i, shared⟩ => by
    obtain ⟨sharedC, least⟩ := h.least (fun d shared => noClass d shared.symm) ⟨i, shared.symm⟩
    exact ⟨sharedC.symm, fun d shared => least d shared.symm⟩
  root := h.root.trans ⟨fun ⟨noClass, noInterface⟩ =>
      ⟨fun d shared => noClass d shared.symm, fun i shared => noInterface i shared.symm⟩,
    fun ⟨noClass, noInterface⟩ =>
      ⟨fun d shared => noClass d shared.symm, fun i shared => noInterface i shared.symm⟩⟩

/-- The root shares no class with anything. -/
theorem SharedClass.ne_rootName (h : world.SharedClass a b d) : b ≠ rootName := by
  rintro rfl
  rcases h.2.2.cases_head with rfl | ⟨parent, edge, -⟩
  · exact h.1.ne_rootName rfl
  · exact not_extends_root edge.extends

/-- The root shares no interface with anything. -/
theorem SharedInterface.ne_rootName (h : world.SharedInterface a b d) : b ≠ rootName := by
  rintro rfl
  rcases h.2.2.cases_head with rfl | ⟨parent, edge, -⟩
  · exact ne_rootName_of_isInterface h.1 rfl
  · exact not_extends_root edge

/-- In a class-shaped universe an interface shares no class with anything. -/
theorem ClassShaped.not_sharedClass (shaped : world.ClassShaped)
    (interface : world.isInterface b = true) : ¬ world.SharedClass a b d := by
  rintro ⟨isClass, -, path⟩
  rcases path.cases_head with rfl | ⟨parent, edge, path⟩
  · rw [isClass.not_isInterface] at interface
    cases interface
  · rcases shaped.superclass b parent edge with rfl | ⟨isClass', -⟩
    · rcases path.cases_head with rfl | ⟨other, edge', -⟩
      · exact isClass.ne_rootName rfl
      · exact not_extends_root edge'.extends
    · rw [isClass'.not_isInterface] at interface
      cases interface

/-- A type from which another descends is a most specific supertype of both. -/
theorem Lawful.mostSpecific_of_descends (lawful : world.Lawful) (shaped : world.ClassShaped)
    (isTypeA : world.IsType a) (isTypeB : world.IsType b) (h : world.Descends a b) :
    world.MostSpecific a b b := by
  have sharedClass (isClass : world.IsClass b) : world.SharedClass a b b :=
    ⟨isClass, lawful.superclasses_of_descends isTypeA isClass h, .refl⟩
  have sharedInterface (interface : world.isInterface b = true) : world.SharedInterface a b b :=
    ⟨interface, lawful.reflTransGen_of_descends isTypeA h, .refl⟩
  refine ⟨fun ⟨d, shared⟩ => ?_, fun noClass ⟨i, shared⟩ => ?_, fun root => ?_, fun nothing => ?_⟩
  · rcases isTypeB.cases with root | isClass | interface
    · exact absurd root shared.ne_rootName
    · exact ⟨sharedClass isClass, fun d shared => shared.2.2⟩
    · exact absurd shared (shaped.not_sharedClass interface)
  · rcases isTypeB.cases with root | isClass | interface
    · exact absurd root shared.ne_rootName
    · exact absurd (sharedClass isClass) (noClass b)
    · refine ⟨sharedInterface interface, fun d shared _ path => ?_⟩
      exact lawful.acyclic b (path.trans_right shared.2.2)
  · exact ⟨fun d shared => shared.ne_rootName root, fun i shared => shared.ne_rootName root⟩
  · rcases isTypeB.cases with root | isClass | interface
    · exact root
    · exact absurd (sharedClass isClass) (nothing.1 b)
    · exact absurd (sharedInterface interface) (nothing.2 b)

/-- **What two classes or interfaces have in common is most specific**, in a lawful universe shaped
as class files are. -/
theorem Lawful.mostSpecific (lawful : world.Lawful) (spans : world.Spans extent)
    (shaped : world.ClassShaped) (moderate : world.Moderate) (isTypeA : world.IsType a)
    (isTypeB : world.IsType b) (h : world.Meets a b c) : world.MostSpecific a b c := by
  rcases lawful.cases_of_meets spans isTypeA isTypeB h with
    ⟨up, rfl⟩ | ⟨-, down, rfl⟩ | ⟨-, -, first⟩
  · exact lawful.mostSpecific_of_descends shaped isTypeA isTypeB up
  · exact (lawful.mostSpecific_of_descends shaped isTypeB isTypeA down).symm
  · cases first with
    | nearest nearest =>
      refine ⟨fun _ => nearest, fun noClass => absurd nearest.1 (noClass c), fun root => ?_,
        fun nothing => absurd nearest.1 (nothing.1 c)⟩
      exact absurd root nearest.1.1.ne_rootName
    | ranked noClass ranked =>
      obtain ⟨names, listed⟩ := lawful.exists_lists spans isTypeA.resolves
      obtain ⟨chain, ranking, isRanking, -⟩ := exists_ranking isTypeA listed
      refine ⟨fun ⟨d, shared⟩ => absurd shared (noClass d),
        fun _ _ => ⟨ranked.1, fun d shared ordinary =>
          ranked.least shaped moderate isRanking shared ordinary⟩, fun root => ?_,
        fun nothing => absurd ranked.1 (nothing.2 c)⟩
      exact absurd root (ne_rootName_of_isInterface ranked.1.1)
    | root noClass noInterface =>
      exact ⟨fun ⟨d, shared⟩ => absurd shared (noClass d),
        fun _ ⟨i, shared⟩ => absurd shared (noInterface i), fun _ => ⟨noClass, noInterface⟩,
        fun _ => rfl⟩

end ClassLattice.Universe
