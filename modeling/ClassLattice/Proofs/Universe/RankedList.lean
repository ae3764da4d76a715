import ClassLattice.Proofs.Universe.Ranking
import ClassLattice.Proofs.Universe.Unfolding
import ClassLattice.Proofs.Universe.Visits

/-!
# The ranked list of ancestors

The list of all ancestors of a class or interface, told without a walk that ranks: the classes on
its chain of superclasses, then each interface above it once, and then the root.  An interface is
ahead of another if its unfolding makes it stronger, or else if it is met at a lesser depth, or
else by name.  This determines the list.
-/

set_option autoImplicit false

namespace ClassLattice

namespace RankedName

variable {a b : RankedName}

/-- An interface is ahead of another. -/
def Precedes (a b : RankedName) : Prop :=
  b.strength < a.strength ∨ a.strength = b.strength ∧
    (a.depth < b.depth ∨ a.depth = b.depth ∧ a.name < b.name)

/-- No two interfaces are ahead of each other. -/
theorem Precedes.asymm (h : a.Precedes b) : ¬ b.Precedes a := by
  intro h'
  rcases h with less | ⟨strength, less | ⟨depth, less⟩⟩ <;>
    rcases h' with less' | ⟨strength', less' | ⟨depth', less'⟩⟩
  all_goals first
    | omega
    | exact String.lt_asymm less less'

/-- What ranks before another of a different name is ahead of it. -/
theorem precedes_of_ranksBefore (h : a.ranksBefore b = true) (apart : a.name ≠ b.name) :
    a.Precedes b := by
  rcases ranksBefore_iff.1 h with less | ⟨strength, less | ⟨depth, le⟩⟩
  · exact .inl less
  · exact .inr ⟨strength, .inl less⟩
  · have less : a.name < b.name := by
      by_contra not
      exact apart (String.le_antisymm le (String.not_lt.1 not))
    exact .inr ⟨strength, .inr ⟨depth, less⟩⟩

end RankedName

namespace Universe

open Relation

variable {world : Universe} {a name : String} {depth depth' limit : Nat}
  {names names' chain chain' : List String} {interfaces interfaces' : List RankedName}
  {ranked : RankedName}

/-- The depth at which a walk from a name first visits another. -/
def MetAt (world : Universe) (a name : String) (depth : Nat) : Prop :=
  ∃ visited, world.Visits 0 [a] visited ∧ firstDepth visited name = some depth

/-- A name is met at one depth. -/
theorem MetAt.unique (h : world.MetAt a name depth) (h' : world.MetAt a name depth') :
    depth = depth' := by
  obtain ⟨visited, visits, first⟩ := h
  obtain ⟨visited', visits', first'⟩ := h'
  rw [visits.unique visits', first'] at first
  exact (Option.some.inj first).symm

/-- A name has one chain of superclasses. -/
theorem Chain.unique (h : world.Chain a chain) (h' : world.Chain a chain') : chain = chain' := by
  induction h generalizing chain' with
  | stop none =>
    cases h' with
    | stop => rfl
    | last shape => exact absurd shape (none _)
    | step shape => exact absurd shape (none _)
  | last shape none =>
    cases h' with
    | stop none' => exact absurd shape (none' _)
    | last shape' =>
      obtain rfl := Shape.declared.inj (Option.some.inj (shape.symm.trans shape'))
      rfl
    | step shape' superName =>
      obtain rfl := Shape.declared.inj (Option.some.inj (shape.symm.trans shape'))
      rw [none] at superName
      cases superName
  | step shape superName _ ih =>
    cases h' with
    | stop none' => exact absurd shape (none' _)
    | last shape' none' =>
      obtain rfl := Shape.declared.inj (Option.some.inj (shape.symm.trans shape'))
      rw [superName] at none'
      cases none'
    | step shape' superName' above =>
      obtain rfl := Shape.declared.inj (Option.some.inj (shape.symm.trans shape'))
      obtain rfl := Option.some.inj (superName.symm.trans superName')
      rw [ih above]

/-- The ancestors of a class or interface: the classes on its chain, the nearest first, and the
interfaces above it, those of them ahead that rank ahead. -/
structure RankedAncestors (world : Universe) (a : String) (chain : List String)
    (interfaces : List RankedName) : Prop where
  chain : world.Chain a chain
  once : (interfaces.map (·.name)).Nodup
  sorted : interfaces.Pairwise RankedName.Precedes
  all : ∀ name, name ∈ interfaces.map (·.name) ↔
    world.isInterface name = true ∧ ReflTransGen world.Extends a name
  strength : ∀ ranked ∈ interfaces, world.UnfoldedStrength ranked.name ranked.strength
  depth : ∀ ranked ∈ interfaces, world.MetAt a ranked.name ranked.depth

/-- **The ranked list of ancestors** of a class or interface. -/
def IsRankedList (world : Universe) (a : String) (names : List String) : Prop :=
  ∃ chain interfaces, world.RankedAncestors a chain interfaces ∧
    names = chain ++ interfaces.map (·.name) ++ [rootName]

/-! ## There is one such list -/

namespace RankedAncestors

/-- What is ranked by one list is ranked by every other. -/
theorem mem_of_mem (h : world.RankedAncestors a chain interfaces)
    (h' : world.RankedAncestors a chain' interfaces') (member : ranked ∈ interfaces) :
    ranked ∈ interfaces' := by
  have listed : ranked.name ∈ interfaces'.map (·.name) := by
    rw [h'.all, ← h.all]
    exact List.mem_map_of_mem member
  obtain ⟨other, member', same⟩ := List.mem_map.1 listed
  have strength : other.strength = ranked.strength := by
    apply (h'.strength other member').unique
    rw [same]
    exact h.strength ranked member
  have depth : other.depth = ranked.depth := by
    apply (h'.depth other member').unique
    rw [same]
    exact h.depth ranked member
  have equal : other = ranked := by
    cases other
    cases ranked
    simp_all
  exact equal ▸ member'

/-- **The order by rank leaves one list of interfaces.** -/
theorem interfaces_eq (h : world.RankedAncestors a chain interfaces)
    (h' : world.RankedAncestors a chain' interfaces') : interfaces = interfaces' := by
  have perm : interfaces.Perm interfaces' := by
    rw [List.perm_ext_iff_of_nodup h.once.of_map h'.once.of_map]
    intro ranked
    exact ⟨h.mem_of_mem h', h'.mem_of_mem h⟩
  apply perm.eq_of_pairwise _ h.sorted h'.sorted
  intro first second _ _ ahead behind
  exact absurd behind ahead.asymm

end RankedAncestors

/-- **A class or interface has one ranked list of ancestors.** -/
theorem IsRankedList.unique (h : world.IsRankedList a names) (h' : world.IsRankedList a names') :
    names = names' := by
  obtain ⟨chain, interfaces, ancestors, rfl⟩ := h
  obtain ⟨chain', interfaces', ancestors', rfl⟩ := h'
  rw [ancestors.chain.unique ancestors'.chain, ancestors.interfaces_eq ancestors']

/-! ## The walk that ranks finds it -/

/-- An interface that a walk ranks has the strength of its unfolding. -/
theorem Ranks.unfoldedStrength (h : world.Ranks a ranked)
    (up : ReflTransGen world.Extends a ranked.name)
    (strong : world.HasStrength limit ranked.name ranked.strength) :
    world.UnfoldedStrength ranked.name ranked.strength := by
  obtain ⟨_, _, gathered, -⟩ := h
  obtain ⟨_, _, _, _, _, _, walked⟩ := exists_gather_of_reflTransGen gathered up
  obtain ⟨occurrences, unfolds⟩ := exists_unfolds_of_gather walked
  exact ⟨occurrences, unfolds, strong.unfolded unfolds⟩

/-- An interface that a walk ranks has the depth of its first visit. -/
theorem Ranks.metAt (h : world.Ranks a ranked) (interface : world.isInterface ranked.name = true) :
    world.MetAt a ranked.name ranked.depth := by
  obtain ⟨limit, ⟨strength, lineage⟩, gathered, member⟩ := h
  obtain ⟨visited, visits, depths⟩ := records_gather gathered
  refine ⟨visited, visits, ?_⟩
  have recorded := depths ranked.name interface
  rw [Lineage.depthOf_of_mem ((grows_gather gathered).1.nodup .nil) member] at recorded
  exact recorded.symm

/-- **The list of all ancestors of a class or interface is the ranked one.** -/
theorem Lists.isRankedList (h : world.Lists a names) (isType : world.IsType a) :
    world.IsRankedList a names := by
  obtain ⟨chain, interfaces, ranking, rfl⟩ := exists_ranking isType h
  refine ⟨chain, interfaces, ⟨ranking.chain, ranking.nodup, ?_, ?_, ?_, ?_⟩, rfl⟩
  · apply ranking.sorted.imp₂ _ (List.pairwise_map.1 ranking.nodup)
    intro first second ranks apart
    exact RankedName.precedes_of_ranksBefore ranks apart
  · intro name
    constructor
    · intro listed
      obtain ⟨ranked, member, rfl⟩ := List.mem_map.1 listed
      obtain ⟨interface, up, -⟩ := ranking.above ranked member
      exact ⟨interface, up⟩
    · rintro ⟨interface, up⟩
      obtain ⟨ranked, member, rfl⟩ := ranking.all name interface up
      exact List.mem_map_of_mem member
  · intro ranked member
    obtain ⟨-, up, limit, strong⟩ := ranking.above ranked member
    exact ((ranking.ranks ranked).1 member).unfoldedStrength up strong
  · intro ranked member
    obtain ⟨interface, -, -⟩ := ranking.above ranked member
    exact ((ranking.ranks ranked).1 member).metAt interface

end Universe

end ClassLattice
