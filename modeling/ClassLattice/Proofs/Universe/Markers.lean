import ClassLattice.Proofs.Table
import ClassLattice.Proofs.Universe.Specific

/-!
# When a marker is an answer

A marker adds nothing to the strength of an interface by itself, but it has what the interfaces that
it extends add, as any interface has.  So a marker with no ordinary interface above it comes after
all ordinary interfaces, and a marker that extends more ordinary interfaces than any of the ordinary
interfaces that two types share holds comes before them.
-/

set_option autoImplicit false

namespace ClassLattice.Universe

open Relation

variable {world : Universe} {a b c d m name : String} {extent depth limit strength : Nat}
  {declaration : Declaration}

/-- A declaration is that of a marker exactly if its name is registered. -/
theorem isMarker_eq (shape : world.shape? name = some (.declared declaration)) :
    declaration.isMarker = world.registry.contains name := by
  rcases of_shape?_declared shape with ⟨interfaces, registered, rfl⟩ | ⟨none, metadata, -, rfl⟩
  · exact (Table.contains_iff_get?.2 ⟨interfaces, registered⟩).symm
  · refine (Bool.eq_false_iff.2 fun registered => ?_).symm
    obtain ⟨interfaces, registered⟩ := Table.contains_iff_get?.1 registered
    rw [none] at registered
    cases registered

/-- An interface is ordinary exactly if it is not registered. -/
theorem isOrdinary_iff :
    world.IsOrdinary name ↔
      world.isInterface name = true ∧ world.registry.contains name = false := by
  constructor
  · rintro ⟨declaration, shape, kind, marker⟩
    rw [isInterface, shape]
    exact ⟨kind, isMarker_eq shape ▸ marker⟩
  · rintro ⟨interface, unregistered⟩
    obtain ⟨declaration, shape⟩ := exists_of_isInterface interface
    rw [isInterface, shape] at interface
    exact ⟨declaration, shape, interface, (isMarker_eq shape).trans unregistered⟩

/-! ## The strength of markers -/

/-- An interface has a greater strength than another. -/
def Stronger (world : Universe) (name other : String) : Prop :=
  ∃ limit strength strength', world.HasStrength limit name strength ∧
    world.HasStrength limit other strength' ∧ strength' < strength

/-- What weighs anything is an ordinary interface or has one above it. -/
theorem exists_ordinary_of_weight (positive : 0 < world.weight depth name) :
    ∃ i, world.IsOrdinary i ∧ ReflTransGen world.Extends name i := by
  induction depth generalizing name with
  | zero => exact absurd positive (Nat.lt_irrefl 0)
  | succ depth ih =>
    rw [weight] at positive
    split at positive
    · rename_i declaration shape
      split_ifs at positive with kind
      · cases marker : declaration.isMarker with
        | false => exact ⟨name, ⟨declaration, shape, kind, marker⟩, .refl⟩
        | true =>
          have own : declaration.ownStrength = 0 := by
            rw [Declaration.ownStrength, if_pos marker]
          rw [own, Nat.zero_add] at positive
          obtain ⟨share, member, positive⟩ := List.sum_pos_iff_exists_pos_nat.1 positive
          obtain ⟨parent, listed, rfl⟩ := List.mem_map.1 member
          obtain ⟨i, ordinary, path⟩ := ih positive
          exact ⟨i, ordinary, .head (extends_interface shape listed) path⟩
      · exact absurd positive (Nat.lt_irrefl 0)
    · exact absurd positive (Nat.lt_irrefl 0)

/-- An ordinary interface has some strength. -/
theorem IsOrdinary.strength_pos (ordinary : world.IsOrdinary name)
    (h : world.HasStrength limit name strength) : 0 < strength := by
  obtain ⟨declaration, shape, kind, marker⟩ := ordinary
  have own : declaration.ownStrength = 1 := by
    simp [Declaration.ownStrength, kind, marker]
  have same := h (limit + 1) (Nat.le_succ limit)
  rw [weight, shape] at same
  simp only [kind, if_true, own] at same
  have greatest : 1 ≤ greatestStrength := by decide
  omega

namespace RanksFirst

variable {names : List String} (isType : world.IsType a) (lists : world.Lists a names)

include isType lists

/-- What ranks first among the interfaces that two types share is as strong as each of them. -/
theorem exists_strength_le (h : world.RanksFirst a b c) (shared : world.SharedInterface a b d) :
    ∃ limit strength strength', world.HasStrength limit c strength ∧
      world.HasStrength limit d strength' ∧ strength' ≤ strength := by
  obtain ⟨chain, ranked, ranking, -⟩ := exists_ranking isType lists
  obtain ⟨-, r, ranks, rfl, least⟩ := h
  obtain ⟨-, -, limit, hasStrength⟩ := ranking.above r ((ranking.ranks r).2 ranks)
  obtain ⟨r', member, rfl⟩ := ranking.all d shared.1 shared.2.1
  obtain ⟨-, -, limit', hasStrength'⟩ := ranking.above r' member
  refine ⟨max limit limit', r.strength, r'.strength, hasStrength.mono (Nat.le_max_left _ _),
    hasStrength'.mono (Nat.le_max_right _ _), ?_⟩
  have before := RankedName.ranksBefore_iff.1 (least r' ((ranking.ranks r').1 member) shared)
  omega

/-- What ranks first is exceeded in strength by nothing that is shared. -/
theorem not_stronger (h : world.RanksFirst a b c) (shared : world.SharedInterface a b d) :
    ¬ world.Stronger d c := by
  rintro ⟨limit, strength, strength', ofD, ofC, less⟩
  obtain ⟨limit', strongest, other, ofC', ofD', le⟩ := h.exists_strength_le isType lists shared
  rw [ofC.unique ofC', ofD.unique ofD'] at less
  omega

/-- A marker that ranks before an ordinary interface extends one. -/
theorem exists_ordinary_above (h : world.RanksFirst a b c)
    (registered : world.registry.contains c = true) (shared : world.SharedInterface a b d)
    (ordinary : world.IsOrdinary d) : ∃ i, world.IsOrdinary i ∧ TransGen world.Extends c i := by
  obtain ⟨limit, strength, strength', ofC, ofD, le⟩ := h.exists_strength_le isType lists shared
  have positive := ordinary.strength_pos ofD
  have same := ofC limit (Nat.le_refl limit)
  have heavy : 0 < world.weight limit c := by omega
  obtain ⟨i, ordinary', path⟩ := exists_ordinary_of_weight heavy
  refine ⟨i, ordinary', (reflTransGen_iff_eq_or_transGen.1 path).resolve_left ?_⟩
  rintro rfl
  rw [(isOrdinary_iff.1 ordinary').2] at registered
  cases registered

/-- A marker that is stronger than all ordinary interfaces leaves the first place to markers. -/
theorem contains_of_stronger (h : world.RanksFirst a b c) (shared : world.SharedInterface a b m)
    (outdoes : ∀ d, world.SharedInterface a b d → world.IsOrdinary d → world.Stronger m d) :
    world.registry.contains c = true := by
  cases registered : world.registry.contains c with
  | true => rfl
  | false =>
    have ordinary := isOrdinary_iff.2 ⟨h.1.1, registered⟩
    exact absurd (outdoes c h.1 ordinary) (h.not_stronger isType lists shared)

end RanksFirst

/-- **What two types have in common that share interfaces and no class** ranks first from one of
them. -/
theorem Lawful.ranksFirst_of_shares (lawful : world.Lawful) (spans : world.Spans extent)
    (isTypeA : world.IsType a) (isTypeB : world.IsType b) (notUp : ¬ world.Descends a b)
    (notDown : ¬ world.Descends b a) (noClass : ∀ d, ¬ world.SharedClass a b d)
    (shared : world.SharedInterface a b d) (h : world.Shares a b c) :
    world.RanksFirst a b c ∨ world.RanksFirst b a c := by
  have ranks {a b : String} (noClass : ∀ d, ¬ world.SharedClass a b d)
      (shared : world.SharedInterface a b d) (first : world.FirstShared a b c) :
      world.RanksFirst a b c := by
    cases first with
    | nearest nearest => exact absurd nearest.1 (noClass c)
    | ranked _ first => exact first
    | root _ noInterface => exact absurd shared (noInterface d)
  rcases h with meets | meets
  · rcases lawful.cases_of_meets spans isTypeA isTypeB meets with
      ⟨up, -⟩ | ⟨-, down, -⟩ | ⟨-, -, first⟩
    · exact absurd up notUp
    · exact absurd down notDown
    · exact .inl (ranks noClass shared first)
  · rcases lawful.cases_of_meets spans isTypeB isTypeA meets with
      ⟨down, -⟩ | ⟨-, up, -⟩ | ⟨-, -, first⟩
    · exact absurd down notDown
    · exact absurd up notUp
    · exact .inr (ranks (fun d shared => noClass d shared.symm) shared.symm first)

end ClassLattice.Universe
