import ClassLattice.Proofs.Universe.Shared

/-!
# When the order of two types does not matter

What two classes or interfaces have in common is found by a walk from the first of them, and the
depths by which it ranks interfaces of equal strength are counted from there.  So the answer
depends on the order of the two exactly where they share no class, neither descends from the other,
and the shared interface that ranks first from one does not rank first from the other.
-/

set_option autoImplicit false

namespace ClassLattice.Universe

open Relation

variable {world : Universe} {a b c c' : String} {extent : Nat}

/-- **The order of two classes or interfaces does not matter.** -/
inductive OrderFree (world : Universe) (a b : String) : Prop
  | up (h : world.Descends a b) : OrderFree world a b
  | down (h : world.Descends b a) : OrderFree world a b
  | sharedClass {c : String} (h : world.SharedClass a b c) : OrderFree world a b
  | noInterface (h : ∀ i, ¬ world.SharedInterface a b i) : OrderFree world a b
  | sameFirst {c : String} (h : world.RanksFirst a b c) (h' : world.RanksFirst b a c) :
      OrderFree world a b

/-- The first shared interface by rank is the one with the least rank among those gathered. -/
theorem ranksFirst_of_gather {limit : Nat} {found : Nat × Lineage} {r : RankedName}
    (gathered : world.gather limit [] true 0 a {} = some found) (member : r ∈ found.2.interfaces)
    (shared : world.SharedInterface a b r.name)
    (least : ∀ r' ∈ found.2.interfaces, world.SharedInterface a b r'.name →
      r.ranksBefore r' = true) : world.RanksFirst a b r.name := by
  refine ⟨shared, r, (ranks_iff gathered).2 member, rfl, fun r' ranks shared' => ?_⟩
  exact least r' ((ranks_iff gathered).1 ranks) shared'

/-- One shared interface is ranked first. -/
theorem RanksFirst.unique (h : world.RanksFirst a b c) (h' : world.RanksFirst a b c') : c = c' := by
  obtain ⟨shared, r, ranks, rfl, least⟩ := h
  obtain ⟨shared', r', ranks', rfl, least'⟩ := h'
  exact RankedName.name_eq_of_ranksBefore (least r' ranks' shared') (least' r ranks shared)

/-- In a lawful universe no two classes are above each other. -/
theorem Lawful.hasSuperclass_antisymm (lawful : world.Lawful)
    (h : ReflTransGen world.HasSuperclass c c') (h' : ReflTransGen world.HasSuperclass c' c) :
    c = c' := by
  have up {x y : String} (h : ReflTransGen world.HasSuperclass x y) :
      ReflTransGen world.Extends x y :=
    ReflTransGen.mono (fun _ _ edge => HasSuperclass.extends edge) _ _ h
  -- Two different superclasses above each other would close a cycle.
  rcases reflTransGen_iff_eq_or_transGen.1 (up h) with same | path
  · exact same.symm
  · exact absurd (path.trans_left (up h')) (lawful.acyclic c)

/-- Names have one nearest class. -/
theorem Nearest.unique (lawful : world.Lawful) (h : world.Nearest a b c)
    (h' : world.Nearest a b c') : c = c' :=
  lawful.hasSuperclass_antisymm (h.2 c' h'.1) (h'.2 c h.1)

/-- What two unrelated classes or interfaces share first from either side. -/
theorem firstShared_eq_iff (lawful : world.Lawful) (notUp : ¬ world.Descends a b)
    (notDown : ¬ world.Descends b a) (h : world.FirstShared a b c)
    (h' : world.FirstShared b a c') : c = c' ↔ world.OrderFree a b := by
  cases h with
  | nearest nearest =>
    cases h' with
    | nearest nearest' =>
      exact ⟨fun _ => .sharedClass nearest.1, fun _ => nearest.unique lawful nearest'.symm⟩
    | ranked noClass => exact absurd nearest.1.symm (noClass c)
    | root noClass => exact absurd nearest.1.symm (noClass c)
  | ranked noClass first =>
    cases h' with
    | nearest nearest => exact absurd nearest.1.symm (noClass c')
    | ranked _ first' =>
      constructor
      · rintro rfl
        exact .sameFirst first first'
      · intro free
        cases free with
        | up up => exact absurd up notUp
        | down down => exact absurd down notDown
        | sharedClass shared => exact absurd shared (noClass _)
        | noInterface none => exact absurd first.1 (none c)
        | sameFirst same same' => exact (first.unique same).trans (same'.unique first')
    | root _ noInterface => exact absurd first.1.symm (noInterface c)
  | root noClass noInterface =>
    cases h' with
    | nearest nearest => exact absurd nearest.1.symm (noClass c')
    | ranked _ first => exact absurd first.1.symm (noInterface c')
    | root => exact ⟨fun _ => .noInterface noInterface, fun _ => rfl⟩

/-- **Two classes or interfaces have the same in common in either order exactly if their order does
not matter.** -/
theorem Lawful.meets_eq_iff (lawful : world.Lawful) (spans : world.Spans extent)
    (isTypeA : world.IsType a) (isTypeB : world.IsType b) (h : world.Meets a b c)
    (h' : world.Meets b a c') : c = c' ↔ world.OrderFree a b := by
  rcases lawful.cases_of_meets spans isTypeA isTypeB h with
    ⟨up, rfl⟩ | ⟨notUp, down, rfl⟩ | ⟨notUp, notDown, first⟩
  · refine ⟨fun _ => .up up, fun _ => ?_⟩
    rcases lawful.cases_of_meets spans isTypeB isTypeA h' with
      ⟨down, rfl⟩ | ⟨-, -, rfl⟩ | ⟨-, notUp, -⟩
    · exact lawful.descends_antisymm isTypeB isTypeA down up
    · rfl
    · exact absurd up notUp
  · refine ⟨fun _ => .down down, fun _ => ?_⟩
    rcases lawful.cases_of_meets spans isTypeB isTypeA h' with
      ⟨-, rfl⟩ | ⟨notDown, -⟩ | ⟨notDown, -⟩
    · rfl
    · exact absurd down notDown
    · exact absurd down notDown
  · rcases lawful.cases_of_meets spans isTypeB isTypeA h' with
      ⟨down, -⟩ | ⟨-, up, -⟩ | ⟨-, -, first'⟩
    · exact absurd down notDown
    · exact absurd up notUp
    · exact firstShared_eq_iff lawful notUp notDown first first'

end ClassLattice.Universe
