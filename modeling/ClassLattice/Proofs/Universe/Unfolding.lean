import ClassLattice.Proofs.Universe.Cycles
import ClassLattice.Proofs.Universe.Markers

/-!
# The strength of an interface in its unfolding

The unfolding of an interface lists it, the interfaces that it extends, what these extend, and so
on, each as often as there are ways to it.  A class among them is listed and not unfolded.  The
strength of the interface is the number of ordinary interfaces in its unfolding, up to the greatest
strength that is told apart, and does not depend on the type for which the interface is ranked.
-/

set_option autoImplicit false

namespace ClassLattice.Universe

open Relation

variable {world : Universe} {names others occurrences occurrences' : List String} {name : String}
  {limit steps strength strength' : Nat} {path : List String} {onChain : Bool} {met : Lineage}

/-- What occurs in the unfolding of some names along the edges from interfaces to interfaces. -/
inductive Unfolds (world : Universe) : List String → List String → Prop
  | done : Unfolds world [] []
  | interface {name : String} {declaration : Declaration} {rest inner later : List String}
      (shape : world.shape? name = some (.declared declaration))
      (kind : declaration.isInterface = true)
      (below : Unfolds world declaration.interfaceNames inner) (on : Unfolds world rest later) :
      Unfolds world (name :: rest) (name :: (inner ++ later))
  | leaf {name : String} {rest later : List String} (kind : world.isInterface name = false)
      (on : Unfolds world rest later) : Unfolds world (name :: rest) (name :: later)

/-- The number of ordinary interfaces among some occurrences. -/
def countOrdinary (world : Universe) (occurrences : List String) : Nat :=
  occurrences.countP fun name => world.isInterface name && !world.registry.contains name

/-- Ordinary interfaces are counted list by list. -/
theorem countOrdinary_append (occurrences others : List String) :
    world.countOrdinary (occurrences ++ others) =
      world.countOrdinary occurrences + world.countOrdinary others :=
  List.countP_append

/-- **The strength of an interface** is the number of ordinary interfaces in its unfolding, up to
the greatest strength that is told apart. -/
def UnfoldedStrength (world : Universe) (name : String) (strength : Nat) : Prop :=
  ∃ occurrences, world.Unfolds [name] occurrences ∧
    strength = min (world.countOrdinary occurrences) greatestStrength

namespace Unfolds

/-- **Names have one unfolding.** -/
theorem unique (h : world.Unfolds names occurrences) (h' : world.Unfolds names occurrences') :
    occurrences = occurrences' := by
  induction h generalizing occurrences' with
  | done =>
    cases h'
    rfl
  | interface shape kind _ _ ihBelow ihOn =>
    cases h' with
    | interface shape' _ below on =>
      obtain rfl := Shape.declared.inj (Option.some.inj (shape.symm.trans shape'))
      rw [ihBelow below, ihOn on]
    | leaf kind' =>
      rw [isInterface_of_declared shape, kind] at kind'
      cases kind'
  | leaf kind _ ih =>
    cases h' with
    | interface shape' kind' =>
      rw [isInterface_of_declared shape', kind'] at kind
      cases kind
    | leaf _ on => rw [ih on]

/-- Names one after the other unfold one after the other. -/
theorem append {occurrences' : List String} (h : world.Unfolds names occurrences)
    (h' : world.Unfolds others occurrences') :
    world.Unfolds (names ++ others) (occurrences ++ occurrences') := by
  induction h with
  | done => exact h'
  | interface shape kind below _ _ ih =>
    rw [List.cons_append, List.cons_append, List.append_assoc]
    exact .interface shape kind below ih
  | leaf kind _ ih => exact .leaf kind ih

/-- Names have an unfolding if each of them has. -/
theorem exists_of_forall (h : ∀ name ∈ names, ∃ occurrences, world.Unfolds [name] occurrences) :
    ∃ occurrences, world.Unfolds names occurrences := by
  induction names with
  | nil => exact ⟨[], .done⟩
  | cons name rest ih =>
    obtain ⟨here, first⟩ := h name List.mem_cons_self
    obtain ⟨later, on⟩ := ih fun other member => h other (List.mem_cons_of_mem _ member)
    exact ⟨here ++ later, first.append on⟩

/-- **The weight of names counts the ordinary interfaces in their unfolding**, where it goes deep
enough. -/
theorem sum_weight (h : world.Unfolds names occurrences) :
    ∃ limit, ∀ more, limit ≤ more →
      (names.map (world.weight more)).sum = world.countOrdinary occurrences := by
  induction h with
  | done => exact ⟨0, fun _ _ => rfl⟩
  | @interface name declaration rest inner later shape kind _ _ ihBelow ihOn =>
    obtain ⟨deep, below⟩ := ihBelow
    obtain ⟨far, on⟩ := ihOn
    refine ⟨max (deep + 1) far, fun more le => ?_⟩
    obtain ⟨less, rfl⟩ : ∃ less, more = less + 1 := ⟨more - 1, by omega⟩
    have here : world.weight (less + 1) name =
        declaration.ownStrength + world.countOrdinary inner := by
      rw [weight, shape]
      simp only [kind, if_true]
      rw [below less (by omega)]
    have own : declaration.ownStrength = world.countOrdinary [name] := by
      unfold Declaration.ownStrength countOrdinary
      rw [List.countP_singleton, isInterface_of_declared shape, kind, isMarker_eq shape]
      cases world.registry.contains name <;> rfl
    rw [List.map_cons, List.sum_cons, here, own, on _ (by omega)]
    show _ = world.countOrdinary ([name] ++ (inner ++ later))
    rw [countOrdinary_append, countOrdinary_append, Nat.add_assoc]
  | @leaf name rest later kind _ ih =>
    obtain ⟨far, on⟩ := ih
    refine ⟨far, fun more le => ?_⟩
    have here : world.weight more name = 0 := by
      cases more with
      | zero => rfl
      | succ less =>
        rw [weight]
        split
        · rename_i declaration shape
          rw [isInterface_of_declared shape] at kind
          simp [kind]
        · rfl
    have none : world.countOrdinary [name] = 0 := by simp [countOrdinary, kind]
    rw [List.map_cons, List.sum_cons, here, on more le]
    show _ = world.countOrdinary ([name] ++ later)
    rw [countOrdinary_append, none]

end Unfolds

/-- An interface has one strength. -/
theorem UnfoldedStrength.unique (h : world.UnfoldedStrength name strength)
    (h' : world.UnfoldedStrength name strength') : strength = strength' := by
  obtain ⟨occurrences, unfolds, rfl⟩ := h
  obtain ⟨occurrences', unfolds', rfl⟩ := h'
  rw [unfolds.unique unfolds']

/-- The strength that a walk finds is that of the unfolding. -/
theorem HasStrength.unfolded (h : world.HasStrength limit name strength)
    (unfolds : world.Unfolds [name] occurrences) :
    strength = min (world.countOrdinary occurrences) greatestStrength := by
  obtain ⟨deep, sums⟩ := unfolds.sum_weight
  have enough := sums (max limit deep) (Nat.le_max_right _ _)
  rw [List.map_singleton, List.sum_singleton] at enough
  rw [h _ (Nat.le_max_left _ _), enough]

/-- **What a walk gathers from has an unfolding.** -/
theorem exists_unfolds_of_gather {found : Nat × Lineage}
    (h : world.gather limit path onChain steps name met = some found) :
    ∃ occurrences, world.Unfolds [name] occurrences := by
  induction limit generalizing path onChain steps name met found with
  | zero => cases h
  | succ limit ih =>
    cases kind : world.isInterface name with
    | false => exact ⟨[name], .leaf kind .done⟩
    | true =>
      obtain ⟨declaration, shape⟩ := exists_of_isInterface kind
      have each : ∀ parent ∈ declaration.interfaceNames,
          ∃ occurrences, world.Unfolds [parent] occurrences := by
        intro parent member
        obtain ⟨path, onChain, steps, met, found, walked⟩ :=
          exists_gather_of_extends h (extends_interface shape member)
        exact ih walked
      obtain ⟨inner, below⟩ := Unfolds.exists_of_forall each
      rw [isInterface_of_declared shape] at kind
      exact ⟨name :: (inner ++ []), .interface shape kind below .done⟩

/-- A walk that gathers from a type has gathered from all that is above it. -/
theorem exists_gather_of_reflTransGen {found : Nat × Lineage} {other : String}
    (h : world.gather limit path onChain steps name met = some found)
    (up : ReflTransGen world.Extends name other) :
    ∃ limit path onChain steps met found,
      world.gather limit path onChain steps other met = some found := by
  induction up with
  | refl => exact ⟨limit, path, onChain, steps, met, found, h⟩
  | tail _ extended ih =>
    obtain ⟨limit, path, onChain, steps, met, found, walked⟩ := ih
    cases limit with
    | zero => cases walked
    | succ limit => exact ⟨limit, exists_gather_of_extends walked extended⟩

end ClassLattice.Universe
