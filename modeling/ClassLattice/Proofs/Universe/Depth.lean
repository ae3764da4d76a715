import ClassLattice.Hierarchy.Workspace
import ClassLattice.Proofs.Universe.Walks
import Mathlib.Algebra.GroupWithZero.Nat
import Mathlib.Algebra.Order.BigOperators.Group.List
import Mathlib.Algebra.Order.Group.Nat

/-!
# How deep a walk can go

A walk takes each class or interface at most once before it stops, and between two of them at most
one array layer for each byte of a name.  So it cannot go deeper than the weight of all names that
occur as supertypes allows.
-/

set_option autoImplicit false

namespace ClassLattice

/-- A name weighs more than it has layers. -/
theorem layers_lt_nameWeight (name : String) : layers name < nameWeight name := by
  have bytes (chars : List Char) : chars.length ≤ (String.ofList chars).utf8ByteSize := by
    induction chars with
    | nil => exact Nat.zero_le _
    | cons head rest ih =>
      rw [String.ofList_cons, String.utf8ByteSize_append, String.utf8ByteSize_singleton]
      have positive := head.utf8Size_pos
      simp only [List.length_cons]
      omega
  have all := bytes name.toList
  rw [String.ofList_toList] at all
  have fewer : layers name ≤ name.toList.length := (List.takeWhile_sublist _).length_le
  unfold nameWeight
  omega

/-- The weight of names is the sum of their weights. -/
theorem namesWeight_eq_sum (names : List String) :
    namesWeight names = (names.map nameWeight).sum := by
  induction names with
  | nil => rfl
  | cons name rest ih =>
    rw [List.map_cons, List.sum_cons, ← ih]
    rfl

/-- Distinct names weigh no more than a list that has them all. -/
theorem namesWeight_le_of_subset {names others : List String} (nodup : names.Nodup)
    (subset : names ⊆ others) : namesWeight names ≤ namesWeight others := by
  rw [namesWeight_eq_sum, namesWeight_eq_sum]
  obtain ⟨same, perm, sublist⟩ := List.subperm_of_subset nodup subset
  rw [← (perm.map nameWeight).sum_eq]
  exact List.Sublist.sum_le_sum (sublist.map nameWeight) fun _ _ => Nat.zero_le _

namespace Universe

variable {world : Universe} {depth extent : Nat} {path : List String} {name parent : String}
  {types : String → Prop}

/-- The class or interface at the core of an array, or the name itself. -/
inductive Core (world : Universe) : String → String → Prop
  | declared {name : String} {declaration : Declaration}
      (h : world.shape? name = some (.declared declaration)) : Core world name name
  | element {name element core : String} (h : world.shape? name = some (.array element))
      (below : Core world element core) : Core world name core

/-- A name has one core. -/
theorem Core.unique {core other : String} (h : world.Core name core) (h' : world.Core name other) :
    core = other := by
  induction h with
  | declared shape =>
    cases h' with
    | declared => rfl
    | element array =>
      rw [shape] at array
      cases array
  | element array _ ih =>
    cases h' with
    | declared shape =>
      rw [shape] at array
      cases array
    | element array' below =>
      obtain rfl := Shape.array.inj (Option.some.inj (array.symm.trans array'))
      exact ih below

/-- A name occurs as a supertype of one of some types. -/
def IsSupertype (world : Universe) (types : String → Prop) (parent : String) : Prop :=
  ∃ name, types name ∧ world.Extends name parent

/-- Distinct supertypes of some types weigh at most so much. -/
def SpansOver (world : Universe) (types : String → Prop) (extent : Nat) : Prop :=
  ∀ names : List String, names.Nodup → (∀ name ∈ names, world.IsSupertype types name) →
    namesWeight names ≤ extent

/-- Distinct supertypes weigh at most so much. -/
def Spans (world : Universe) (extent : Nat) : Prop := world.SpansOver (fun _ => True) extent

/-- A walk that can go up to a depth can go up to any smaller one. -/
theorem Deep.mono {less : Nat} (h : world.Deep depth path name) (le : less ≤ depth) :
    world.Deep less path name := by
  induction h generalizing less with
  | spent path name =>
    obtain rfl := Nat.le_zero.1 le
    exact .spent path name
  | element shape _ ih =>
    cases less with
    | zero => exact .spent _ _
    | succ less => exact .element shape (ih (Nat.le_of_succ_le_succ le))
  | above extended new _ ih =>
    cases less with
    | zero => exact .spent _ _
    | succ less => exact .above extended new (ih (Nat.le_of_succ_le_succ le))

/-- What a deep walk passes: it ends below the name where it starts, or it takes distinct
supertypes, of which only the last may have been taken before. -/
theorem Deep.passes (h : world.Deep depth path name) (upward : world.Upward types)
    (start : types name) :
    depth ≤ layers name + 1 ∨ ∃ core names last, world.Core name core ∧ core ∉ path ∧
      names.Nodup ∧ (∀ name ∈ names, world.IsSupertype types name ∧
        ∃ inner, world.Core name inner ∧ inner ∉ core :: path) ∧
      world.IsSupertype types last ∧
        depth ≤ layers name + 1 + namesWeight names + nameWeight last := by
  induction h with
  | spent => exact .inl (Nat.zero_le _)
  | @element depth path name element shape _ ih =>
    have deeper := layers_of_layout (shape?_array_iff.1 shape).2
    rcases ih (upward name element start (.inr shape)) with
      less | ⟨core, names, last, below, new, nodup, all, isLast, less⟩
    · exact .inl (by omega)
    · exact .inr ⟨core, names, last, .element shape below, new, nodup, all, isLast, by omega⟩
  | @above depth path name parent extended new _ ih =>
    right
    have isSupertype : world.IsSupertype types parent := ⟨name, start, extended⟩
    have further := ih (upward name parent start (.inl extended))
    obtain ⟨declaration, shape, member⟩ := extended
    rcases further with less | ⟨core, names, last, below, newCore, nodup, all, isLast, less⟩
    · refine ⟨name, [], parent, .declared shape, new, List.nodup_nil,
        fun _ absurd => (List.not_mem_nil absurd).elim, isSupertype, ?_⟩
      -- A supertype pays with its weight for the array layers below its own.
      have weight := layers_lt_nameWeight parent
      simp only [namesWeight, List.foldr_nil]
      omega
    · refine ⟨name, parent :: names, last, .declared shape, new, List.nodup_cons.2 ⟨?_, nodup⟩,
        fun other member => ?_, isLast, ?_⟩
      · intro again
        obtain ⟨-, inner, below', newInner⟩ := all parent again
        exact newInner (below.unique below' ▸ List.mem_cons_self)
      · rcases List.mem_cons.1 member with rfl | rest
        · exact ⟨isSupertype, core, below, newCore⟩
        · obtain ⟨isSupertype', inner, below', newInner⟩ := all other rest
          exact ⟨isSupertype', inner, below', fun seen => newInner (List.mem_cons_of_mem _ seen)⟩
      · have weight := layers_lt_nameWeight parent
        have more : namesWeight (parent :: names) = nameWeight parent + namesWeight names := rfl
        omega

/-- **How deep a walk can go** among types that use only one another. -/
theorem Deep.le_over (h : world.Deep depth path name) (upward : world.Upward types)
    (start : types name) (spans : world.SpansOver types extent) :
    depth ≤ layers name + 1 + 2 * extent := by
  rcases h.passes upward start with less | ⟨core, names, last, -, -, nodup, all, isLast, less⟩
  · omega
  · have weight := spans names nodup fun name member => (all name member).1
    have lastWeight := spans [last] (by simp) fun name member => by
      rw [List.mem_singleton.1 member]
      exact isLast
    have single : namesWeight [last] = nameWeight last := rfl
    omega

/-- **No walk goes deeper than the layers of its start and the supertypes on the way allow.** -/
theorem Deep.le (h : world.Deep depth path name) (spans : world.Spans extent) :
    depth ≤ layers name + 1 + 2 * extent :=
  h.le_over (fun _ _ _ _ => trivial) trivial spans

/-- A nested name has no more layers than the outer one. -/
theorem Nests.layers_le {inner : String} (h : world.Nests name inner) :
    layers inner ≤ layers name := by
  induction h with
  | self => exact Nat.le_refl _
  | element shape _ ih =>
    have deeper := layers_of_layout (shape?_array_iff.1 shape).2
    omega

end Universe

end ClassLattice
