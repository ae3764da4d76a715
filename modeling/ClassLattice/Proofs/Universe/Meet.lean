import ClassLattice.Hierarchy.Common
import ClassLattice.Proofs.Universe.Gather

/-!
# What two names have in common

The most specific type to which values of both of two types can be assigned, as a function of their
names and of what a universe says, without a workspace.  There is no answer where one of the walks
that it takes has none.
-/

set_option autoImplicit false

namespace ClassLattice.Universe

variable {world : Universe} {a b x y answer : String} {limit limit' layers layers' : Nat}

/-- The element of an array of references. -/
def referenceElement (world : Universe) (name : String) : Option String :=
  match world.shape? name with
  | some (.array element) =>
    match world.shape? element with
    | some (.primitive _) => none
    | _ => some element
  | _ => none

/-- The first ancestor of a name, in rank order, that another has too. -/
def sharedAncestor (world : Universe) (limit : Nat) (a b : String) : Option String :=
  (world.flatten limit a).bind fun above =>
    (world.flatten limit b).map fun aboveOther => (firstShared above aboveOther).getD rootName

/-- What two names have in common, where neither descends from the other. -/
def unrelated (world : Universe) (limit : Nat) (ofElements : String → String → Option String)
    (a b : String) : Option String :=
  match world.referenceElement a, world.referenceElement b with
  | some x, some y => (ofElements x y).map arrayDescriptor
  | _, _ => world.sharedAncestor limit a b

/-- What two names have in common.  `limit` bounds the depth of walks, and the last number how many
array layers may be taken off. -/
def common (world : Universe) (limit : Nat) : Nat → (a b : String) → Option String
  | 0, _, _ => none
  | layers + 1, a, b =>
    if world.resolves a && world.resolves b then
      match world.search limit [] a b, world.search limit [] b a with
      | some true, _ => some b
      | some false, some true => some a
      | some false, some false => world.unrelated limit (world.common limit layers) a b
      | _, _ => none
    else none

/-- Two names have an answer in common when they are given in this order. -/
def Meets (world : Universe) (a b answer : String) : Prop :=
  ∃ limit layers, world.common limit layers a b = some answer

/-- Two names have an answer in common in one order or the other. -/
def Shares (world : Universe) (a b answer : String) : Prop :=
  world.Meets a b answer ∨ world.Meets b a answer

/-- A shared ancestor is the same with more depth at hand. -/
theorem sharedAncestor_mono (le : limit ≤ limit')
    (h : world.sharedAncestor limit a b = some answer) :
    world.sharedAncestor limit' a b = some answer := by
  obtain ⟨above, first, rest⟩ := Option.bind_eq_some_iff.1 h
  obtain ⟨aboveOther, second, rfl⟩ := Option.map_eq_some_iff.1 rest
  rw [sharedAncestor, flatten_mono le first, Option.bind_some, flatten_mono le second]
  rfl

/-- What unrelated names have in common is the same with more depth at hand. -/
theorem unrelated_mono {ofElements other : String → String → Option String} (le : limit ≤ limit')
    (imp : ∀ x y answer, ofElements x y = some answer → other x y = some answer)
    (h : world.unrelated limit ofElements a b = some answer) :
    world.unrelated limit' other a b = some answer := by
  unfold unrelated at h ⊢
  split at h
  · obtain ⟨inner, found, rfl⟩ := Option.map_eq_some_iff.1 h
    rw [imp _ _ inner found]
    rfl
  · exact sharedAncestor_mono le h

/-- One layer of the rule: one name is below the other, or they are unrelated both ways. -/
theorem common_succ_iff :
    world.common limit (layers + 1) a b = some answer ↔
      world.resolves a = true ∧ world.resolves b = true ∧
        (world.search limit [] a b = some true ∧ answer = b ∨
          world.search limit [] a b = some false ∧
            (world.search limit [] b a = some true ∧ answer = a ∨
              world.search limit [] b a = some false ∧
                world.unrelated limit (world.common limit layers) a b = some answer)) := by
  rw [common]
  cases resolvesA : world.resolves a <;> cases resolvesB : world.resolves b <;>
    simp only [Bool.and_true, Bool.and_false, if_true, if_false, Bool.false_eq_true, false_and,
      and_false, true_and, reduceCtorEq]
  cases world.search limit [] a b with
  | none => simp
  | some first =>
    cases first with
    | true => simp [eq_comm]
    | false =>
      cases world.search limit [] b a with
      | none => simp
      | some second => cases second <;> simp [eq_comm]

/-- **What two names have in common is the same with more depth and layers at hand.** -/
theorem common_mono (le : limit ≤ limit') (le' : layers ≤ layers')
    (h : world.common limit layers a b = some answer) :
    world.common limit' layers' a b = some answer := by
  induction layers generalizing a b answer layers' with
  | zero => cases h
  | succ layers ih =>
    obtain ⟨more, rfl⟩ : ∃ more, layers' = more + 1 := ⟨layers' - 1, by omega⟩
    rw [common_succ_iff] at h ⊢
    obtain ⟨resolvesA, resolvesB, h⟩ := h
    refine ⟨resolvesA, resolvesB, h.imp (fun h => ⟨search_mono le h.1, h.2⟩) fun h => ?_⟩
    refine ⟨search_mono le h.1, h.2.imp (fun h => ⟨search_mono le h.1, h.2⟩) fun h => ?_⟩
    exact ⟨search_mono le h.1, unrelated_mono le (fun x y answer found => ih (by omega) found) h.2⟩

/-- **Two names in one order have one answer in common.** -/
theorem Meets.unique {answer' : String} (h : world.Meets a b answer)
    (h' : world.Meets a b answer') : answer = answer' := by
  obtain ⟨limit, layers, h⟩ := h
  obtain ⟨limit', layers', h'⟩ := h'
  have deep := common_mono (Nat.le_max_left limit limit') (Nat.le_max_left layers layers') h
  rw [common_mono (Nat.le_max_right limit limit') (Nat.le_max_right layers layers') h'] at deep
  exact (Option.some.inj deep).symm

/-- The list of all ancestors of a name. -/
def Lists (world : Universe) (name : String) (names : List String) : Prop :=
  ∃ limit, world.flatten limit name = some names

/-- A name has one flattened list. -/
theorem Lists.unique {names names' : List String} (h : world.Lists a names)
    (h' : world.Lists a names') : names = names' := by
  obtain ⟨limit, h⟩ := h
  obtain ⟨limit', h'⟩ := h'
  have deep := flatten_mono (Nat.le_max_left limit limit') h
  rw [flatten_mono (Nat.le_max_right limit limit') h'] at deep
  exact (Option.some.inj deep).symm

/-- What two names have in common, where neither descends from the other. -/
inductive Unrelated (world : Universe) : String → String → String → Prop
  | elements {a b x y inner : String} (first : world.referenceElement a = some x)
      (second : world.referenceElement b = some y) (h : world.Meets x y inner) :
      Unrelated world a b (arrayDescriptor inner)
  | ancestors {a b : String} {above aboveOther : List String}
      (flat : world.referenceElement a = none ∨ world.referenceElement b = none)
      (first : world.Lists a above) (second : world.Lists b aboveOther) :
      Unrelated world a b ((firstShared above aboveOther).getD rootName)

/-- Unrelated names have in common what they have at some depth. -/
theorem unrelated_iff :
    world.Unrelated a b answer ↔
      ∃ limit layers, world.unrelated limit (world.common limit layers) a b = some answer := by
  constructor
  · intro h
    cases h with
    | @elements x y inner first second h =>
      obtain ⟨limit, layers, found⟩ := h
      exact ⟨limit, layers, by simp only [unrelated, first, second, found, Option.map_some]⟩
    | @ancestors above aboveOther flat first second =>
      obtain ⟨limit, first⟩ := first
      obtain ⟨limit', second⟩ := second
      have shared : world.sharedAncestor (max limit limit') a b =
          some ((firstShared above aboveOther).getD rootName) := by
        rw [sharedAncestor, flatten_mono (Nat.le_max_left _ _) first, Option.bind_some,
          flatten_mono (Nat.le_max_right _ _) second]
        rfl
      refine ⟨max limit limit', 0, ?_⟩
      unfold unrelated
      split
      · rename_i first second
        rcases flat with none | none
        · rw [first] at none
          cases none
        · rw [second] at none
          cases none
      · exact shared
  · rintro ⟨limit, layers, h⟩
    unfold unrelated at h
    split at h
    · rename_i x y first second
      obtain ⟨inner, found, rfl⟩ := Option.map_eq_some_iff.1 h
      exact .elements first second ⟨limit, layers, found⟩
    · rename_i apart
      obtain ⟨above, first, rest⟩ := Option.bind_eq_some_iff.1 h
      obtain ⟨aboveOther, second, rfl⟩ := Option.map_eq_some_iff.1 rest
      refine .ancestors ?_ ⟨limit, first⟩ ⟨limit, second⟩
      cases left : world.referenceElement a with
      | none => exact .inl rfl
      | some x =>
        cases right : world.referenceElement b with
        | none => exact .inr rfl
        | some y => exact (apart x y left right).elim

/-- **What two names have in common**: the second if the first descends from it, else the first if
the second descends from that, else what two unrelated names have in common. -/
theorem meets_iff :
    world.Meets a b answer ↔
      world.resolves a = true ∧ world.resolves b = true ∧
        (world.Finds [] a b true ∧ answer = b ∨
          world.Finds [] a b false ∧
            (world.Finds [] b a true ∧ answer = a ∨
              world.Finds [] b a false ∧ world.Unrelated a b answer)) := by
  constructor
  · rintro ⟨limit, layers, h⟩
    cases layers with
    | zero => cases h
    | succ layers =>
      obtain ⟨resolvesA, resolvesB, h⟩ := common_succ_iff.1 h
      refine ⟨resolvesA, resolvesB, h.imp (fun h => ⟨⟨limit, h.1⟩, h.2⟩) fun h => ⟨⟨limit, h.1⟩, ?_⟩⟩
      exact h.2.imp (fun h => ⟨⟨limit, h.1⟩, h.2⟩)
        fun h => ⟨⟨limit, h.1⟩, unrelated_iff.2 ⟨limit, layers, h.2⟩⟩
  · rintro ⟨resolvesA, resolvesB, ⟨⟨limit, up⟩, rfl⟩ | ⟨⟨limit, notUp⟩, h⟩⟩
    · exact ⟨limit, 1, common_succ_iff.2 ⟨resolvesA, resolvesB, .inl ⟨up, rfl⟩⟩⟩
    · rcases h with ⟨⟨limit', down⟩, rfl⟩ | ⟨⟨limit', notDown⟩, apart⟩
      · refine ⟨max limit limit', 1, common_succ_iff.2 ⟨resolvesA, resolvesB, .inr ⟨?_, .inl ?_⟩⟩⟩
        · exact search_mono (Nat.le_max_left _ _) notUp
        · exact ⟨search_mono (Nat.le_max_right _ _) down, rfl⟩
      · obtain ⟨limit'', layers, apart⟩ := unrelated_iff.1 apart
        have most : max limit limit' ≤ max (max limit limit') limit'' := Nat.le_max_left _ _
        refine ⟨max (max limit limit') limit'', layers + 1,
          common_succ_iff.2 ⟨resolvesA, resolvesB, .inr ⟨?_, .inr ⟨?_, ?_⟩⟩⟩⟩
        · exact search_mono (Nat.le_trans (Nat.le_max_left _ _) most) notUp
        · exact search_mono (Nat.le_trans (Nat.le_max_right _ _) most) notDown
        · exact unrelated_mono (Nat.le_max_right _ _)
            (fun x y answer => common_mono (Nat.le_max_right _ _) (Nat.le_refl _)) apart

/-- What has a reference as its element is an array. -/
theorem shape?_of_referenceElement (h : world.referenceElement a = some x) :
    world.shape? a = some (.array x) := by
  unfold referenceElement at h
  split at h
  · rename_i element shape
    split at h
    · cases h
    · rw [shape, Option.some.inj h]
  · cases h

/-- A search between arrays that finds nothing finds nothing between their elements. -/
theorem Finds.elements (first : world.shape? a = some (.array x))
    (second : world.shape? b = some (.array y)) (h : world.Finds [] a b false) :
    world.Finds [] x y false := by
  obtain ⟨limit, h⟩ := h
  cases limit with
  | zero => cases h
  | succ limit =>
    rw [search, first] at h
    by_cases same : a = b
    · rw [if_pos same] at h
      cases h
    · rw [if_neg same] at h
      dsimp only at h
      rw [second] at h
      exact ⟨limit, h⟩

/-- Names do not meet if the search from the first one ends nowhere. -/
theorem not_meets_of_first (missed : ∀ found, ¬ world.Finds [] a b found) :
    ¬ world.Meets a b answer := by
  intro h
  obtain ⟨-, -, ⟨up, -⟩ | ⟨notUp, -⟩⟩ := meets_iff.1 h
  · exact missed true up
  · exact missed false notUp

/-- Names do not meet if the search from the second one ends nowhere, and the first one is not below
it. -/
theorem not_meets_of_second (notUp : world.Finds [] a b false)
    (missed : ∀ found, ¬ world.Finds [] b a found) : ¬ world.Meets a b answer := by
  intro h
  obtain ⟨-, -, ⟨up, -⟩ | ⟨-, ⟨down, -⟩ | ⟨notDown, -⟩⟩⟩ := meets_iff.1 h
  · exact absurd (notUp.unique up) (by simp)
  · exact missed true down
  · exact missed false notDown

/-- Names that share something resolve. -/
theorem Shares.resolves (h : world.Shares a b answer) :
    world.resolves a = true ∧ world.resolves b = true := by
  rcases h with meets | meets
  · exact ⟨(meets_iff.1 meets).1, (meets_iff.1 meets).2.1⟩
  · exact ⟨(meets_iff.1 meets).2.1, (meets_iff.1 meets).1⟩

/-- Names of which neither is below the other meet as unrelated names do. -/
theorem meets_iff_unrelated (resolvesA : world.resolves a = true)
    (resolvesB : world.resolves b = true) (notUp : world.Finds [] a b false)
    (notDown : world.Finds [] b a false) :
    world.Meets a b answer ↔ world.Unrelated a b answer := by
  rw [meets_iff]
  constructor
  · rintro ⟨-, -, ⟨up, -⟩ | ⟨-, ⟨down, -⟩ | ⟨-, apart⟩⟩⟩
    · exact absurd (notUp.unique up) (by simp)
    · exact absurd (notDown.unique down) (by simp)
    · exact apart
  · exact fun apart => ⟨resolvesA, resolvesB, .inr ⟨notUp, .inr ⟨notDown, apart⟩⟩⟩

end ClassLattice.Universe
