import ClassLattice.Proofs.Universe.Descent

/-!
# The order of ancestors

What the list of all ancestors of a class or interface holds: the classes on its chain of
superclasses, then every interface above it once, by rank, then the root.  The strength of an
interface does not depend on where the walk starts: it is the number of ordinary interfaces that
its unfolding holds, up to the greatest strength that is told apart.
-/

set_option autoImplicit false

namespace ClassLattice

/-- To add strengths after they were cut off is to cut off their sum. -/
theorem addStrength_min (a b : Nat) :
    addStrength (min a greatestStrength) (min b greatestStrength) =
      min (a + b) greatestStrength := by
  unfold addStrength
  omega

namespace Universe

open Relation

variable {world : Universe} {path : List String} {onChain : Bool} {name parent : String}
  {limit more depth steps strength : Nat} {met met' last : Lineage} {parents : List String}
  {declaration : Declaration}

/-- The classes on the chain of superclasses of a name, which may be one of them. -/
inductive Chain (world : Universe) : String → List String → Prop
  | stop {name : String} (h : ∀ declaration, world.shape? name ≠ some (.declared declaration)) :
      Chain world name []
  | last {name : String} {declaration : Declaration}
      (shape : world.shape? name = some (.declared declaration))
      (none : declaration.superName = none) :
      Chain world name (if declaration.isInterface then [] else [name])
  | step {name parent : String} {declaration : Declaration} {rest : List String}
      (shape : world.shape? name = some (.declared declaration))
      (superName : declaration.superName = some parent) (above : Chain world parent rest) :
      Chain world name (if declaration.isInterface then rest else name :: rest)

/-- The number of ordinary interfaces in the unfolding of an interface, as far as a depth. -/
def weight (world : Universe) : Nat → String → Nat
  | 0, _ => 0
  | depth + 1, name =>
    match world.shape? name with
    | some (.declared declaration) =>
      if declaration.isInterface then
        declaration.ownStrength + (declaration.interfaceNames.map (world.weight depth)).sum
      else 0
    | _ => 0

/-- The strength of an interface as its unfolding gives it. -/
def HasStrength (world : Universe) (limit : Nat) (name : String) (strength : Nat) : Prop :=
  ∀ more, limit ≤ more → strength = min (world.weight more name) greatestStrength

/-- An interface that is one of some names or above one of them. -/
def AboveAny (world : Universe) (sources : List String) (name : String) : Prop :=
  world.isInterface name = true ∧ ∃ source ∈ sources, ReflTransGen world.Extends source name

/-- A walk adds to the lineage every interface above some names, with its strength. -/
structure Grows (world : Universe) (limit : Nat) (sources : List String) (met met' : Lineage) :
    Prop where
  keeps : ∀ ranked ∈ met.interfaces, ranked ∈ met'.interfaces
  adds : ∀ ranked ∈ met'.interfaces, ranked ∈ met.interfaces ∨
    world.AboveAny sources ranked.name ∧ world.HasStrength limit ranked.name ranked.strength
  all : ∀ name, world.AboveAny sources name → ∃ ranked ∈ met'.interfaces, ranked.name = name
  nodup : (met.interfaces.map (·.name)).Nodup → (met'.interfaces.map (·.name)).Nodup

/-- A strength is the same with more depth at hand. -/
theorem HasStrength.mono (h : world.HasStrength limit name strength) (le : limit ≤ more) :
    world.HasStrength more name strength := fun _ le' => h _ (Nat.le_trans le le')

/-- An interface has one strength. -/
theorem HasStrength.unique {strength' : Nat} (h : world.HasStrength limit name strength)
    (h' : world.HasStrength more name strength') : strength = strength' := by
  rw [h _ (Nat.le_max_left limit more), h' _ (Nat.le_max_right limit more)]

/-- A name is above some of two lists of parents if it is above one in either. -/
theorem aboveAny_append {others : List String} :
    world.AboveAny (parents ++ others) name ↔
      world.AboveAny parents name ∨ world.AboveAny others name := by
  simp only [AboveAny, List.mem_append]
  constructor
  · rintro ⟨interface, source, member | member, up⟩
    · exact .inl ⟨interface, source, member, up⟩
    · exact .inr ⟨interface, source, member, up⟩
  · rintro (⟨interface, source, member, up⟩ | ⟨interface, source, member, up⟩)
    · exact ⟨interface, source, .inl member, up⟩
    · exact ⟨interface, source, .inr member, up⟩

namespace Grows

/-- A walk from nothing adds nothing. -/
theorem refl (limit : Nat) (met : Lineage) : world.Grows limit [] met met where
  keeps := fun _ member => member
  adds := fun _ member => .inl member
  all := fun _ ⟨_, _, member, _⟩ => (List.not_mem_nil member).elim
  nodup := id

/-- Walks one after the other add what both add. -/
theorem trans {others : List String} (first : world.Grows limit parents met met')
    (second : world.Grows limit others met' last) :
    world.Grows limit (parents ++ others) met last where
  keeps := fun ranked member => second.keeps ranked (first.keeps ranked member)
  adds := fun ranked member => by
    rcases second.adds ranked member with before | ⟨above, strength⟩
    · exact (first.adds ranked before).imp_right fun ⟨above, strength⟩ =>
        ⟨aboveAny_append.2 (.inl above), strength⟩
    · exact .inr ⟨aboveAny_append.2 (.inr above), strength⟩
  all := fun name above => by
    rcases aboveAny_append.1 above with above | above
    · obtain ⟨ranked, member, named⟩ := first.all name above
      exact ⟨ranked, second.keeps ranked member, named⟩
    · exact second.all name above
  nodup := second.nodup ∘ first.nodup

end Grows

/-! ## The steps of a walk -/

/-- What was met stays met when an interface is finished. -/
theorem mem_finishWith {sum : Nat × Lineage} {ranked : RankedName}
    (h : ranked ∈ sum.2.interfaces) :
    ranked ∈ (finishWith steps name declaration sum).2.interfaces := by
  unfold finishWith Lineage.addInterface
  split_ifs
  · exact h
  · exact List.mem_cons_of_mem _ h
  · exact h

/-- What is met when an interface is finished was met before or is the interface. -/
theorem of_mem_finishWith {sum : Nat × Lineage} {ranked : RankedName}
    (h : ranked ∈ (finishWith steps name declaration sum).2.interfaces) :
    ranked ∈ sum.2.interfaces ∨
      declaration.isInterface = true ∧ ranked = ⟨name, sum.1, steps⟩ := by
  unfold finishWith Lineage.addInterface at h
  split_ifs at h with kind seen
  · exact .inl h
  · exact (List.mem_cons.1 h).symm.imp_right fun same => ⟨kind, same⟩
  · exact .inl h

/-- An interface that is finished is met. -/
theorem exists_mem_finishWith {sum : Nat × Lineage} (kind : declaration.isInterface = true) :
    ∃ ranked ∈ (finishWith steps name declaration sum).2.interfaces, ranked.name = name := by
  unfold finishWith Lineage.addInterface
  rw [if_pos kind]
  dsimp only
  split_ifs with seen
  · obtain ⟨ranked, member, same⟩ := List.any_eq_true.1 seen
    exact ⟨ranked, member, by simpa using same⟩
  · exact ⟨_, List.mem_cons_self, rfl⟩

/-- A finished interface is met once. -/
theorem nodup_finishWith {sum : Nat × Lineage} (h : (sum.2.interfaces.map (·.name)).Nodup) :
    ((finishWith steps name declaration sum).2.interfaces.map (·.name)).Nodup := by
  unfold finishWith Lineage.addInterface
  split_ifs with kind seen
  · exact h
  · refine List.nodup_cons.2 ⟨fun member => ?_, h⟩
    obtain ⟨ranked, member, same⟩ := List.mem_map.1 member
    exact seen (List.any_eq_true.2 ⟨ranked, member, by simpa using same⟩)
  · exact h

/-- **A sum over parents adds what is above each of them**, and their strengths. -/
theorem grows_foldlM {walk : Gatherer} {base sum : Nat}
    (walks : ∀ parent met strength met', walk parent met = some (strength, met') →
      world.Grows limit [parent] met met' ∧ met'.classes = met.classes ∧
        world.HasStrength limit parent strength)
    (h : parents.foldlM (gatherNext walk) (min base greatestStrength, met) = some (sum, met')) :
    world.Grows limit parents met met' ∧ met'.classes = met.classes ∧
      ∀ more, limit ≤ more →
        sum = min (base + (parents.map (world.weight more)).sum) greatestStrength := by
  induction parents generalizing base met with
  | nil =>
    obtain ⟨rfl, rfl⟩ := Prod.mk.inj (Option.some.inj h)
    exact ⟨.refl limit met, rfl, fun _ _ => by simp⟩
  | cons parent rest ih =>
    rw [List.foldlM_cons] at h
    obtain ⟨next, step, later⟩ := Option.bind_eq_some_iff.1 h
    obtain ⟨⟨strength, mid⟩, walked, rfl⟩ := Option.map_eq_some_iff.1 step
    obtain ⟨grows, classes, hasStrength⟩ := walks parent met strength mid walked
    dsimp only at later
    -- The sum is cut off at each step, and cutting off once at the end gives the same.
    rw [hasStrength limit (Nat.le_refl _), addStrength_min] at later
    obtain ⟨grows', classes', sums⟩ := ih later
    refine ⟨grows.trans grows', classes'.trans classes, fun more le => ?_⟩
    have same := hasStrength more le
    rw [hasStrength limit (Nat.le_refl _)] at same
    have rest := sums more le
    rw [List.map_cons, List.sum_cons]
    omega

/-- An interface is added after all that is above it. -/
theorem Grows.finish (shape : world.shape? name = some (.declared declaration)) {sum : Nat × Lineage}
    (grows : world.Grows limit (declaration.superName.toList ++ declaration.interfaceNames.reverse)
      met sum.2)
    (sums : ∀ more, limit ≤ more →
      sum.1 = min (declaration.ownStrength + (declaration.interfaceNames.map (world.weight more)).sum)
        greatestStrength) :
    world.Grows (limit + 1) [name] met (finishWith steps name declaration sum).2 ∧
      world.HasStrength (limit + 1) name (finishWith steps name declaration sum).1 := by
  have isInterface : world.isInterface name = declaration.isInterface := by
    rw [Universe.isInterface, shape]
    rfl
  have up {parent other : String}
      (member : parent ∈ declaration.superName.toList ++ declaration.interfaceNames.reverse)
      (above : ReflTransGen world.Extends parent other) :
      ReflTransGen world.Extends name other := by
    refine .head ⟨declaration, shape, ?_⟩ above
    simpa [Declaration.superTypeNames] using member
  have strength : world.HasStrength (limit + 1) name (finishWith steps name declaration sum).1 := by
    intro more le
    obtain ⟨more, rfl⟩ : ∃ less, more = less + 1 := ⟨more - 1, by omega⟩
    rw [weight, shape]
    cases kind : declaration.isInterface with
    | false => simp [finishWith, kind]
    | true =>
      simp only [finishWith, kind, if_true]
      exact sums more (by omega)
  refine ⟨⟨fun ranked member => ?_, fun ranked member => ?_, fun other above => ?_, fun nodup => ?_⟩,
    strength⟩
  · exact mem_finishWith (grows.keeps ranked member)
  · rcases of_mem_finishWith member with before | ⟨kind, rfl⟩
    · refine (grows.adds ranked before).imp_right fun added =>
        ⟨⟨added.1.1, ?_⟩, added.2.mono (Nat.le_succ limit)⟩
      obtain ⟨⟨-, source, member, path⟩, -⟩ := added
      exact ⟨name, List.mem_singleton_self name, up member path⟩
    · refine .inr ⟨⟨isInterface.trans kind, name, List.mem_singleton_self name, .refl⟩, ?_⟩
      simpa [finishWith, kind] using strength
  · obtain ⟨interface, source, member, path⟩ := above
    obtain rfl := List.mem_singleton.1 member
    rcases path.cases_head with rfl | ⟨parent, ⟨declaration', shape', listed⟩, path⟩
    · exact exists_mem_finishWith (isInterface.symm.trans interface)
    · obtain rfl := Shape.declared.inj (Option.some.inj (shape.symm.trans shape'))
      have listed : parent ∈ declaration.superName.toList ++ declaration.interfaceNames.reverse := by
        simpa [Declaration.superTypeNames] using listed
      obtain ⟨ranked, member, named⟩ := grows.all other ⟨interface, parent, listed, path⟩
      exact ⟨ranked, mem_finishWith member, named⟩
  · exact nodup_finishWith (grows.nodup nodup)

/-- The classes that a walk adds: those on the chain, if it follows the chain. -/
def AddsClasses (world : Universe) (onChain : Bool) (name : String) (met met' : Lineage) : Prop :=
  if onChain then ∃ chain, world.Chain name chain ∧ met'.classes = chain.reverse ++ met.classes
  else met'.classes = met.classes

/-- From what is no class or interface nothing is added. -/
theorem Grows.of_undeclared (none : ∀ declaration, world.shape? name ≠ some (.declared declaration)) :
    world.Grows limit [name] met met ∧ world.AddsClasses onChain name met met ∧
      world.HasStrength limit name 0 := by
  refine ⟨⟨fun _ member => member, fun _ member => .inl member, fun other above => ?_, id⟩, ?_, ?_⟩
  · obtain ⟨interface, source, member, path⟩ := above
    obtain rfl := List.mem_singleton.1 member
    rcases path.cases_head with rfl | ⟨parent, ⟨declaration, shape, -⟩, -⟩
    · obtain ⟨declaration, shape⟩ := exists_of_isInterface interface
      exact absurd shape (none declaration)
    · exact absurd shape (none declaration)
  · unfold AddsClasses
    split_ifs
    · exact ⟨[], .stop none, rfl⟩
    · rfl
  · intro more _
    cases more with
    | zero => rfl
    | succ more =>
      rw [weight]
      split
      · rename_i declaration shape
        exact absurd shape (none declaration)
      · rfl

/-- A walk up from a type adds what is above its superclass. -/
theorem Grows.of_gatherAbove {walk : Gatherer}
    (walks : ∀ parent met strength met', walk parent met = some (strength, met') →
      world.Grows limit [parent] met met' ∧ world.AddsClasses onChain parent met met')
    (shape : world.shape? name = some (.declared declaration))
    (h : world.gatherAbove walk declaration (startWith onChain name declaration met) = some met') :
    world.Grows limit declaration.superName.toList met met' ∧
      world.AddsClasses onChain name met met' := by
  have start : (startWith onChain name declaration met).interfaces = met.interfaces := by
    unfold startWith
    split_ifs <;> rfl
  have same {sources : List String} {last : Lineage}
      (grows : world.Grows limit sources (startWith onChain name declaration met) last) :
      world.Grows limit sources met last :=
    ⟨start ▸ grows.keeps, start ▸ grows.adds, grows.all, start ▸ grows.nodup⟩
  unfold gatherAbove at h
  cases superName : declaration.superName with
  | none =>
    simp only [superName] at h
    obtain rfl := Option.some.inj h
    refine ⟨same (.refl limit _), ?_⟩
    unfold AddsClasses startWith
    cases onChain with
    | false => simp
    | true =>
      refine ⟨_, .last shape superName, ?_⟩
      cases declaration.isInterface <;> simp [Lineage.addClass]
  | some parent =>
    simp only [superName] at h
    split_ifs at h with resolves
    obtain ⟨⟨strength, found⟩, walked, rfl⟩ := Option.map_eq_some_iff.1 h
    obtain ⟨grows, classes⟩ := walks parent _ strength found walked
    refine ⟨same grows, ?_⟩
    unfold AddsClasses at classes ⊢
    cases onChain with
    | false => simpa [startWith] using classes
    | true =>
      obtain ⟨chain, above, added⟩ := classes
      refine ⟨_, .step shape superName above, added.trans ?_⟩
      unfold startWith
      cases declaration.isInterface <;> simp [Lineage.addClass]

/-- **What a walk from a name gathers.** -/
theorem grows_gather (h : world.gather limit path onChain steps name met = some (strength, met')) :
    world.Grows limit [name] met met' ∧ world.AddsClasses onChain name met met' ∧
      world.HasStrength limit name strength := by
  induction limit generalizing path onChain steps name met strength met' with
  | zero => cases h
  | succ limit ih =>
    cases shape : world.shape? name with
    | none => simp [gather, shape] at h
    | some found =>
      cases found with
      | declared declaration =>
        by_cases seen : name ∈ path
        · simp [gather, shape, seen] at h
        rw [gather_declared shape seen] at h
        obtain ⟨withChain, above, beside⟩ := Option.bind_eq_some_iff.1 h
        obtain ⟨sum, summed, finished⟩ := Option.map_eq_some_iff.1 beside
        obtain ⟨grows, classes⟩ := Grows.of_gatherAbove
          (fun parent met strength met' walked => ⟨(ih walked).1, (ih walked).2.1⟩) shape above
        unfold gatherBeside at summed
        split_ifs at summed with resolve
        have least : declaration.ownStrength = min declaration.ownStrength greatestStrength := by
          unfold Declaration.ownStrength greatestStrength
          split_ifs <;> rfl
        rw [least] at summed
        obtain ⟨grows', classes', sums⟩ := grows_foldlM
          (fun parent met strength met' walked => by
            obtain ⟨grows, classes, hasStrength⟩ := ih walked
            exact ⟨grows, by simpa [AddsClasses] using classes, hasStrength⟩) summed
        -- The interfaces are walked from the last to the first, which the sum does not show.
        have sums' (more : Nat) (le : limit ≤ more) : sum.1 = min (declaration.ownStrength +
            (declaration.interfaceNames.map (world.weight more)).sum) greatestStrength := by
          rw [sums more le, List.map_reverse, List.sum_reverse]
        obtain ⟨finish, hasStrength⟩ := (grows.trans grows').finish shape sums'
        rw [finished] at finish hasStrength
        refine ⟨finish, ?_, hasStrength⟩
        have same : met'.classes = withChain.classes := by
          rw [← classes', ← show (finishWith steps name declaration sum).2 = met' by rw [finished]]
          unfold finishWith Lineage.addInterface
          split_ifs <;> rfl
        unfold AddsClasses at classes ⊢
        rw [same]
        exact classes
      | _ =>
        simp only [gather, shape] at h
        obtain ⟨rfl, rfl⟩ := Prod.mk.inj (Option.some.inj h)
        exact Grows.of_undeclared fun declaration declared => by
          rw [shape] at declared
          cases declared

end Universe

end ClassLattice
