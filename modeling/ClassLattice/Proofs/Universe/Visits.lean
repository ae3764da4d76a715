import ClassLattice.Proofs.Universe.Cycles
import Mathlib.Data.List.Nodup

/-!
# The order in which ancestors are met

A walk from a type visits it, then its superclass with all that is above it, and then its
interfaces from the last to the first, each with all that is above it.  What can be reached in
several ways is visited as often.  The depth at which the list of ancestors ranks an interface is
that of its first visit.

An interface is recorded when the walk has been everywhere above it, and so behind interfaces that
were visited later.  That makes no difference, as it is not visited again above itself.
-/

set_option autoImplicit false

namespace ClassLattice

/-- The depth at which an interface was recorded. -/
def Lineage.depthOf (lineage : Lineage) (name : String) : Option Nat :=
  (lineage.interfaces.find? fun ranked => ranked.name == name).map (·.depth)

/-- The depth of an interface is the one with which it was added first. -/
theorem Lineage.depthOf_addInterface (lineage : Lineage) (ranked : RankedName) (name : String) :
    (lineage.addInterface ranked).depthOf name =
      (lineage.depthOf name).or (if ranked.name = name then some ranked.depth else none) := by
  unfold addInterface depthOf
  by_cases met : (lineage.interfaces.any (·.name == ranked.name)) = true
  · rw [if_pos met]
    by_cases same : ranked.name = name
    · subst same
      obtain ⟨first, found⟩ := Option.isSome_iff_exists.1 (List.find?_isSome.2
        (List.any_eq_true.1 met))
      rw [found]
      rfl
    · rw [if_neg same, Option.or_none]
  · rw [if_neg met, List.find?_cons]
    by_cases same : ranked.name = name
    · subst same
      have absent : (lineage.interfaces.find? fun other => other.name == ranked.name) = none := by
        rw [List.find?_eq_none]
        intro other member found
        exact met (List.any_eq_true.2 ⟨other, member, found⟩)
      simp [absent]
    · have apart : (ranked.name == name) = false := beq_eq_false_iff_ne.2 same
      rw [apart, if_neg same, Option.or_none]

/-- Each interface is found at its depth where none is recorded twice. -/
theorem Lineage.depthOf_of_mem {lineage : Lineage} {ranked : RankedName}
    (nodup : (lineage.interfaces.map (·.name)).Nodup) (member : ranked ∈ lineage.interfaces) :
    lineage.depthOf ranked.name = some ranked.depth := by
  unfold depthOf
  have some : (lineage.interfaces.find? fun other => other.name == ranked.name).isSome := by
    rw [List.find?_isSome]
    exact ⟨ranked, member, beq_self_eq_true _⟩
  obtain ⟨first, found⟩ := Option.isSome_iff_exists.1 some
  have same : first.name = ranked.name := by simpa using List.find?_some found
  have equal := List.inj_on_of_nodup_map nodup (List.mem_of_find?_eq_some found) member same
  rw [found, equal]
  rfl

namespace Universe

open Relation

variable {world : Universe} {names others : List String} {visited visited' : List (String × Nat)}
  {name : String} {depth limit steps : Nat} {path : List String} {onChain : Bool}
  {met met' last : Lineage}

/-- What a walk visits that starts from some names at a depth, each visit with its depth. -/
inductive Visits (world : Universe) : Nat → List String → List (String × Nat) → Prop
  | done (depth : Nat) : Visits world depth [] []
  | declared {depth : Nat} {name : String} {declaration : Declaration} {rest : List String}
      {inner later : List (String × Nat)}
      (shape : world.shape? name = some (.declared declaration))
      (above : Visits world (depth + 1)
        (declaration.superName.toList ++ declaration.interfaceNames.reverse) inner)
      (on : Visits world depth rest later) :
      Visits world depth (name :: rest) ((name, depth) :: (inner ++ later))
  | other {depth : Nat} {name : String} {rest : List String} {later : List (String × Nat)}
      (undeclared : ∀ declaration, world.shape? name ≠ some (.declared declaration))
      (on : Visits world depth rest later) :
      Visits world depth (name :: rest) ((name, depth) :: later)

/-- The depth of the first visit to a name. -/
def firstDepth (visited : List (String × Nat)) (name : String) : Option Nat :=
  (visited.find? fun visit => visit.1 == name).map Prod.snd

/-- The first depth in two lists of visits is that in the first one, if there is one. -/
theorem firstDepth_append (visited visited' : List (String × Nat)) (name : String) :
    firstDepth (visited ++ visited') name =
      (firstDepth visited name).or (firstDepth visited' name) := by
  unfold firstDepth
  rw [List.find?_append, Option.map_or]

/-- A visit in front gives the depth of its name. -/
theorem firstDepth_cons (visit : String × Nat) (visited : List (String × Nat)) (name : String) :
    firstDepth (visit :: visited) name =
      if visit.1 = name then some visit.2 else firstDepth visited name := by
  unfold firstDepth
  rw [List.find?_cons]
  by_cases here : visit.1 = name
  · simp [here]
  · have apart : (visit.1 == name) = false := beq_eq_false_iff_ne.2 here
    rw [apart, if_neg here]

/-- A name that is not visited has no depth. -/
theorem firstDepth_eq_none (h : ∀ visit ∈ visited, visit.1 ≠ name) :
    firstDepth visited name = none := by
  unfold firstDepth
  rw [Option.map_eq_none_iff, List.find?_eq_none]
  intro visit member
  simpa using h visit member

namespace Visits

/-- **Names are visited in one order.** -/
theorem unique (h : world.Visits depth names visited) (h' : world.Visits depth names visited') :
    visited = visited' := by
  induction h generalizing visited' with
  | done =>
    cases h'
    rfl
  | declared shape _ _ ihAbove ihOn =>
    cases h' with
    | declared shape' above on =>
      obtain rfl := Shape.declared.inj (Option.some.inj (shape.symm.trans shape'))
      rw [ihAbove above, ihOn on]
    | other undeclared => exact absurd shape (undeclared _)
  | other undeclared _ ih =>
    cases h' with
    | declared shape => exact absurd shape (undeclared _)
    | other _ on => rw [ih on]

/-- Visits from names one after the other are made one after the other. -/
theorem append (h : world.Visits depth names visited) (h' : world.Visits depth others visited') :
    world.Visits depth (names ++ others) (visited ++ visited') := by
  induction h with
  | done => exact h'
  | declared shape above _ _ ih =>
    rw [List.cons_append, List.cons_append, List.append_assoc]
    exact .declared shape above (ih h')
  | other undeclared _ ih => exact .other undeclared (ih h')

/-- Only what is above the names is visited. -/
theorem above (h : world.Visits depth names visited) {visit : String × Nat}
    (member : visit ∈ visited) : ∃ source ∈ names, ReflTransGen world.Extends source visit.1 := by
  induction h with
  | done => cases member
  | @declared depth name declaration rest inner later shape _ _ ihAbove ihOn =>
    rcases List.mem_cons.1 member with rfl | member
    · exact ⟨name, List.mem_cons_self, .refl⟩
    · rcases List.mem_append.1 member with member | member
      · obtain ⟨parent, listed, up⟩ := ihAbove member
        have extended : world.Extends name parent := by
          refine ⟨declaration, shape, ?_⟩
          simpa [Declaration.superTypeNames] using listed
        exact ⟨name, List.mem_cons_self, .head extended up⟩
      · obtain ⟨source, listed, up⟩ := ihOn member
        exact ⟨source, List.mem_cons_of_mem _ listed, up⟩
  | @other depth name rest later _ _ ih =>
    rcases List.mem_cons.1 member with rfl | member
    · exact ⟨name, List.mem_cons_self, .refl⟩
    · obtain ⟨source, listed, up⟩ := ih member
      exact ⟨source, List.mem_cons_of_mem _ listed, up⟩

end Visits

/-! ## What a walk records -/

/-- A walk records each interface that was not met before at the depth of its first visit. -/
def Records (world : Universe) (depth : Nat) (names : List String) (met met' : Lineage) : Prop :=
  ∃ visited, world.Visits depth names visited ∧ ∀ i, world.isInterface i = true →
    met'.depthOf i = (met.depthOf i).or (firstDepth visited i)

namespace Records

/-- A walk from nothing records nothing. -/
theorem refl (depth : Nat) (met : Lineage) : world.Records depth [] met met := by
  refine ⟨[], .done depth, fun i _ => ?_⟩
  exact (Option.or_none).symm

/-- Walks one after the other record what both record. -/
theorem trans (first : world.Records depth names met met')
    (second : world.Records depth others met' last) :
    world.Records depth (names ++ others) met last := by
  obtain ⟨visited, visits, depths⟩ := first
  obtain ⟨visited', visits', depths'⟩ := second
  refine ⟨visited ++ visited', visits.append visits', fun i interface => ?_⟩
  rw [depths' i interface, depths i interface, firstDepth_append, Option.or_assoc]

end Records

/-- **A sum over names records the first visits from each of them.** -/
theorem records_foldlM {walk : Gatherer} {start sum : Nat × Lineage}
    (walks : ∀ parent met found, walk parent met = some found →
      world.Records depth [parent] met found.2)
    (h : names.foldlM (gatherNext walk) start = some sum) :
    world.Records depth names start.2 sum.2 := by
  induction names generalizing start with
  | nil =>
    obtain rfl := Option.some.inj h
    exact .refl depth _
  | cons parent rest ih =>
    rw [List.foldlM_cons] at h
    obtain ⟨next, step, later⟩ := Option.bind_eq_some_iff.1 h
    obtain ⟨found, walked, rfl⟩ := Option.map_eq_some_iff.1 step
    have further := ih later
    exact (walks parent start.2 found walked).trans further

/-- A walk up from a type records the visits from its superclass. -/
theorem records_gatherAbove {walk : Gatherer} {declaration : Declaration}
    (walks : ∀ parent met found, walk parent met = some found →
      world.Records depth [parent] met found.2)
    (h : world.gatherAbove walk declaration met = some met') :
    world.Records depth declaration.superName.toList met met' := by
  unfold gatherAbove at h
  cases superName : declaration.superName with
  | none =>
    simp only [superName] at h
    obtain rfl := Option.some.inj h
    exact .refl depth met
  | some parent =>
    simp only [superName] at h
    split_ifs at h
    obtain ⟨found, walked, rfl⟩ := Option.map_eq_some_iff.1 h
    exact walks parent met found walked

/-- A type on the chain adds no interface. -/
theorem depthOf_startWith (declaration : Declaration) (i : String) :
    (startWith onChain name declaration met).depthOf i = met.depthOf i := by
  unfold startWith
  split_ifs <;> rfl

/-- **An interface is recorded behind all that is above it**, as at its visit ahead of them. -/
theorem Records.finish {declaration : Declaration} {sum : Nat × Lineage}
    (shape : world.shape? name = some (.declared declaration)) (grounded : world.Grounded name)
    (h : world.Records (steps + 1)
      (declaration.superName.toList ++ declaration.interfaceNames.reverse) met sum.2) :
    world.Records steps [name] met (finishWith steps name declaration sum).2 := by
  obtain ⟨inner, visits, depths⟩ := h
  refine ⟨_, .declared shape visits (.done steps), fun i interface => ?_⟩
  rw [firstDepth_cons, List.append_nil]
  by_cases here : name = i
  · subst here
    -- Above itself the type is not visited again, as it would be its own ancestor.
    have new : firstDepth inner name = none := by
      apply firstDepth_eq_none
      intro visit member same
      obtain ⟨parent, listed, up⟩ := visits.above member
      have extended : world.Extends name parent := by
        refine ⟨declaration, shape, ?_⟩
        simpa [Declaration.superTypeNames] using listed
      rw [same] at up
      exact grounded name .refl (TransGen.head' extended up)
    have kind : declaration.isInterface = true := isInterface_of_declared shape ▸ interface
    simp only [finishWith, kind, if_true]
    rw [Lineage.depthOf_addInterface, depths name interface, new, Option.or_none, if_pos rfl]
  · rw [if_neg here, ← depths i interface, finishWith]
    split_ifs
    · rw [Lineage.depthOf_addInterface, if_neg here, Option.or_none]
    · rfl

/-- **A walk records the depths of first visits.** -/
theorem records_gather {found : Nat × Lineage}
    (h : world.gather limit path onChain steps name met = some found) :
    world.Records steps [name] met found.2 := by
  have grounded := grounded_of_gather h
  induction limit generalizing path onChain steps name met found with
  | zero => cases h
  | succ limit ih =>
    have walks {path : List String} {onChain : Bool} (parent : String) (met : Lineage)
        (found : Nat × Lineage)
        (walked : world.gather limit path onChain (steps + 1) parent met = some found) :
        world.Records (steps + 1) [parent] met found.2 :=
      ih walked (grounded_of_gather walked)
    cases shape : world.shape? name with
    | none => simp [gather, shape] at h
    | some kind =>
      cases kind with
      | declared declaration =>
        by_cases seen : name ∈ path
        · simp [gather, shape, seen] at h
        rw [gather_declared shape seen] at h
        obtain ⟨withChain, above, beside⟩ := Option.bind_eq_some_iff.1 h
        obtain ⟨sum, summed, rfl⟩ := Option.map_eq_some_iff.1 beside
        unfold gatherBeside at summed
        split_ifs at summed
        have beyond : world.Records (steps + 1) declaration.superName.toList met withChain := by
          obtain ⟨visited, visits, depths⟩ := records_gatherAbove walks above
          refine ⟨visited, visits, fun i interface => ?_⟩
          rw [depths i interface, depthOf_startWith]
        exact (beyond.trans (records_foldlM walks summed)).finish shape grounded
      | _ =>
        simp only [gather, shape] at h
        obtain rfl := Option.some.inj h
        have undeclared (declaration : Declaration) :
            world.shape? name ≠ some (.declared declaration) := by simp [shape]
        refine ⟨_, .other undeclared (.done steps), fun i interface => ?_⟩
        obtain ⟨declaration, declared⟩ := exists_of_isInterface interface
        have apart : name ≠ i := fun same => undeclared declaration (same ▸ declared)
        rw [firstDepth_cons, if_neg apart]
        exact Option.or_none.symm

end Universe

end ClassLattice
