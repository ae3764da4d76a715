import ClassLattice.Hierarchy.Flatten
import ClassLattice.Proofs.Universe.Walks

/-!
# The ancestors of a name

The list of all ancestors as a function of names and of what a universe says about them, without a
workspace.  It is missing where the walk meets a type that it is in the middle of, or a name that
cannot be looked up.
-/

set_option autoImplicit false

namespace ClassLattice

/-- An interface among the ancestors by name, with what its rank depends on. -/
structure RankedName where
  name : String
  strength : Nat
  depth : Nat
  deriving DecidableEq

/-- Whether an interface ranks before another or level with it. -/
def RankedName.ranksBefore (a b : RankedName) : Bool :=
  if a.strength ≠ b.strength then b.strength < a.strength
  else if a.depth ≠ b.depth then a.depth < b.depth
  else a.name ≤ b.name

/-- The ancestors met so far by name, each list with the latest first. -/
structure Lineage where
  classes : List String := []
  interfaces : List RankedName := []
  deriving DecidableEq

namespace Lineage

/-- Adds a class to the chain. -/
def addClass (lineage : Lineage) (name : String) : Lineage :=
  { lineage with classes := name :: lineage.classes }

/-- Adds an interface unless one of its name was met before. -/
def addInterface (lineage : Lineage) (ranked : RankedName) : Lineage :=
  if lineage.interfaces.any (·.name == ranked.name) then lineage
  else { lineage with interfaces := ranked :: lineage.interfaces }

/-- The interfaces in rank order. -/
def ranked (lineage : Lineage) : List RankedName :=
  lineage.interfaces.reverse.mergeSort RankedName.ranksBefore

/-- The chain of classes, then the interfaces in rank order. -/
def toList (lineage : Lineage) : List String :=
  lineage.classes.reverse ++ lineage.ranked.map (·.name)

end Lineage

/-- A sum over a list is the same with steps that give what the others give. -/
theorem foldlM_mono {α β : Type} {step other : β → α → Option β} {all : List α} {start result : β}
    (imp : ∀ x ∈ all, ∀ value next, step value x = some next → other value x = some next)
    (h : all.foldlM step start = some result) : all.foldlM other start = some result := by
  induction all generalizing start with
  | nil => exact h
  | cons head rest ih =>
    rw [List.foldlM_cons] at h ⊢
    obtain ⟨next, here, later⟩ := Option.bind_eq_some_iff.1 h
    rw [imp head List.mem_cons_self start next here]
    exact ih (fun x member => imp x (List.mem_cons_of_mem _ member)) later

/-- A sum that stops has a step that stops. -/
theorem exists_of_foldlM_eq_none {α β : Type} {step : β → α → Option β} {all : List α} {start : β}
    (h : all.foldlM step start = none) : ∃ x ∈ all, ∃ value, step value x = none := by
  induction all generalizing start with
  | nil => cases h
  | cons head rest ih =>
    rw [List.foldlM_cons] at h
    cases here : step start head with
    | none => exact ⟨head, List.mem_cons_self, start, here⟩
    | some next =>
      obtain ⟨x, member, value, missing⟩ := ih (by simpa [here] using h)
      exact ⟨x, List.mem_cons_of_mem _ member, value, missing⟩

/-- A sum that comes to an end has a step for every member. -/
theorem exists_of_foldlM_eq_some {α β : Type} {step : β → α → Option β} {all : List α}
    {start result : β} (h : all.foldlM step start = some result) {x : α} (member : x ∈ all) :
    ∃ value next, step value x = some next := by
  induction all generalizing start with
  | nil => cases member
  | cons head rest ih =>
    rw [List.foldlM_cons] at h
    obtain ⟨next, here, later⟩ := Option.bind_eq_some_iff.1 h
    rcases List.mem_cons.1 member with rfl | rest
    · exact ⟨start, next, here⟩
    · exact ih later rest

namespace Universe

/-- A walk from a name that adds to the ancestors met so far and finds a strength. -/
abbrev Gatherer : Type := String → Lineage → Option (Nat × Lineage)

/-- What the walk gathers by the superclass of a type. -/
def gatherAbove (world : Universe) (walk : Gatherer) (declaration : Declaration)
    (met : Lineage) : Option Lineage :=
  match declaration.superName with
  | none => some met
  | some parent => if world.resolves parent then (walk parent met).map Prod.snd else none

/-- What the walk gathers by one more interface of a type. -/
def gatherNext (walk : Gatherer) (sum : Nat × Lineage) (parent : String) :
    Option (Nat × Lineage) :=
  (walk parent sum.2).map fun more => (addStrength sum.1 more.1, more.2)

/-- What the walk gathers by the interfaces of a type, the last of them first. -/
def gatherBeside (world : Universe) (walk : Gatherer) (declaration : Declaration)
    (met : Lineage) : Option (Nat × Lineage) :=
  if declaration.interfaceNames.all world.resolves then
    declaration.interfaceNames.reverse.foldlM (gatherNext walk) (declaration.ownStrength, met)
  else none

/-- The ancestors with a class that is met on the chain. -/
def startWith (onChain : Bool) (name : String) (declaration : Declaration) (met : Lineage) :
    Lineage :=
  if onChain && !declaration.isInterface then met.addClass name else met

/-- The ancestors with an interface whose own ancestors were gathered. -/
def finishWith (depth : Nat) (name : String) (declaration : Declaration) (sum : Nat × Lineage) :
    Nat × Lineage :=
  if declaration.isInterface then (sum.1, sum.2.addInterface ⟨name, sum.1, depth⟩) else (0, sum.2)

/-- Adds a type and its ancestors to those met so far, by name. -/
def gather (world : Universe) :
    Nat → (path : List String) → (onChain : Bool) → (depth : Nat) → Gatherer
  | 0, _, _, _, _, _ => none
  | limit + 1, path, onChain, depth, name, met =>
    match world.shape? name with
    | none => none
    | some .root | some (.primitive _) | some (.array _) => some (0, met)
    | some (.declared declaration) =>
      if path.contains name then none
      else
        (world.gatherAbove (world.gather limit (name :: path) onChain (depth + 1)) declaration
            (startWith onChain name declaration met)).bind fun withChain =>
          (world.gatherBeside (world.gather limit (name :: path) false (depth + 1)) declaration
              withChain).map (finishWith depth name declaration)

/-- All ancestors of a name, the name itself included, in order. -/
def flatten (world : Universe) (limit : Nat) (name : String) : Option (List String) :=
  match world.shape? name with
  | none => none
  | some .root | some (.primitive _) => some [name]
  | some (.array _) => some [name, rootName]
  | some (.declared _) =>
    (world.gather limit [] true 0 name {}).map fun found => found.2.toList ++ [rootName]

variable {world : Universe} {walk other : Gatherer} {declaration : Declaration}
  {path : List String} {onChain : Bool} {depth limit more : Nat} {name : String} {met : Lineage}

/-- What is gathered above a type is the same by walks that find what the others find. -/
theorem gatherAbove_mono {result : Lineage}
    (imp : ∀ parent met found, walk parent met = some found → other parent met = some found)
    (h : world.gatherAbove walk declaration met = some result) :
    world.gatherAbove other declaration met = some result := by
  unfold gatherAbove at h ⊢
  cases superName : declaration.superName with
  | none => simpa [superName] using h
  | some parent =>
    simp only [superName] at h ⊢
    split_ifs at h ⊢ with resolves
    obtain ⟨found, walked, rfl⟩ := Option.map_eq_some_iff.1 h
    rw [imp parent met found walked]
    rfl

/-- One more interface is gathered by walks that find what the others find. -/
theorem gatherNext_mono {sum result : Nat × Lineage} {parent : String}
    (imp : ∀ parent met found, walk parent met = some found → other parent met = some found)
    (h : gatherNext walk sum parent = some result) : gatherNext other sum parent = some result := by
  obtain ⟨found, walked, rfl⟩ := Option.map_eq_some_iff.1 h
  rw [gatherNext, imp parent sum.2 found walked]
  rfl

/-- What is gathered beside a type is the same by walks that find what the others find. -/
theorem gatherBeside_mono {result : Nat × Lineage}
    (imp : ∀ parent met found, walk parent met = some found → other parent met = some found)
    (h : world.gatherBeside walk declaration met = some result) :
    world.gatherBeside other declaration met = some result := by
  unfold gatherBeside at h ⊢
  split_ifs at h ⊢ with resolve
  exact foldlM_mono (fun parent _ sum next => gatherNext_mono imp) h

/-- A declared type is gathered from above and from beside it. -/
theorem gather_declared (shape : world.shape? name = some (.declared declaration))
    (new : name ∉ path) :
    world.gather (limit + 1) path onChain depth name met =
      (world.gatherAbove (world.gather limit (name :: path) onChain (depth + 1)) declaration
          (startWith onChain name declaration met)).bind fun withChain =>
        (world.gatherBeside (world.gather limit (name :: path) false (depth + 1)) declaration
            withChain).map (finishWith depth name declaration) := by
  have new : path.contains name = false := by simpa using new
  rw [gather, shape]
  simp only [new, Bool.false_eq_true, if_false]

/-- What is gathered is the same with one step more at hand. -/
theorem gather_succ {result : Nat × Lineage}
    (h : world.gather limit path onChain depth name met = some result) :
    world.gather (limit + 1) path onChain depth name met = some result := by
  induction limit generalizing path onChain depth name met result with
  | zero => cases h
  | succ limit ih =>
    cases shape : world.shape? name with
    | none => simp [gather, shape] at h
    | some found =>
      cases found with
      | declared declaration =>
        by_cases new : name ∈ path
        · simp [gather, shape, new] at h
        · rw [gather_declared shape new] at h ⊢
          obtain ⟨withChain, above, beside⟩ := Option.bind_eq_some_iff.1 h
          obtain ⟨sum, summed, rfl⟩ := Option.map_eq_some_iff.1 beside
          rw [gatherAbove_mono (fun _ _ _ => ih) above, Option.bind_some,
            gatherBeside_mono (fun _ _ _ => ih) summed]
          rfl
      | _ =>
        simp only [gather, shape] at h ⊢
        exact h

/-- **What is gathered is the same with more depth at hand.** -/
theorem gather_mono {result : Nat × Lineage} (le : limit ≤ more)
    (h : world.gather limit path onChain depth name met = some result) :
    world.gather more path onChain depth name met = some result := by
  induction le with
  | refl => exact h
  | step _ ih => exact gather_succ ih

/-- A flattened list is the same with more depth at hand. -/
theorem flatten_mono {result : List String} (le : limit ≤ more)
    (h : world.flatten limit name = some result) : world.flatten more name = some result := by
  unfold flatten at h ⊢
  split at h
  · cases h
  · exact h
  · exact h
  · exact h
  · obtain ⟨found, gathered, rfl⟩ := Option.map_eq_some_iff.1 h
    rw [gather_mono le gathered]
    rfl

end Universe

end ClassLattice
