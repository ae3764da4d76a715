import ClassLattice.Proofs.Universe.Cycles
import ClassLattice.Proofs.Universe.Markers
import ClassLattice.Proofs.Universe.Plain
import ClassLattice.Proofs.Universe.Specific
import ClassLattice.Proofs.Universe.Symmetry
import ClassLattice.Proofs.Workspace.WalkLimit

/-!
# Universes over types in memory

A metadata map and a registry make a universe of finitely many declarations, so that it can be
checked one declaration after the other whether the universe is lawful and shaped as class files
are.  The reader over the map serves it, and a reader with faults speaks within it.
-/

set_option autoImplicit false

namespace ClassLattice

namespace Universe

open Relation

variable {world : Universe} {registry : Registry} {types : MetadataMap} {name : String}
  {declaration : Declaration}

/-- Whether a name is that of a class or interface can be found out. -/
instance (world : Universe) (name : String) : Decidable (world.IsType name) :=
  match shape : world.shape? name with
  | some .root => .isTrue (.inl shape)
  | some (.declared declaration) => .isTrue (.inr ⟨declaration, shape⟩)
  | some (.primitive _) | some (.array _) | none => .isFalse (by simp [IsType, shape])

/-- Whether a name is that of a class can be found out. -/
instance (world : Universe) (name : String) : Decidable (world.IsClass name) :=
  match shape : world.shape? name with
  | some (.declared declaration) =>
    decidable_of_iff (declaration.isInterface = false) (by simp [IsClass, shape])
  | some .root | some (.primitive _) | some (.array _) | none => .isFalse (by simp [IsClass, shape])

/-- Whether a name is a supertype of another can be found out. -/
instance (world : Universe) (name parent : String) : Decidable (world.Extends name parent) :=
  match shape : world.shape? name with
  | some (.declared declaration) =>
    decidable_of_iff (parent ∈ declaration.superTypeNames) (by simp [Extends, shape])
  | some .root | some (.primitive _) | some (.array _) | none =>
    .isFalse (by simp [Extends, shape])

/-- The universe of the types in a map, with the markers of a registry. -/
def ofTypes (registry : Registry) (types : MetadataMap) : Universe := ⟨registry, types.get?⟩

/-- All that is declared in a registry and a map. -/
def declarations (registry : Registry) (types : MetadataMap) : List (String × Declaration) :=
  registry.table.entries.map (fun entry => (entry.1, .ofMarker entry.2)) ++
    types.entries.map fun entry => (entry.1, entry.2.declaration)

/-- Every declaration of the universe is in the list of all. -/
theorem mem_declarations
    (h : (ofTypes registry types).shape? name = some (.declared declaration)) :
    (name, declaration) ∈ declarations registry types := by
  rcases of_shape?_declared h with ⟨interfaces, registered, rfl⟩ | ⟨-, metadata, told, rfl⟩
  · exact List.mem_append_left _ (List.mem_map.2 ⟨_, Table.mem_entries_of_get? registered, rfl⟩)
  · exact List.mem_append_right _ (List.mem_map.2 ⟨_, Table.mem_entries_of_get? told, rfl⟩)

/-- A universe of types is closed if the supertypes in all declarations are classes or interfaces.
-/
theorem closed_ofTypes
    (h : ∀ entry ∈ declarations registry types, ∀ parent ∈ entry.2.superTypeNames,
      (ofTypes registry types).IsType parent) : (ofTypes registry types).Closed := by
  rintro name parent ⟨declaration, shape, member⟩
  exact h _ (mem_declarations shape) parent member

/-- **A universe is lawful** if every supertype is a class or interface of a lower rank. -/
theorem lawful_ofTypes (rank : String → Nat)
    (h : ∀ entry ∈ declarations registry types, ∀ parent ∈ entry.2.superTypeNames,
      (ofTypes registry types).IsType parent ∧ rank parent < rank entry.1) :
    (ofTypes registry types).Lawful := by
  have edge {name parent : String} (extended : (ofTypes registry types).Extends name parent) :
      (ofTypes registry types).IsType parent ∧ rank parent < rank name := by
    obtain ⟨declaration, shape, member⟩ := extended
    exact h _ (mem_declarations shape) parent member
  refine ⟨fun name parent extended => (edge extended).1, fun name path => ?_⟩
  -- Ranks fall along every path, so that none comes back to where it started.
  have lower {parent : String} (path : TransGen (ofTypes registry types).Extends name parent) :
      rank parent < rank name := by
    induction path with
    | single extended => exact (edge extended).2
    | tail _ extended ih => exact Nat.lt_trans (edge extended).2 ih
  exact Nat.lt_irrefl _ (lower path)

/-- A universe of types is class-shaped if all declarations are. -/
theorem classShaped_ofTypes
    (h : ∀ entry ∈ declarations registry types,
      (∀ parent ∈ entry.2.superName, parent = rootName ∨ entry.2.isInterface = false ∧
        (ofTypes registry types).IsClass parent) ∧
      ∀ parent ∈ entry.2.interfaceNames, (ofTypes registry types).isInterface parent = true) :
    (ofTypes registry types).ClassShaped := by
  constructor
  · rintro name parent ⟨declaration, shape, superName⟩
    refine ((h _ (mem_declarations shape)).1 parent superName).imp_right fun ⟨kind, isClass⟩ => ?_
    exact ⟨⟨declaration, shape, kind⟩, isClass⟩
  · intro name declaration shape parent member
    exact (h _ (mem_declarations shape)).2 parent member

/-- A universe of types is moderate if there are small bounds that add up in all declarations. -/
theorem moderate_ofTypes (bound : String → Nat) (least : ∀ name, 1 ≤ bound name)
    (h : ∀ entry ∈ declarations registry types,
      1 + (entry.2.interfaceNames.map bound).sum ≤ bound entry.1)
    (few : ∀ entry ∈ declarations registry types, bound entry.1 < greatestStrength) :
    (ofTypes registry types).Moderate := by
  have unfolded (depth : Nat) (name : String) :
      (ofTypes registry types).unfolding depth name ≤ bound name := by
    induction depth generalizing name with
    | zero => exact Nat.zero_le _
    | succ depth ih =>
      rw [unfolding]
      cases shape : (ofTypes registry types).shape? name with
      | none => exact least name
      | some found =>
        cases found with
        | declared declaration =>
          have below : (declaration.interfaceNames.map
              ((ofTypes registry types).unfolding depth)).sum ≤
                (declaration.interfaceNames.map bound).sum :=
            List.sum_le_sum fun name _ => ih name
          have bounded := h _ (mem_declarations shape)
          exact Nat.le_trans (Nat.add_le_add_left below 1) bounded
        | _ => exact least name
  intro name interface depth
  obtain ⟨declaration, shape⟩ := exists_of_isInterface interface
  exact Nat.lt_of_le_of_lt (unfolded depth name) (few _ (mem_declarations shape))

/-- Whether a name is plain can be found out. -/
instance (name : String) : Decidable (IsPlainName name) :=
  decidable_of_iff (name ≠ "" ∧ ';' ∉ name.toList ∧ name.toList.head? ≠ some '[')
    ⟨fun ⟨nonempty, noSemicolon, noBracket⟩ => ⟨nonempty, noSemicolon, noBracket⟩,
      fun h => ⟨h.nonempty, h.noSemicolon, h.noBracket⟩⟩

/-- A universe of types is well named if all declarations are. -/
theorem wellNamed_ofTypes (h : ∀ entry ∈ declarations registry types, IsPlainName entry.1) :
    (ofTypes registry types).WellNamed := by
  constructor
  · intro name told
    obtain ⟨metadata, told⟩ := Option.isSome_iff_exists.1 told
    exact h (name, metadata.declaration)
      (List.mem_append_right _ (List.mem_map.2 ⟨_, Table.mem_entries_of_get? told, rfl⟩))
  · intro name registered
    obtain ⟨interfaces, registered⟩ := Table.contains_iff_get?.1 registered
    exact h (name, .ofMarker interfaces)
      (List.mem_append_left _ (List.mem_map.2 ⟨_, Table.mem_entries_of_get? registered, rfl⟩))

/-- The reader of types is within the universe that is made of them. -/
theorem within_ofTypes (registry : Registry) (types : MetadataMap) :
    types.reader.Within (ofTypes registry types) := by
  intro name metadata answer
  have answer : types.read name = .ok metadata := answer
  unfold MetadataMap.read at answer
  split at answer
  · rename_i found
    rw [← Except.ok.inj answer]
    exact found
  · cases answer

/-- **The reader over a map serves its universe.** -/
theorem serves_ofTypes (registry : Registry) (types : MetadataMap) :
    types.reader.Serves (ofTypes registry types) := by
  intro name metadata told
  have told : types.get? name = some metadata := told
  show types.read name = .ok metadata
  rw [MetadataMap.read, told]

/-- So is a reader that fails for some of them. -/
theorem within_ofTypes_of_faults (registry : Registry) (types : MetadataMap)
    (faults : Table String String) :
    InMemoryReader.reader { types, faults } |>.Within (ofTypes registry types) := by
  intro name metadata answer
  have answer : InMemoryReader.read { types, faults } name = .ok metadata := answer
  unfold InMemoryReader.read at answer
  cases fault : faults.get? name with
  | some text => simp [fault] at answer
  | none =>
    simp only [fault, Table.get?_empty] at answer
    exact within_ofTypes registry types name metadata answer

/-! ## Crossing interfaces -/

/-- Two interfaces, each extended by another, and two classes, each of which implements one of the
two and what extends the other. -/
def crossingTypes : MetadataMap :=
  .ofTypes [.ofInterface "demo/I" [], .ofInterface "demo/J" [],
    .ofInterface "demo/P" ["demo/J"], .ofInterface "demo/Q" ["demo/I"],
    .ofClass "demo/A" rootName ["demo/I", "demo/P"],
    .ofClass "demo/B" rootName ["demo/J", "demo/Q"]]

/-- Classes that extend one another, the highest of which extends what cannot be read. -/
def stairTypes : MetadataMap :=
  .ofTypes [.ofClass "demo/A" "demo/Missing" ["demo/Gone"], .ofClass "demo/B" "demo/A" [],
    .ofClass "demo/C" "demo/B" []]

/-- The universe of crossing interfaces. -/
def crossing : Universe := ofTypes .empty crossingTypes

/-- The place of a name in an order in which supertypes come first. -/
def crossingRank (name : String) : Nat :=
  [rootName, "demo/I", "demo/J", "demo/P", "demo/Q", "demo/A", "demo/B"].idxOf name

/-- The reader of the crossing types is within their universe. -/
theorem within_crossing : crossingTypes.reader.Within crossing :=
  within_ofTypes .empty crossingTypes

/-- The reader of the crossing types serves their universe. -/
theorem serves_crossing : crossingTypes.reader.Serves crossing :=
  serves_ofTypes .empty crossingTypes

/-- The crossing universe is lawful, by the rank of each name. -/
theorem lawful_crossing : crossing.Lawful := lawful_ofTypes crossingRank (by decide)

/-- The crossing universe is class-shaped. -/
theorem classShaped_crossing : crossing.ClassShaped := classShaped_ofTypes (by decide)

/-- The crossing universe is moderate. -/
theorem moderate_crossing : crossing.Moderate :=
  moderate_ofTypes (fun name => 3 ^ crossingRank name) (fun _ => Nat.one_le_pow _ _ (by decide))
    (by decide) (by decide)

/-- The crossing universe is well named. -/
theorem wellNamed_crossing : crossing.WellNamed := wellNamed_ofTypes (by decide)

/-- The two classes of the crossing share two interfaces. -/
theorem sharedInterface_crossing : crossing.SharedInterface "demo/A" "demo/B" "demo/I" ∧
    crossing.SharedInterface "demo/A" "demo/B" "demo/J" := by
  refine ⟨⟨by decide, ?_, ?_⟩, ⟨by decide, ?_, ?_⟩⟩
  · exact .single (by decide)
  · exact .tail (b := "demo/Q") (.single (by decide)) (by decide)
  · exact .tail (b := "demo/P") (.single (by decide)) (by decide)
  · exact .single (by decide)

/-- The ancestors of one of the crossing classes, in their order. -/
theorem lists_crossing :
    crossing.Lists "demo/B" ["demo/B", "demo/Q", "demo/J", "demo/I", rootName] := by
  obtain ⟨found, gathered, met⟩ : ∃ found, crossing.gather 4 [] true 0 "demo/B" {} = some found ∧
      found.2 = ⟨["demo/B"], [⟨"demo/J", 1, 1⟩, ⟨"demo/Q", 2, 1⟩, ⟨"demo/I", 1, 2⟩]⟩ :=
    ⟨_, rfl, by decide⟩
  obtain ⟨declaration, shape⟩ : ∃ declaration,
      crossing.shape? "demo/B" = some (.declared declaration) := ⟨_, rfl⟩
  refine ⟨4, ?_⟩
  rw [flatten, shape]
  simp only [gathered, Option.map_some, met, Lineage.toList, Lineage.ranked]
  simp [List.mergeSort, RankedName.ranksBefore]

/-- The interface of the crossing that is ranked first from one side. -/
theorem ranksFirst_crossing : crossing.RanksFirst "demo/A" "demo/B" "demo/I" := by
  obtain ⟨found, gathered, interfaces⟩ : ∃ found,
      crossing.gather 4 [] true 0 "demo/A" {} = some found ∧
        found.2.interfaces = [⟨"demo/I", 1, 1⟩, ⟨"demo/P", 2, 1⟩, ⟨"demo/J", 1, 2⟩] :=
    ⟨_, rfl, by decide⟩
  have apart : ¬ crossing.Descends "demo/B" "demo/P" := not_descends_of_search
    (show crossing.search 4 [] "demo/B" "demo/P" = some false by decide)
  refine ranksFirst_of_gather (r := ⟨"demo/I", 1, 1⟩) gathered (by simp [interfaces])
    sharedInterface_crossing.1 ?_
  rw [interfaces]
  simp only [List.forall_mem_cons, List.not_mem_nil, false_implies, implies_true, and_true]
  exact ⟨fun _ => by decide, fun shared => absurd shared.symm.descends apart,
    fun _ => by decide⟩

/-- **The order of the two classes matters**: seen from the second, the second interface is
nearer. -/
theorem not_orderFree_crossing : ¬ crossing.OrderFree "demo/A" "demo/B" := by
  have notUp : ¬ crossing.Descends "demo/A" "demo/B" := not_descends_of_search
    (show crossing.search 4 [] "demo/A" "demo/B" = some false by decide)
  have notDown : ¬ crossing.Descends "demo/B" "demo/A" := not_descends_of_search
    (show crossing.search 4 [] "demo/B" "demo/A" = some false by decide)
  intro free
  cases free with
  | up up => exact notUp up
  | down down => exact notDown down
  | sharedClass shared =>
    have classes : ∀ entry ∈ declarations .empty crossingTypes, entry.2.isInterface = false →
      entry.1 = "demo/A" ∨ entry.1 = "demo/B" := by decide
    obtain ⟨declaration, shape, kind⟩ := shared.1
    rcases classes _ (mem_declarations shape) kind with same | same
    · exact notDown (same ▸ shared.symm.descends)
    · exact notUp (same ▸ shared.descends)
  | noInterface none => exact none _ sharedInterface_crossing.1
  | sameFirst first first' =>
    obtain rfl := ranksFirst_crossing.unique first
    obtain ⟨found, gathered, interfaces⟩ : ∃ found,
        crossing.gather 4 [] true 0 "demo/B" {} = some found ∧
          found.2.interfaces = [⟨"demo/J", 1, 1⟩, ⟨"demo/Q", 2, 1⟩, ⟨"demo/I", 1, 2⟩] :=
      ⟨_, rfl, by decide⟩
    obtain ⟨-, r, ranks, named, least⟩ := first'
    have behind := least ⟨"demo/J", 1, 1⟩ ((ranks_iff gathered).2 (by simp [interfaces]))
      sharedInterface_crossing.2.symm
    rw [ranks_iff gathered, interfaces] at ranks
    simp only [List.mem_cons, List.not_mem_nil, or_false] at ranks
    rcases ranks with rfl | rfl | rfl
    · simp at named
    · simp at named
    · exact absurd behind (by decide)

/-! ## A marker that extends interfaces -/

/-- Three interfaces, and two classes that implement one of them and a marker. -/
def markedTypes : MetadataMap :=
  .ofTypes [.ofInterface "demo/I" [], .ofInterface "demo/J" [], .ofInterface "demo/K" [],
    .ofClass "demo/A" rootName ["demo/K", "demo/M"],
    .ofClass "demo/B" rootName ["demo/K", "demo/M"]]

/-- A marker that extends the two other interfaces. -/
def markedRegistry : Registry := Registry.empty.register ⟨"demo/M", ["demo/I", "demo/J"]⟩

/-- The universe of a marker that extends interfaces. -/
def marked : Universe := ofTypes markedRegistry markedTypes

/-- The place of a name in an order in which supertypes come first. -/
def markedRank (name : String) : Nat :=
  [rootName, "demo/I", "demo/J", "demo/K", "demo/M", "demo/A", "demo/B"].idxOf name

/-- The reader of the marked types is within their universe. -/
theorem within_marked : markedTypes.reader.Within marked :=
  within_ofTypes markedRegistry markedTypes

/-- The reader of the marked types serves their universe. -/
theorem serves_marked : markedTypes.reader.Serves marked :=
  serves_ofTypes markedRegistry markedTypes

/-- The marked universe is lawful, by the rank of each name. -/
theorem lawful_marked : marked.Lawful := lawful_ofTypes markedRank (by decide)

/-- The marked universe is well named. -/
theorem wellNamed_marked : marked.WellNamed := wellNamed_ofTypes (by decide)

/-- The two classes of the marked universe share an ordinary interface and a marker. -/
theorem sharedInterface_marked : marked.SharedInterface "demo/A" "demo/B" "demo/K" ∧
    marked.SharedInterface "demo/A" "demo/B" "demo/M" := by
  refine ⟨⟨by decide, ?_, ?_⟩, ⟨by decide, ?_, ?_⟩⟩
  all_goals exact .single (by decide)

/-- Each ordinary interface is weaker than the marker, which extends two of them. -/
theorem stronger_marked {name : String} (ordinary : marked.IsOrdinary name) :
    marked.Stronger "demo/M" name := by
  have strength {name : String} {limit strength : Nat} {met : Lineage}
      (gathered : marked.gather limit [] true 0 name {} = some (strength, met)) :
      marked.HasStrength limit name strength := (grows_gather gathered).2.2
  have two : marked.HasStrength 4 "demo/M" 2 := strength rfl
  have ordinaries : ∀ entry ∈ declarations markedRegistry markedTypes,
      entry.2.isInterface = true → entry.2.isMarker = false →
        entry.1 = "demo/I" ∨ entry.1 = "demo/J" ∨ entry.1 = "demo/K" := by decide
  obtain ⟨declaration, shape, kind, marker⟩ := ordinary
  refine ⟨4, 2, 1, two, ?_, by decide⟩
  rcases ordinaries _ (mem_declarations shape) kind marker with rfl | rfl | rfl
  · exact strength rfl
  · exact strength rfl
  · exact strength rfl

/-- Neither of the two classes descends from the other, and they share no class. -/
theorem apart_marked : ¬ marked.Descends "demo/A" "demo/B" ∧ ¬ marked.Descends "demo/B" "demo/A" ∧
    ∀ c, ¬ marked.SharedClass "demo/A" "demo/B" c := by
  have notUp : ¬ marked.Descends "demo/A" "demo/B" := not_descends_of_search
    (show marked.search 4 [] "demo/A" "demo/B" = some false by decide)
  have notDown : ¬ marked.Descends "demo/B" "demo/A" := not_descends_of_search
    (show marked.search 4 [] "demo/B" "demo/A" = some false by decide)
  refine ⟨notUp, notDown, fun c shared => ?_⟩
  have classes : ∀ entry ∈ declarations markedRegistry markedTypes, entry.2.isInterface = false →
    entry.1 = "demo/A" ∨ entry.1 = "demo/B" := by decide
  obtain ⟨declaration, shape, kind⟩ := shared.1
  rcases classes _ (mem_declarations shape) kind with rfl | rfl
  · exact notDown shared.symm.descends
  · exact notUp shared.descends

/-! ## A class whose superclass is missing -/

/-- An interface, a class that implements it and whose superclass there is not, and a class below
that one. -/
def severedTypes : MetadataMap :=
  .ofTypes [.ofInterface "demo/I" [], .ofClass "demo/A" "demo/S" ["demo/I"],
    .ofClass "demo/B" "demo/A" []]

/-- The universe of a class whose superclass is missing. -/
def severed : Universe := ofTypes .empty severedTypes

/-- The reader of the severed types is within their universe. -/
theorem within_severed : severedTypes.reader.Within severed := within_ofTypes .empty severedTypes

/-- The reader of the severed types serves their universe. -/
theorem serves_severed : severedTypes.reader.Serves severed := serves_ofTypes .empty severedTypes

/-! ## A cycle -/

/-- Two interfaces that extend each other, a class that implements one of them, a class that
extends it, and a class apart from these. -/
def knotTypes : MetadataMap :=
  .ofTypes [.ofInterface "demo/I" ["demo/J"], .ofInterface "demo/J" ["demo/I"],
    .ofClass "demo/A" rootName ["demo/I"], .ofClass "demo/B" "demo/A" [],
    .ofClass "demo/C" rootName []]

/-- The universe of two interfaces that extend each other. -/
def knot : Universe := ofTypes .empty knotTypes

/-- The knot is closed. -/
theorem closed_knot : knot.Closed := closed_ofTypes (by decide)

/-- In the knot an interface is its own ancestor and met from a class. -/
theorem hasCycleAt_knot : knot.HasCycleAt "demo/B" "demo/I" := by
  have forth : knot.Extends "demo/I" "demo/J" := by decide
  have back : knot.Extends "demo/J" "demo/I" := by decide
  refine ⟨.tail (b := "demo/A") (.single ?_) ?_, .tail (.single forth) back⟩
  · decide
  · decide

/-- One class of the knot leads up to no cycle. -/
theorem not_hasCycleAt_knot (x : String) : ¬ knot.HasCycleAt "demo/C" x := by
  have lists : knot.Lists "demo/C" ["demo/C", rootName] := ⟨2, by decide +kernel⟩
  exact lists.grounded.not_hasCycleAt

end Universe

end ClassLattice
