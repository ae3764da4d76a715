import ClassLattice.Hierarchy.Registry
import ClassLattice.Proofs.Table

/-!
# What a registry holds

A registry is assembled by registrations, of which the last for a name counts.  A configuration may
name built-in types, and its registrations of these are left out; registrations one by one may do so
too and are not.  For all other names a registry holds what the last registration says.
-/

set_option autoImplicit false

namespace ClassLattice

/-- The interfaces of the last registration of a name. -/
def lastRegistered? (specials : List SpecialInterface) (name : String) : Option (List String) :=
  (specials.reverse.find? (·.name == name)).map SpecialInterface.interfaces

namespace Registry

variable {registry : Registry} {specials : List SpecialInterface} {name : String}

/-- A registry and the registrations that it was assembled by, in their order.  A configuration
comes behind the markers of the class library. -/
inductive Assembled : List SpecialInterface → Registry → Prop
  | empty : Assembled [] .empty
  | ofConfig (extra : List SpecialInterface) :
      Assembled (jdk.toList ++ extra) (.ofConfig extra)
  | register {specials : List SpecialInterface} {registry : Registry}
      (h : Assembled specials registry) (special : SpecialInterface) :
      Assembled (specials ++ [special]) (registry.register special)

/-- Of two registrations under one name the later one counts. -/
theorem lastRegistered?_append (more : List SpecialInterface) :
    lastRegistered? (specials ++ more) name =
      (lastRegistered? more name).or (lastRegistered? specials name) := by
  unfold lastRegistered?
  rw [List.reverse_append, List.find?_append, Option.map_or]

/-- Registering a marker changes what is found under its name only. -/
theorem get?_register (special : SpecialInterface) :
    (registry.register special).table.get? name =
      (lastRegistered? [special] name).or (registry.table.get? name) := by
  rw [register, Table.get?_insert, lastRegistered?, List.reverse_singleton, List.find?_singleton]
  split <;> rfl

/-- Further registrations go before what a registry holds. -/
theorem get?_registerAll (specials : List SpecialInterface) :
    (registry.registerAll specials).table.get? name =
      (lastRegistered? specials name).or (registry.table.get? name) := by
  induction specials generalizing registry with
  | nil => rfl
  | cons special rest ih =>
    have split : special :: rest = [special] ++ rest := rfl
    rw [split, lastRegistered?_append, Option.or_assoc, ← get?_register]
    exact ih

/-- What is left out of a configuration concerns built-in types only. -/
theorem lastRegistered?_filter (extra : List SpecialInterface) (ordinary : isBuiltIn name = false) :
    lastRegistered? (extra.filter fun special => !isBuiltIn special.name) name =
      lastRegistered? extra name := by
  unfold lastRegistered?
  rw [← List.filter_reverse, List.find?_filter]
  congr 2
  funext special
  by_cases same : special.name = name
  · simp [same, ordinary]
  · simp [same]

/-- What is found among the standard markers is what was registered last. -/
theorem get?_jdk : jdk.table.get? name = lastRegistered? jdk.toList name := by
  have all : jdk = empty.registerAll jdk.toList := by decide
  conv_lhs => rw [all]
  rw [get?_registerAll]
  exact Option.or_none

/-- **A registry holds the last registration of each name** that is not built in. -/
theorem Assembled.get? (h : Assembled specials registry) (ordinary : isBuiltIn name = false) :
    registry.table.get? name = lastRegistered? specials name := by
  induction h with
  | empty => rfl
  | ofConfig extra =>
    rw [Registry.ofConfig, get?_registerAll, lastRegistered?_filter extra ordinary, get?_jdk,
      lastRegistered?_append]
  | register _ special ih => rw [get?_register, lastRegistered?_append, ih]

end Registry

end ClassLattice
