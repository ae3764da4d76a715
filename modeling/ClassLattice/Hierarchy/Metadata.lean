/-!
# Facts about types

What a hierarchy needs to know about one class or interface: its name, what it extends and
implements, and which of the two it is.
-/

set_option autoImplicit false

namespace ClassLattice

/-- The name of the root class, from which every type descends. -/
def rootName : String := "java/lang/Object"

/-- The facts about one class or interface. -/
structure TypeMetadata where
  className : String
  superName : Option String
  interfaceNames : List String
  isInterface : Bool
  deriving DecidableEq

namespace TypeMetadata

/-- A class. -/
def ofClass (name superName : String) (interfaces : List String) : TypeMetadata :=
  { className := name, superName := some superName, interfaceNames := interfaces,
    isInterface := false }

/-- An interface, whose superclass is the root as in class files. -/
def ofInterface (name : String) (extended : List String) : TypeMetadata :=
  { className := name, superName := some rootName, interfaceNames := extended,
    isInterface := true }

/-- The names of the direct supertypes, the superclass first. -/
def superTypeNames (metadata : TypeMetadata) : List String :=
  metadata.superName.toList ++ metadata.interfaceNames

end TypeMetadata

end ClassLattice
