import ClassLattice.FieldType.Base
import ClassLattice.Hierarchy.Metadata
import ClassLattice.Table

/-!
# Special interfaces

Marker interfaces turn up in types that have nothing else in common, so they are poor answers to
the question what two types share.  A registry lists the interfaces that are to count as markers,
with what they extend, in the order of registration.
-/

set_option autoImplicit false

namespace ClassLattice

/-- An interface that is to count as a marker. -/
structure SpecialInterface where
  name : String
  interfaces : List String
  deriving DecidableEq

/-- The registered marker interfaces with the interfaces they extend. -/
structure Registry where
  table : Table String (List String)
  deriving DecidableEq

namespace Registry

/-- The registry without markers. -/
def empty : Registry := ⟨Table.empty⟩

/-- Registers an interface; an earlier registration of the name is replaced where it stands. -/
def register (registry : Registry) (special : SpecialInterface) : Registry :=
  ⟨registry.table.insert special.name special.interfaces⟩

/-- Whether a name belongs to a marker. -/
def contains (registry : Registry) (name : String) : Bool := registry.table.contains name

/-- The number of markers. -/
def size (registry : Registry) : Nat := registry.table.size

/-- The markers in the order of registration. -/
def toList (registry : Registry) : List SpecialInterface :=
  registry.table.entries.map fun entry => ⟨entry.1, entry.2⟩

/-- A registry with further registrations, in their order. -/
def registerAll (registry : Registry) (specials : List SpecialInterface) : Registry :=
  specials.foldl register registry

/-- The marker interfaces of the class library. -/
def jdk : Registry :=
  empty.registerAll
    [ ⟨"java/io/Externalizable", ["java/io/Serializable"]⟩,
      ⟨"java/io/Closeable", ["java/lang/AutoCloseable"]⟩,
      ⟨"java/io/Serializable", []⟩,
      ⟨"java/lang/AutoCloseable", []⟩,
      ⟨"java/lang/Cloneable", []⟩ ]

/-- Whether a name is that of the root or of a primitive type. -/
def isBuiltIn (name : String) : Bool := name == rootName || (BaseType.ofName? name).isSome

/-- The markers of the class library and then those of a configuration, of which the ones that
name a built-in type are left out. -/
def ofConfig (extra : List SpecialInterface) : Registry :=
  jdk.registerAll (extra.filter fun special => !isBuiltIn special.name)

end Registry

end ClassLattice
