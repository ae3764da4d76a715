import ClassLattice.Hierarchy.Error
import ClassLattice.Hierarchy.Metadata
import ClassLattice.Table

/-!
# Sources of metadata

A reader answers by name what is known about a type.  It knows about finitely many names, and its
extent bounds how much text they are, so that walks along its answers can be bounded beforehand.
The metadata map is the reader over types that are kept in memory.
-/

set_option autoImplicit false

namespace ClassLattice

/-- How much a name counts towards an extent: its bytes and one more. -/
def nameWeight (name : String) : Nat := name.utf8ByteSize + 1

/-- How much a list of names counts towards an extent. -/
def namesWeight (names : List String) : Nat :=
  names.foldr (fun name total => nameWeight name + total) 0

/-- A source of metadata. -/
structure Reader where
  /-- The metadata under a name, or why there is none. -/
  read : String → Except HierarchyError TypeMetadata
  /-- Whether there is a type of that name. -/
  hasType : String → Bool
  /-- A bound on the weight of all names that occur as supertypes in the answers of `read`, each
  name counted once. -/
  extent : Nat

/-- The types that are kept in memory, by name. -/
abbrev MetadataMap : Type := Table String TypeMetadata

namespace MetadataMap

/-- Adds a type, in place of one of the same name. -/
def addType (types : MetadataMap) (metadata : TypeMetadata) : MetadataMap :=
  types.insert metadata.className metadata

/-- The map of a list of types; of two types of one name the later stays. -/
def ofTypes (types : List TypeMetadata) : MetadataMap := types.foldl addType Table.empty

/-- The metadata under a name. -/
def read (types : MetadataMap) (name : String) : Except HierarchyError TypeMetadata :=
  match types.get? name with
  | some metadata => .ok metadata
  | none => .error (.notFound name)

/-- The weight of all supertypes that occur in the map. -/
def extent (types : MetadataMap) : Nat :=
  types.values.foldr (fun metadata total => namesWeight metadata.superTypeNames + total) 0

/-- The reader that answers from a map. -/
def reader (types : MetadataMap) : Reader :=
  { read := types.read, hasType := types.contains, extent := types.extent }

end MetadataMap

end ClassLattice
