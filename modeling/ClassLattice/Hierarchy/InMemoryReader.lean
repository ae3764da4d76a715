import ClassLattice.Hierarchy.Reader

/-!
# Readers over types in memory

A reader over a metadata map that can be told to answer for a name with the metadata of another
type, or to fail for it with a given text.
-/

set_option autoImplicit false

namespace ClassLattice

/-- A metadata map with aliases and faults. -/
structure InMemoryReader where
  types : MetadataMap := Table.empty
  /-- What is answered for a name in place of the metadata in the map. -/
  aliases : Table String TypeMetadata := Table.empty
  /-- With what text reading a name fails. -/
  faults : Table String String := Table.empty

namespace InMemoryReader

/-- The metadata under a name: a fault goes before an alias, and an alias before the map. -/
def read (source : InMemoryReader) (name : String) : Except HierarchyError TypeMetadata :=
  match source.faults.get? name, source.aliases.get? name with
  | some text, _ => .error (.unreadable name (.reported text))
  | none, some metadata => .ok metadata
  | none, none => source.types.read name

/-- The reader.  Whether there is a type depends on the map alone. -/
def reader (source : InMemoryReader) : Reader :=
  { read := source.read
    hasType := source.types.contains
    extent := MetadataMap.extent source.types + MetadataMap.extent source.aliases }

end InMemoryReader

end ClassLattice
