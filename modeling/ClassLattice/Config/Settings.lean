import ClassLattice.Hierarchy.Registry

/-!
# Settings

What can be configured, with the values that hold where a configuration says nothing.
-/

set_option autoImplicit false

namespace ClassLattice

/-- The settings of the caches. -/
structure CacheSettings where
  /-- How many nodes may be retained that nothing else refers to. -/
  nodeCapacity : Nat := 4096
  deriving DecidableEq

/-- The settings of the log. -/
structure LoggingSettings where
  level : String := "info"
  /-- Whether the log is written as JSON. -/
  json : Bool := false
  deriving DecidableEq

/-- All settings, each with what holds where nothing is said. -/
structure Settings where
  cache : CacheSettings := {}
  specialInterfaces : List SpecialInterface := []
  logging : LoggingSettings := {}
  deriving DecidableEq

end ClassLattice
