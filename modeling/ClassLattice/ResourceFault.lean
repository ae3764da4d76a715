/-!
# Why a resource cannot be read

A resource that does not exist is no fault; these are the ways in which one that may exist cannot
be had.
-/

set_option autoImplicit false

namespace ClassLattice

/-- A sequence of bytes, such as the content of a file. -/
abbrev Bytes : Type := List UInt8

/-- Why a resource that may exist cannot be read. -/
inductive ResourceFault where
  /-- The file or the data in it cannot be read. -/
  | transfer
  /-- The file is no archive, or the archive does not lead to the data. -/
  | archive
  deriving DecidableEq

end ClassLattice
