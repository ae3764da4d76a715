import ClassLattice.ClassFile.Error
import ClassLattice.Text.Quoted

/-!
# Why a question about types has no answer

The causes for which a query fails, each with the name it is about, and their wording.
-/

set_option autoImplicit false

namespace ClassLattice

/-- What is wrong with a text that should name a type. -/
inductive Malformation where
  | emptyName
  | missingElement
  | unterminatedObject
  | invalidObject
  | unknownElement
  | notFieldType
  deriving DecidableEq

/-- The wording of a malformation. -/
def Malformation.text : Malformation → String
  | emptyName => "empty type name"
  | missingElement => "missing array element type"
  | unterminatedObject => "unterminated object element type"
  | invalidObject => "invalid object element type"
  | unknownElement => "unknown element type"
  | notFieldType => "not a field type"

/-- Why a type that exists could not be read. -/
inductive ReadFault where
  /-- The reader says why in its own words. -/
  | reported (text : String)
  /-- A file or the data of an archive entry could not be read. -/
  | transfer
  /-- An archive could not be opened. -/
  | archive
  /-- The bytes are not those of a class file. -/
  | classFile (error : ClassFileError)
  deriving DecidableEq

/-- The wording of a fault. -/
def ReadFault.message : ReadFault → String
  | reported text => text
  | transfer => "i/o error"
  | archive => "archive error"
  | classFile error => "classfile error: " ++ error.message

/-- Why a query fails. -/
inductive HierarchyError where
  /-- No type has the name. -/
  | notFound (name : String)
  /-- The name is no type name. -/
  | malformed (name : String) (reason : Malformation)
  /-- The type is its own ancestor. -/
  | cyclic (name : String)
  /-- The type exists but could not be read. -/
  | unreadable (name : String) (fault : ReadFault)
  /-- The walk from the type went deeper than any walk over finitely many names has to. -/
  | tooDeep (name : String)
  deriving DecidableEq

namespace HierarchyError

/-- The name that the failure is about. -/
def typeName : HierarchyError → String
  | notFound name | malformed name _ | cyclic name | unreadable name _ | tooDeep name => name

/-- The wording of a failure. -/
def message : HierarchyError → String
  | notFound name => "type " ++ name ++ " not found"
  | malformed name reason =>
    "malformed type descriptor " ++ Text.quote name ++ ": " ++ reason.text
  | cyclic name => "type " ++ name ++ " is its own ancestor"
  | unreadable name fault => "failed to read metadata for " ++ name ++ ": " ++ fault.message
  | tooDeep name => "type " ++ name ++ " is nested too deeply"

end HierarchyError

end ClassLattice
