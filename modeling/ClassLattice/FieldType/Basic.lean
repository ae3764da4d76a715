import ClassLattice.FieldType.Base

/-!
# Field types

A field type is a primitive type, an object type or an array of a field type.  It has two written
forms: the descriptor, which is unambiguous, and the internal name, which class files use where a
class is meant and which gives an object type by its bare name.
-/

set_option autoImplicit false

namespace ClassLattice

/-- The type of a field. -/
inductive FieldType where
  | base (base : BaseType)
  | object (name : String)
  | array (element : FieldType)
  deriving DecidableEq

namespace FieldType

/-- The characters of the descriptor: a code, a name between `L` and `;`, or `[` before the
descriptor of the elements. -/
def descriptorChars : FieldType → List Char
  | base b => [b.code]
  | object name => 'L' :: (name.toList ++ [';'])
  | array element => '[' :: element.descriptorChars

/-- The descriptor of a type. -/
def descriptor (type : FieldType) : String := String.ofList type.descriptorChars

/-- The name by which class files refer to the type: the bare name of an object type, and the
descriptor of any other. -/
def internalName : FieldType → String
  | object name => name
  | type => type.descriptor

/-- The type below all array layers. -/
def leaf : FieldType → FieldType
  | array element => element.leaf
  | type => type

/-- The number of array layers. -/
def dimensions : FieldType → Nat
  | array element => element.dimensions + 1
  | _ => 0

/-- A type under a number of array layers. -/
def arrays : Nat → FieldType → FieldType
  | 0, type => type
  | layers + 1, type => array (arrays layers type)

end FieldType

end ClassLattice
