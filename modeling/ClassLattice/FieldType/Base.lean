/-!
# Primitive types

The eight primitive types of the Java virtual machine with the one-letter codes by which
descriptors and type names refer to them.
-/

set_option autoImplicit false

namespace ClassLattice

/-- The primitive types. -/
inductive BaseType where
  | byte
  | char
  | double
  | float
  | int
  | long
  | short
  | boolean
  deriving DecidableEq

namespace BaseType

/-- Every primitive type once, in the order of their codes except that `boolean` comes last. -/
def all : List BaseType := [byte, char, double, float, int, long, short, boolean]

/-- The letter of a primitive type. -/
def code : BaseType → Char
  | byte => 'B'
  | char => 'C'
  | double => 'D'
  | float => 'F'
  | int => 'I'
  | long => 'J'
  | short => 'S'
  | boolean => 'Z'

/-- The primitive type of a letter. -/
def ofCode? (c : Char) : Option BaseType := all.find? fun base => base.code == c

/-- The letter as a name. -/
def name (base : BaseType) : String := String.singleton base.code

/-- The place of a primitive type among all of them. -/
def index : BaseType → Nat
  | byte => 0
  | char => 1
  | double => 2
  | float => 3
  | int => 4
  | long => 5
  | short => 6
  | boolean => 7

/-- The word for a primitive type. -/
def label : BaseType → String
  | byte => "Byte"
  | char => "Char"
  | double => "Double"
  | float => "Float"
  | int => "Int"
  | long => "Long"
  | short => "Short"
  | boolean => "Boolean"

/-- The primitive type that a name of exactly one letter denotes. -/
def ofName? (name : String) : Option BaseType :=
  match name.toList with
  | [c] => ofCode? c
  | _ => none

/-- A code denotes the type it belongs to. -/
theorem ofCode?_code (base : BaseType) : ofCode? base.code = some base := by
  cases base <;> rfl

/-- A letter that denotes a type is its code. -/
theorem code_of_ofCode? {c : Char} {base : BaseType} (h : ofCode? c = some base) :
    base.code = c := by
  have found := List.find?_some h
  simpa using found

/-- A primitive type is found by its name. -/
theorem ofName?_name (base : BaseType) : ofName? base.name = some base := by
  cases base <;> rfl

/-- What is found by a name has that name. -/
theorem name_of_ofName? {name : String} {base : BaseType} (h : ofName? name = some base) :
    base.name = name := by
  unfold ofName? at h
  split at h
  · rename_i code single
    rw [BaseType.name, code_of_ofCode? h, ← String.ofList_toList (s := name), single]
    rfl
  · cases h

end BaseType

end ClassLattice
