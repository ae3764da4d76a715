import ClassLattice.FieldType.Parser

/-!
# What can be wrong with a class file

The kinds of constant that a constant pool may hold, the causes for which the header of a class
file is refused, and the wording of both.
-/

set_option autoImplicit false

namespace ClassLattice

/-- The kinds of constants. -/
inductive ConstantKind where
  | utf8
  | integer
  | float
  | long
  | double
  | classRef
  | string
  | fieldRef
  | methodRef
  | interfaceMethodRef
  | nameAndType
  | methodHandle
  | methodType
  | dynamic
  | invokeDynamic
  | moduleRef
  | packageRef
  deriving DecidableEq

namespace ConstantKind

/-- The name of the kind in the class-file format. -/
def label : ConstantKind → String
  | utf8 => "Utf8"
  | integer => "Integer"
  | float => "Float"
  | long => "Long"
  | double => "Double"
  | classRef => "Class"
  | string => "String"
  | fieldRef => "Fieldref"
  | methodRef => "Methodref"
  | interfaceMethodRef => "InterfaceMethodref"
  | nameAndType => "NameAndType"
  | methodHandle => "MethodHandle"
  | methodType => "MethodType"
  | dynamic => "Dynamic"
  | invokeDynamic => "InvokeDynamic"
  | moduleRef => "Module"
  | packageRef => "Package"

/-- The kind that a tag byte announces. -/
def ofTag? (tag : UInt8) : Option ConstantKind :=
  match tag.toNat with
  | 1 => some utf8
  | 3 => some integer
  | 4 => some float
  | 5 => some long
  | 6 => some double
  | 7 => some classRef
  | 8 => some string
  | 9 => some fieldRef
  | 10 => some methodRef
  | 11 => some interfaceMethodRef
  | 12 => some nameAndType
  | 15 => some methodHandle
  | 16 => some methodType
  | 17 => some dynamic
  | 18 => some invokeDynamic
  | 19 => some moduleRef
  | 20 => some packageRef
  | _ => none

/-- The number of slots that a constant takes in the pool. -/
def width : ConstantKind → Nat
  | long | double => 2
  | _ => 1

/-- The number of bytes behind the tag.  A `Utf8` constant has this many before its text, and they
say how long the text is. -/
def payload : ConstantKind → Nat
  | long | double => 8
  | integer | float | fieldRef | methodRef | interfaceMethodRef | nameAndType | dynamic
  | invokeDynamic => 4
  | methodHandle => 3
  | utf8 | classRef | string | methodType | moduleRef | packageRef => 2

end ConstantKind

/-- Why the header of a class file cannot be read. -/
inductive ClassFileError where
  | endOfInput
  | wrongMagic (found : UInt32)
  | noConstant (index : UInt16)
  | unknownTag (tag : UInt8)
  | wrongConstant (index : UInt16) (expected found : ConstantKind)
  | invalidText
  deriving DecidableEq

/-- A number as eight hexadecimal digits. -/
def eightHexDigits (n : UInt32) : String :=
  let digits := Nat.toDigits 16 n.toNat
  String.ofList (List.replicate (8 - digits.length) '0' ++ digits)

/-- The text that tells why bytes are no class file. -/
def ClassFileError.message : ClassFileError → String
  | endOfInput => "unexpected end of input"
  | wrongMagic found => "invalid classfile magic: 0x" ++ eightHexDigits found
  | noConstant index => "invalid constant pool index: " ++ toString index.toNat
  | unknownTag tag => "invalid constant pool tag: " ++ toString tag.toNat
  | wrongConstant index expected found =>
    "constant pool type mismatch at index " ++ toString index.toNat ++ ": expected "
      ++ expected.label ++ ", found " ++ found.label
  | invalidText => "invalid modified UTF-8 constant"

/-- The text that tells which descriptor is invalid. -/
def InvalidDescriptor.message (error : InvalidDescriptor) : String :=
  "invalid descriptor: " ++ error.text

end ClassLattice
