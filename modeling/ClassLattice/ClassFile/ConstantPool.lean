import ClassLattice.ClassFile.Bytes
import ClassLattice.Text.ModifiedUtf8

/-!
# Constant pools

The pool of a class file is a row of slots, of which the first is never used.  A `Long` or a
`Double` takes two slots, and the second of them is not used either.  Only the constants that
spell class names keep their content; of the others the kind is remembered.
-/

set_option autoImplicit false

namespace ClassLattice

/-- A constant, as far as class names depend on it. -/
inductive Constant where
  | utf8 (bytes : List UInt8)
  | classRef (nameIndex : UInt16)
  | other (kind : ConstantKind)
  deriving DecidableEq

/-- The kind of a constant. -/
def Constant.kind : Constant → ConstantKind
  | utf8 _ => .utf8
  | classRef _ => .classRef
  | other kind => kind

/-- The slots of a pool by number; an unused slot holds nothing. -/
structure ConstantPool where
  slots : Array (Option Constant)

namespace ConstantPool

open ByteReader

/-- Reads what follows the tag of a constant of a given kind. -/
def readPayload : ConstantKind → ByteReader Constant
  | .utf8 => do
    let length ← u2
    return .utf8 (← take length.toNat)
  | .classRef => do return .classRef (← u2)
  | kind => do
    let _ ← take kind.payload
    return .other kind

/-- Reads a constant: its tag and what belongs to a constant of that kind. -/
def readConstant : ByteReader Constant := do
  let tag ← u1
  match ConstantKind.ofTag? tag with
  | some kind => readPayload kind
  | none => throw (.unknownTag tag)

/-- The slots of a constant: the constant itself, then as many unused slots as its width asks. -/
def slotsOf (constant : Constant) : List (Option Constant) :=
  some constant :: List.replicate (constant.kind.width - 1) none

/-- Reads constants while `missing` slots are not filled.  The last constant may run one slot
over. -/
def readSlots (missing : Nat) (slots : Array (Option Constant)) :
    ByteReader (Array (Option Constant)) :=
  if missing = 0 then return slots
  else do
    let constant ← readConstant
    readSlots (missing - constant.kind.width) (slots ++ slotsOf constant)
termination_by missing
decreasing_by
  have : 0 < constant.kind.width := by cases constant.kind <;> decide
  omega

/-- Reads a pool.  The slot of index zero holds nothing. -/
def read : ByteReader ConstantPool := do
  let count ← u2
  let slots ← readSlots (count.toNat - 1) #[none]
  return ⟨slots.take (max count.toNat 1)⟩

/-- The constant of an index. -/
def constant (pool : ConstantPool) (index : UInt16) : Except ClassFileError Constant :=
  match pool.slots[index.toNat]? with
  | some (some constant) => .ok constant
  | _ => .error (.noConstant index)

/-- The text at an index. -/
def text (pool : ConstantPool) (index : UInt16) : Except ClassFileError String := do
  match ← pool.constant index with
  | .utf8 bytes =>
    match Text.decodeModifiedUtf8 bytes with
    | some text => return text
    | none => throw .invalidText
  | found => throw (.wrongConstant index .utf8 found.kind)

/-- The name of the class that is referred to at an index. -/
def className (pool : ConstantPool) (index : UInt16) : Except ClassFileError String := do
  match ← pool.constant index with
  | .classRef nameIndex => pool.text nameIndex
  | found => throw (.wrongConstant index .classRef found.kind)

end ConstantPool

end ClassLattice
