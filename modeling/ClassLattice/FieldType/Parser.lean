import ClassLattice.FieldType.Basic

/-!
# Reading field types

Descriptors and internal names as text, read back into field types.  A refusal names the text at
which reading stopped: the part that is left where no type begins, or the whole text where
something follows a complete type.
-/

set_option autoImplicit false

namespace ClassLattice

/-- Text that is not a field type. -/
structure InvalidDescriptor where
  /-- What was left to read where reading failed. -/
  text : String
  deriving DecidableEq

namespace FieldType

/-- Reads one descriptor from the front of a text and returns the rest. -/
def takeDescriptor : List Char → Except InvalidDescriptor (FieldType × List Char)
  | [] => .error ⟨""⟩
  | '[' :: rest => do
    let (element, rest) ← takeDescriptor rest
    return (array element, rest)
  | 'L' :: rest =>
    match rest.span (· != ';') with
    | (c :: name, _ :: after) => .ok (object (String.ofList (c :: name)), after)
    | _ => .error ⟨String.ofList ('L' :: rest)⟩
  | c :: rest =>
    match BaseType.ofCode? c with
    | some b => .ok (base b, rest)
    | none => .error ⟨String.ofList (c :: rest)⟩

/-- Reads a text that is one descriptor and nothing else. -/
def ofDescriptor (text : String) : Except InvalidDescriptor FieldType := do
  let (type, rest) ← takeDescriptor text.toList
  if rest.isEmpty then return type else throw ⟨text⟩

/-- Reads an internal name: a descriptor if it begins with `[`, a primitive type if it is a code,
and else the name of an object type, which is neither empty nor contains `;`. -/
def ofInternalName (name : String) : Except InvalidDescriptor FieldType :=
  if name.toList.head? = some '[' then ofDescriptor name
  else match BaseType.ofName? name with
    | some b => .ok (base b)
    | none => if name.isEmpty || name.toList.contains ';' then .error ⟨name⟩ else .ok (object name)

end FieldType

end ClassLattice
