import ClassLattice.FieldType.Parser
import ClassLattice.Hierarchy.Flatten
import ClassLattice.Hierarchy.Subtype

/-!
# What two types have in common

The most specific type to which values of both of two types can be assigned.  If one of the types
descends from the other it is that other.  Two arrays of references have in common the array of
what their elements have in common.  Any other two types have in common the first ancestor of the
first, in rank order, that the second has too.  Answers are kept by unordered pair; failures are
not kept.
-/

set_option autoImplicit false

namespace ClassLattice

/-- The descriptor of an array whose element has a given name. -/
def arrayDescriptor (element : String) : String :=
  if element.toList.head? = some '[' then "[" ++ element else "[L" ++ element ++ ";"

/-- The first of some names that occurs among others too. -/
def firstShared (names others : List String) : Option String := names.find? others.contains

namespace Query

/-- The answer that is kept for a pair. -/
def knownAnswer (first second : String) : Query (Option String) :=
  return (← get).caches.answers.answer? first second

/-- Keeps an answer for a pair unless there is one, and returns the one that is kept. -/
def keepAnswer (first second answer : String) : Query String := fun workspace =>
  let (kept, answers) := workspace.caches.answers.settle first second answer
  .ok kept { workspace with caches := { workspace.caches with answers } }

/-- The element of an array of references. -/
def referenceElement (id : NodeId) : Query (Option NodeId) := do
  match (← node id).element? with
  | none => return none
  | some element => if (← node element).isPrimitive then return none else return some element

/-- The first ancestor of a type, in rank order, that another type has too. -/
def sharedAncestor (reader : Reader) (limit : Nat) (a b : NodeId) : Query String := do
  let above ← (← flatten reader limit a).mapM nameOf
  let aboveOther ← (← flatten reader limit b).mapM nameOf
  return (firstShared above aboveOther).getD rootName

/-- What two types have in common, given how to find that for the elements of two arrays. -/
def meet (reader : Reader) (limit : Nat) (ofElements : String → String → Query String)
    (a b : NodeId) : Query String := do
  if ← isSubclassOf reader limit a b then nameOf b
  else if ← isSubclassOf reader limit b a then nameOf a
  else
    match ← referenceElement a, ← referenceElement b with
    | some x, some y => return arrayDescriptor (← ofElements (← nameOf x) (← nameOf y))
    | _, _ => sharedAncestor reader limit a b

/-- What two types have in common, by name.  `limit` bounds the depth of walks, and the last number
how many array layers may be taken off. -/
def common (reader : Reader) (limit : Nat) : Nat → (first second : String) → Query String
  | 0, first, _ => throw (.tooDeep first)
  | layers + 1, first, second => do
    if let some answer ← knownAnswer first second then return answer
    let a ← typeNode reader first
    holding a do
      let b ← typeNode reader second
      holding b do
        keepAnswer first second (← meet reader limit (common reader limit layers) a b)

/-- The most specific type to which values of both types can be assigned. -/
def commonSuperclass (reader : Reader) (first second : String) : Query String := do
  let limit := (← get).walkLimit reader.extent [first, second]
  common reader limit limit first second

/-- Whether values of the first type can be assigned to the second. -/
def isSubclass (reader : Reader) (sub sup : String) : Query Bool :=
  return (← commonSuperclass reader sub sup) == sup

/-- Whether values of the second type can be assigned to the first. -/
def isSuperclass (reader : Reader) (sup sub : String) : Query Bool := isSubclass reader sub sup

/-- The most specific field type to which values of both field types can be assigned. -/
def commonSupertype (reader : Reader) (first second : FieldType) : Query FieldType := do
  let answer ← commonSuperclass reader first.internalName second.internalName
  match FieldType.ofInternalName answer with
  | .ok type => return type
  | .error _ => throw (.malformed answer .notFieldType)

end Query

end ClassLattice
