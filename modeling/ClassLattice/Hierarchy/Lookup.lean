import ClassLattice.Hierarchy.Query

/-!
# Finding the node of a name

A name is empty, begins with `[` and is then the descriptor of an array, or names a class or
interface.  Its node is taken from the caches if it is there.  Otherwise the node of an array is
made around the node of its element, and the metadata of a class or interface are read.  A failure
leaves no node behind for the name that failed.
-/

set_option autoImplicit false

namespace ClassLattice.Query

/-- The node of a class or interface. -/
def classNode (reader : Reader) (name : String) : Query NodeId := do
  match ← cached name with
  | some id => return id
  | none =>
    let metadata ← readMetadata reader name
    insert (Node.ofMetadata name metadata)

/-- The name between `L` and `;` in the descriptor of an array of objects, given what follows the
`L`. -/
def objectElement (chars : List Char) : Except Malformation String :=
  if chars.getLast? = some ';' then
    let name := chars.dropLast
    if name.isEmpty || name.contains ';' || name.head? = some '[' then .error .invalidObject
    else .ok (String.ofList name)
  else .error .unterminatedObject

/-- The node of a type, its name given by characters. -/
def nodeOfChars (reader : Reader) (chars : List Char) : Query NodeId := do
  let name := String.ofList chars
  match ← cached name with
  | some id => return id
  | none =>
    match chars with
    | [] => throw (.malformed name .emptyName)
    | '[' :: [] => throw (.malformed name .missingElement)
    | '[' :: '[' :: rest =>
      let element ← nodeOfChars reader ('[' :: rest)
      insert (Node.ofArray name element)
    | '[' :: 'L' :: rest =>
      match objectElement rest with
      | .error reason => throw (.malformed name reason)
      | .ok elementName =>
        let element ← classNode reader elementName
        insert (Node.ofArray name element)
    | ['[', code] =>
      match BaseType.ofCode? code with
      | none => throw (.malformed name .unknownElement)
      | some base =>
        let element := (← get).store.primitive base
        insert (Node.ofArray name element)
    | '[' :: _ => throw (.malformed name .unknownElement)
    | _ =>
      let metadata ← readMetadata reader name
      insert (Node.ofMetadata name metadata)

/-- The node of a type. -/
def typeNode (reader : Reader) (name : String) : Query NodeId := nodeOfChars reader name.toList

/-- Looks up types one after the other and runs a query on their nodes, each of which is held from
its look-up until the query has ended. -/
def holdingTypes {α : Type} (reader : Reader) (names : List String)
    (query : List NodeId → Query α) : Query α :=
  match names with
  | [] => query []
  | name :: rest => do
    let id ← typeNode reader name
    holding id (holdingTypes reader rest fun ids => query (id :: ids))

/-- The superclass of a type, looked up if it was not known. -/
def superclass (reader : Reader) (id : NodeId) : Query (Option NodeId) := do
  match (← node id).kind with
  | .root | .primitive _ => return none
  | .array _ => return some (← get).store.root
  | .declared supertypes | .special supertypes =>
    match supertypes.superclass with
    | none => return none
    | some (.resolved _ target) => return some target
    | some (.pending name) =>
      let target ← typeNode reader name
      modifyNode id (·.resolveSuperclass target)
      return some target

/-- The interfaces of a type, looked up if they were not known: all of them, or none if one
fails. -/
def interfaces (reader : Reader) (id : NodeId) : Query (List NodeId) := do
  match (← node id).kind with
  | .root | .primitive _ | .array _ => return []
  | .declared supertypes | .special supertypes =>
    match supertypes.interfaces with
    | .resolved _ targets => return targets
    | .pending names =>
      holdingTypes reader names fun targets => do
        modifyNode id (·.resolveInterfaces targets)
        return targets

end ClassLattice.Query
