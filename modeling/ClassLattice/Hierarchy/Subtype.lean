import ClassLattice.Hierarchy.Lookup

/-!
# The subtype test

Whether a type descends from another, by a walk up the superclasses and, where the other is an
interface, the interfaces.  Names on edges are compared before the edges are followed, so that a
direct subtype is recognised without any look-up.  The walk remembers the types it is in the middle
of and fails when it meets one of them again.
-/

set_option autoImplicit false

namespace ClassLattice.Query

/-- Whether a walk from `self` reaches `base`.  The first number bounds how deep the walk may go;
`path` holds the names of the types whose supertypes are being searched. -/
def reaches (reader : Reader) :
    Nat → (path : List String) → (self base : NodeId) → Query Bool
  | 0, _, self, _ => do throw (.tooDeep (← nameOf self))
  | depth + 1, path, self, base => do
    let this ← node self
    let that ← node base
    if this.name == that.name then return true
    match this.kind with
    | .root | .primitive _ => return false
    | .array element =>
      match that.kind with
      | .root => return true
      | .array baseElement => reaches reader depth path element baseElement
      | _ => return false
    | .declared _ | .special _ =>
      if this.namesDirectly that then return true
      if path.contains this.name then throw (.cyclic this.name)
      let path := this.name :: path
      if let some parent ← superclass reader self then
        if ← reaches reader depth path parent base then return true
      if that.isInterface then
        (← interfaces reader self).reverse.anyM fun parent =>
          reaches reader depth path parent base
      else return false

/-- Whether a type is the other or below it. -/
def isSubclassOf (reader : Reader) (limit : Nat) (self base : NodeId) : Query Bool :=
  reaches reader limit [] self base

end ClassLattice.Query
