import ClassLattice.Hierarchy.Lookup

/-!
# All ancestors of a type in order

The ancestors of a type as one list, the most specific first: the chain of superclasses, then all
interfaces in rank order, then the root.  An interface ranks the higher the more ordinary
interfaces its unfolding holds, itself included; of equally strong ones the one that is met at the
least depth comes first, and of these the one with the least name.  Marker interfaces add nothing
of their own to a strength, so they rank below what is specific to the types.
-/

set_option autoImplicit false

namespace ClassLattice

/-- The greatest strength that is told apart. -/
def greatestStrength : Nat := 0xFFFFFFFF

/-- What a type adds to the strength of an interface by itself: an ordinary interface counts one, a
marker nothing. -/
def Node.ownStrength (node : Node) : Nat :=
  match node.kind with
  | .declared supertypes => if supertypes.isInterface then 1 else 0
  | .root | .primitive _ | .array _ | .special _ => 0

/-- The strength of two parts together. -/
def addStrength (a b : Nat) : Nat := min (a + b) greatestStrength

/-- An interface among the ancestors with what its rank depends on. -/
structure RankedInterface where
  node : NodeId
  name : String
  strength : Nat
  /-- How deep the walk was when it first met the interface. -/
  depth : Nat
  deriving DecidableEq

namespace RankedInterface

/-- Whether an interface ranks before another or level with it. -/
def ranksBefore (a b : RankedInterface) : Bool :=
  if a.strength ≠ b.strength then b.strength < a.strength
  else if a.depth ≠ b.depth then a.depth < b.depth
  else a.name ≤ b.name

end RankedInterface

/-- The ancestors met so far, each list with the latest first. -/
structure Ancestors where
  classes : List NodeId := []
  interfaces : List RankedInterface := []

namespace Ancestors

/-- Adds a class to the chain. -/
def addClass (ancestors : Ancestors) (id : NodeId) : Ancestors :=
  { ancestors with classes := id :: ancestors.classes }

/-- Adds an interface unless one of its name was met before. -/
def addInterface (ancestors : Ancestors) (ranked : RankedInterface) : Ancestors :=
  if ancestors.interfaces.any (·.name == ranked.name) then ancestors
  else { ancestors with interfaces := ranked :: ancestors.interfaces }

/-- The chain of classes, then the interfaces in rank order. -/
def toList (ancestors : Ancestors) : List NodeId :=
  ancestors.classes.reverse
    ++ (ancestors.interfaces.reverse.mergeSort RankedInterface.ranksBefore).map (·.node)

end Ancestors

namespace Query

/-- Adds a type and its ancestors to those met so far, the superclass first and then the interfaces
from the last to the first, and returns the strength of the type.  The first number bounds how deep
the walk may go, `path` holds the names of the types it is in the middle of, `onChain` says whether
it has followed superclasses only, and `depth` counts the steps from where it began. -/
def collect (reader : Reader) :
    Nat → (path : List String) → (onChain : Bool) → (depth : Nat) → NodeId → Ancestors →
      Query (Nat × Ancestors)
  | 0, _, _, _, id, _ => do throw (.tooDeep (← nameOf id))
  | limit + 1, path, onChain, depth, id, ancestors => do
    let this ← node id
    match this.kind with
    | .root | .primitive _ | .array _ => return (0, ancestors)
    | .declared _ | .special _ =>
      if path.contains this.name then throw (.cyclic this.name)
      let path := this.name :: path
      let withSelf := if onChain && !this.isInterface then ancestors.addClass id else ancestors
      let withChain ←
        match ← superclass reader id with
        | some parent =>
          Prod.snd <$> collect reader limit path onChain (depth + 1) parent withSelf
        | none => pure withSelf
      let (strength, withAll) ←
        (← interfaces reader id).reverse.foldlM (fun (strength, met) parent => do
          let (more, met) ← collect reader limit path false (depth + 1) parent met
          return (addStrength strength more, met)) (this.ownStrength, withChain)
      if this.isInterface then
        return (strength, withAll.addInterface ⟨id, this.name, strength, depth⟩)
      else return (0, withAll)

/-- All ancestors of a type, the type itself included, in order.  The root may occur twice. -/
def flatten (reader : Reader) (limit : Nat) (id : NodeId) : Query (List NodeId) := do
  let root := (← get).store.root
  match (← node id).kind with
  | .root | .primitive _ => return [id]
  | .array _ => return [id, root]
  | .declared _ | .special _ =>
    let (_, ancestors) ← collect reader limit [] true 0 id {}
    return ancestors.toList ++ [root]

end Query

end ClassLattice
