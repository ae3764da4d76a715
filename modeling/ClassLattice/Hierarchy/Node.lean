import ClassLattice.FieldType.Base
import ClassLattice.Hierarchy.Metadata
import ClassLattice.Hierarchy.Reader

/-!
# Nodes of the type graph

A node stands for one type.  The edges of a class or interface are names at first; when an edge is
first needed the named types are looked up, and from then on it leads to their nodes.  Nodes refer
to one another by identity, so that it can be said which of them are in use.
-/

set_option autoImplicit false

namespace ClassLattice

/-- The identity of a node.  No two nodes ever get the same one. -/
structure NodeId where
  index : Nat
  deriving DecidableEq

/-- An edge or a list of edges: by name until it is needed, and by node from then on. -/
inductive Link (ν τ : Type) where
  | pending (names : ν)
  | resolved (names : ν) (targets : τ)
  deriving DecidableEq

namespace Link

variable {ν τ : Type}

/-- The names that the link was declared with. -/
def names : Link ν τ → ν
  | pending names => names
  | resolved names _ => names

/-- The nodes that the link leads to, once they are known. -/
def targets? : Link ν τ → Option τ
  | pending _ => none
  | resolved _ targets => some targets

/-- Whether the nodes are known. -/
def isResolved (link : Link ν τ) : Bool := link.targets?.isSome

/-- The link leading to given nodes, unless it leads to nodes already. -/
def resolve (link : Link ν τ) (targets : τ) : Link ν τ :=
  match link with
  | pending names => resolved names targets
  | resolved names old => resolved names old

end Link

/-- The declared supertypes of a class or interface. -/
structure Supertypes where
  isInterface : Bool
  /-- The edge to the superclass, if one was declared. -/
  superclass : Option (Link String NodeId)
  /-- The edges to the interfaces, in the order of declaration. -/
  interfaces : Link (List String) (List NodeId)
  deriving DecidableEq

namespace Supertypes

/-- The supertypes as declared, none looked up yet.  An empty list of interfaces needs no
look-up. -/
def declare (isInterface : Bool) (superName : Option String) (interfaceNames : List String) :
    Supertypes where
  isInterface := isInterface
  superclass := superName.map .pending
  interfaces := if interfaceNames.isEmpty then .resolved [] [] else .pending interfaceNames

/-- The nodes that the edges lead to, as far as they are known. -/
def targets (supertypes : Supertypes) : List NodeId :=
  (supertypes.superclass.bind Link.targets?).toList
    ++ supertypes.interfaces.targets?.getD []

/-- The names that the edges were declared with. -/
def names (supertypes : Supertypes) : List String :=
  (supertypes.superclass.map Link.names).toList ++ supertypes.interfaces.names

end Supertypes

/-- The kinds of type that a node may stand for. -/
inductive NodeKind where
  /-- The root class. -/
  | root
  | primitive (base : BaseType)
  | array (element : NodeId)
  /-- A class or interface whose metadata were read. -/
  | declared (supertypes : Supertypes)
  /-- A registered marker interface. -/
  | special (supertypes : Supertypes)
  deriving DecidableEq

/-- A type in the graph. -/
structure Node where
  name : String
  kind : NodeKind
  deriving DecidableEq

namespace Node

/-- The node of the root class. -/
def ofRoot : Node := ⟨rootName, .root⟩

/-- The node of a primitive type. -/
def ofPrimitive (base : BaseType) : Node := ⟨base.name, .primitive base⟩

/-- The node of an array, which refers to the node of its element. -/
def ofArray (descriptor : String) (element : NodeId) : Node := ⟨descriptor, .array element⟩

/-- The node of a type that was read, under the name that was asked for. -/
def ofMetadata (name : String) (metadata : TypeMetadata) : Node :=
  ⟨name, .declared (.declare metadata.isInterface metadata.superName metadata.interfaceNames)⟩

/-- The node of a marker, which is an interface without a superclass. -/
def ofSpecial (name : String) (interfaces : List String) : Node :=
  ⟨name, .special (.declare true none interfaces)⟩

/-- The edges of a node, if it has any. -/
def supertypes? (node : Node) : Option Supertypes :=
  match node.kind with
  | .declared supertypes | .special supertypes => some supertypes
  | .root | .primitive _ | .array _ => none

/-- The element of an array. -/
def element? (node : Node) : Option NodeId :=
  match node.kind with
  | .array element => some element
  | _ => none

/-- Whether a node is that of an interface. -/
def isInterface (node : Node) : Bool :=
  match node.kind with
  | .declared supertypes => supertypes.isInterface
  | .special _ => true
  | .root | .primitive _ | .array _ => false

/-- Whether a node is that of a primitive type. -/
def isPrimitive (node : Node) : Bool :=
  match node.kind with
  | .primitive _ => true
  | _ => false

/-- Whether the superclass is known or there is none to look up. -/
def isSuperclassResolved (node : Node) : Bool :=
  match node.supertypes?.bind Supertypes.superclass with
  | some link => link.isResolved
  | none => true

/-- Whether the interfaces are known or there are none to look up. -/
def areInterfacesResolved (node : Node) : Bool :=
  match node.supertypes? with
  | some supertypes => supertypes.interfaces.isResolved
  | none => true

/-- All nodes that a node refers to. -/
def references (node : Node) : List NodeId :=
  match node.kind with
  | .root | .primitive _ => []
  | .array element => [element]
  | .declared supertypes | .special supertypes => supertypes.targets

/-- How much the names on a node count towards an extent. -/
def extent (node : Node) : Nat :=
  nameWeight node.name + namesWeight ((node.supertypes?.map Supertypes.names).getD [])

/-- A node with its supertypes changed. -/
def mapSupertypes (node : Node) (change : Supertypes → Supertypes) : Node :=
  match node.kind with
  | .declared supertypes => { node with kind := .declared (change supertypes) }
  | .special supertypes => { node with kind := .special (change supertypes) }
  | .root | .primitive _ | .array _ => node

/-- A node once its superclass is resolved. -/
def resolveSuperclass (node : Node) (target : NodeId) : Node :=
  node.mapSupertypes fun supertypes =>
    { supertypes with superclass := supertypes.superclass.map (·.resolve target) }

/-- A node once its interfaces are resolved. -/
def resolveInterfaces (node : Node) (targets : List NodeId) : Node :=
  node.mapSupertypes fun supertypes =>
    { supertypes with interfaces := supertypes.interfaces.resolve targets }

/-- Whether a pending edge of the node already names a type.  An interface can only be named among
the interfaces, and a class only as the superclass. -/
def namesDirectly (node base : Node) : Bool :=
  match node.supertypes? with
  | none => false
  | some supertypes =>
    if base.isInterface then
      match supertypes.interfaces with
      | .pending names => names.contains base.name
      | .resolved _ _ => false
    else
      match supertypes.superclass with
      | some (.pending name) => name == base.name
      | _ => false

/-- The kind of the type in one word. -/
def kindLabel (node : Node) : String :=
  match node.kind with
  | .root => "object"
  | .primitive _ => "primitive"
  | .array _ => "array"
  | .declared supertypes => if supertypes.isInterface then "interface" else "class"
  | .special _ => "special-interface"

end Node

end ClassLattice
