import ClassLattice.Hierarchy.Common

/-!
# Operations on a hierarchy

What can be asked of a hierarchy and done to it, each as one operation with one answer: questions
about types by name, questions about the node of a type, keeping nodes in slots, and looking at or
emptying the caches.  An operation that works on a node holds it until it has ended.
-/

set_option autoImplicit false

namespace ClassLattice

/-- What a node shows of itself. -/
structure NodeView where
  name : String
  /-- One word for the kind, in which classes and interfaces are not told apart. -/
  kind : String
  base : Option BaseType
  isInterface : Bool
  isPrimitive : Bool
  /-- The name of the element of an array. -/
  element : Option String
  isSuperclassResolved : Bool
  areInterfacesResolved : Bool
  deriving DecidableEq

/-- The sizes of the caches. -/
structure Statistics where
  answers : Nat
  pinned : Nat
  live : Nat
  retained : Nat
  deriving DecidableEq

namespace Statistics

/-- One line about the hierarchy. -/
def hierarchyText (statistics : Statistics) : String :=
  "ClassHierarchy \x7b cached_lookups: " ++ toString statistics.answers ++ ", retained_nodes: "
    ++ toString statistics.retained ++ ", .. \x7d"

/-- One line about the store. -/
def storeText (statistics : Statistics) : String :=
  "TypeNodeStore \x7b pinned: " ++ toString statistics.pinned ++ ", live: "
    ++ toString statistics.live ++ ", retained: " ++ toString statistics.retained ++ " \x7d"

end Statistics

/-- How the node for an operation is given. -/
inductive Target where
  | named (name : String)
  | kept (slot : String)
  deriving DecidableEq

/-- What can be asked of a workspace or done to it. -/
inductive Operation where
  /-- What two types have in common. -/
  | commonSuperclass (first second : String)
  | isSubclass (sub sup : String)
  | isSuperclass (sup sub : String)
  /-- What two field types have in common. -/
  | commonSupertype (first second : FieldType)
  | inspect (target : Target)
  | superclass (target : Target)
  | interfaces (target : Target)
  | flatten (target : Target)
  | describe (target : Target)
  /-- Whether the first node is the second or descends from it. -/
  | descends (self base : Target)
  /-- Whether two nodes are one instance, and whether they are of one name. -/
  | compare (first second : Target)
  | keep (slot name : String)
  | drop (slot : String)
  /-- The node of a name without asking the reader. -/
  | cached (name : String)
  | isPinned (name : String)
  | primitive (base : BaseType)
  | root
  | releaseRetained
  | retainedCount
  | answerCount
  | knownAnswer (first second : String)
  | clearAnswers
  | statistics
  deriving DecidableEq

/-- What comes back from an operation. -/
inductive Answer where
  | nothing
  | failure (error : HierarchyError)
  | flag (value : Bool)
  | count (value : Nat)
  | text (value : String)
  | names (values : List String)
  | type (value : FieldType)
  | node (view : NodeView)
  | comparison (same equal : Bool)
  | statistics (value : Statistics)
  deriving DecidableEq

/-- One word for the kind of a node, in which classes and interfaces are not told apart. -/
def NodeKind.word : NodeKind → String
  | root => "object"
  | primitive _ => "primitive"
  | array _ => "array"
  | declared _ => "class"
  | special _ => "special"

namespace Workspace

/-- What a node shows of itself. -/
def view (workspace : Workspace) (id : NodeId) : NodeView :=
  let node := workspace.heap.node id
  { name := node.name
    kind := node.kind.word
    base := match node.kind with
      | .primitive base => some base
      | _ => none
    isInterface := node.isInterface
    isPrimitive := node.isPrimitive
    element := node.element?.map fun element => (workspace.heap.node element).name
    isSuperclassResolved := node.isSuperclassResolved
    areInterfacesResolved := node.areInterfacesResolved }

/-- The sizes of the tables of a workspace. -/
def sizes (workspace : Workspace) : Statistics :=
  { answers := workspace.caches.answers.size
    pinned := workspace.store.pinned.size
    live := workspace.store.live.size
    retained := workspace.store.recent.length }

end Workspace

/-- A node described in one line. -/
def Node.describe (node : Node) : String :=
  "TypeNode \x7b name: " ++ Text.quote node.name ++ ", kind: " ++ Text.quote node.kindLabel
    ++ " \x7d"

namespace Query

/-- Runs a query on a node while the node is held.  The answer for an empty slot is nothing. -/
def withTarget (reader : Reader) (target : Target) (query : NodeId → Query Answer) :
    Query Answer := do
  match target with
  | .named name =>
    let id ← typeNode reader name
    holding id (query id)
  | .kept slot =>
    match (← get).slots.get? slot with
    | some id => holding id (query id)
    | none => return .nothing

/-- The bound on walks that start from a node. -/
def nodeWalkLimit (reader : Reader) : Query Nat :=
  return (← get).walkLimit reader.extent []

/-- Shows a node without its edges. -/
def viewOf (id : NodeId) : Query Answer := return .node ((← get).view id)

end Query

namespace Operation

open Query

/-- An operation as a query that gives its answer. -/
def query (reader : Reader) : Operation → Query Answer
  | commonSuperclass first second => return .text (← Query.commonSuperclass reader first second)
  | isSubclass sub sup => return .flag (← Query.isSubclass reader sub sup)
  | isSuperclass sup sub => return .flag (← Query.isSuperclass reader sup sub)
  | commonSupertype first second => return .type (← Query.commonSupertype reader first second)
  | inspect target => withTarget reader target viewOf
  | superclass target => withTarget reader target fun id => do
    match ← Query.superclass reader id with
    | some parent => return .text (← nameOf parent)
    | none => return .nothing
  | interfaces target => withTarget reader target fun id => do
    return .names (← (← Query.interfaces reader id).mapM nameOf)
  | flatten target => withTarget reader target fun id => do
    return .names (← (← Query.flatten reader (← nodeWalkLimit reader) id).mapM nameOf)
  | describe target => withTarget reader target fun id => return .text (← node id).describe
  | descends self base => withTarget reader self fun a => withTarget reader base fun b => do
    return .flag (← isSubclassOf reader (← nodeWalkLimit reader) a b)
  | compare first second => withTarget reader first fun a => withTarget reader second fun b => do
    return .comparison (a == b) ((← nameOf a) == (← nameOf b))
  | keep slot name => do
    let id ← typeNode reader name
    modify (·.fillSlot slot id)
    viewOf id
  | drop slot => do
    let filled := (← get).slots.contains slot
    modify (·.clearSlot slot)
    return .flag filled
  | cached name => do
    match ← Query.cached name with
    | some id => viewOf id
    | none => return .nothing
  | isPinned name => return .flag ((← get).store.isPinned name)
  | primitive base => do viewOf ((← get).store.primitive base)
  | root => do viewOf (← get).store.root
  | releaseRetained => do
    modify Workspace.releaseRetained
    return .nothing
  | retainedCount => return .count (← get).sizes.retained
  | answerCount => return .count (← get).sizes.answers
  | knownAnswer first second => do
    match ← Query.knownAnswer first second with
    | some answer => return .text answer
    | none => return .nothing
  | clearAnswers => do
    modify Workspace.clearAnswers
    return .nothing
  | statistics => return .statistics (← get).sizes

/-- Carries out an operation.  A failure is an answer like any other. -/
def perform (operation : Operation) (reader : Reader) (workspace : Workspace) :
    Answer × Workspace :=
  match operation.query reader workspace with
  | .ok answer workspace => (answer, workspace)
  | .error error workspace => (.failure error, workspace)

end Operation

/-- Carries out operations one after the other, each with a reader of its own. -/
def Workspace.run (workspace : Workspace) : List (Reader × Operation) → List Answer × Workspace
  | [] => ([], workspace)
  | (reader, operation) :: rest =>
    let (answer, workspace) := operation.perform reader workspace
    let (answers, workspace) := workspace.run rest
    (answer :: answers, workspace)

end ClassLattice
