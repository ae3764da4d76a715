import ClassLattice.Hierarchy.Error
import ClassLattice.Hierarchy.Workspace

/-!
# Queries

A query works on a workspace and ends with an answer or a failure.  What it has done to the
workspace stays in either case.
-/

set_option autoImplicit false

namespace ClassLattice

/-- A computation on a workspace that may fail. -/
abbrev Query (α : Type) : Type := EStateM HierarchyError Workspace α

namespace Query

variable {α : Type}

/-- The answer or failure of a query, with the workspace after it. -/
def answer (query : Query α) (workspace : Workspace) : Except HierarchyError α × Workspace :=
  match query workspace with
  | .ok value workspace => (.ok value, workspace)
  | .error error workspace => (.error error, workspace)

/-- The node of a number. -/
def node (id : NodeId) : Query Node := fun workspace => .ok (workspace.heap.node id) workspace

/-- The name of a node. -/
def nameOf (id : NodeId) : Query String := return (← node id).name

/-- Looks a name up among the nodes that there are. -/
def cached (name : String) : Query (Option NodeId) := fun workspace =>
  let (found, workspace) := workspace.cached name
  .ok found workspace

/-- Puts a new node in, unless its name has a node in use, which it gives then. -/
def insert (node : Node) : Query NodeId := fun workspace =>
  let (id, workspace) := workspace.insert node
  .ok id workspace

/-- Changes a node in place. -/
def modifyNode (id : NodeId) (change : Node → Node) : Query Unit := fun workspace =>
  .ok () { workspace with heap := workspace.heap.modify id change }

/-- Runs a query while a reference to a node is held. -/
def holding (id : NodeId) (query : Query α) : Query α := fun workspace =>
  match query (workspace.hold id) with
  | .ok value workspace => .ok value (workspace.letGo id)
  | .error error workspace => .error error (workspace.letGo id)

/-- Asks a reader for the metadata of a type and notes the name in the logs. -/
def readMetadata (reader : Reader) (name : String) : Query TypeMetadata := fun workspace =>
  let workspace := workspace.noteRead name
  match reader.read name with
  | .ok metadata => .ok metadata workspace
  | .error error => .error error workspace

end Query

end ClassLattice
