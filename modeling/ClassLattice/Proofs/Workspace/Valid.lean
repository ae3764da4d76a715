import ClassLattice.Hierarchy.Operation
import ClassLattice.Proofs.Workspace.Created

/-!
# Valid workspaces

A workspace is valid in a universe if it is faithful to it and all answers that it keeps are sure.
Whatever is asked of it or done to it keeps it valid, as long as every reader speaks within the
universe; readers may fail as they like.
-/

set_option autoImplicit false

namespace ClassLattice

/-- A value that is left when a key was taken out was there before. -/
theorem Table.mem_values_erase {κ ω : Type} [BEq κ] {table : Table κ ω} {key : κ} {value : ω}
    (h : value ∈ (table.erase key).values) : value ∈ table.values := by
  obtain ⟨entry, member, rfl⟩ := List.mem_map.1 h
  exact List.mem_map_of_mem (List.mem_of_mem_filter member)

namespace Workspace

variable {registry : Registry} {world : Universe} {workspace : Workspace} {id : NodeId}
  {node : Node}

/-- To fill a slot with a node in use keeps a workspace coherent. -/
theorem Coherent.fillSlot (coherent : workspace.Coherent registry) (slot : String)
    (found : workspace.heap.get? id = some node) :
    (workspace.fillSlot slot id).Coherent registry := by
  have filled : Coherent registry { workspace with slots := workspace.slots.insert slot id } :=
    { coherent with
      slots_alive := fun other member => by
        rcases Table.mem_values_insert member with rfl | before
        · exact ⟨node, found⟩
        · exact coherent.slots_alive other before }
  exact filled.reclaim _

/-- To clear a slot keeps a workspace coherent. -/
theorem Coherent.clearSlot (coherent : workspace.Coherent registry) (slot : String) :
    (workspace.clearSlot slot).Coherent registry := by
  have cleared : Coherent registry { workspace with slots := workspace.slots.erase slot } :=
    { coherent with
      slots_alive := fun other member => coherent.slots_alive other (Table.mem_values_erase member) }
  exact cleared.reclaim _

/-- To release what is retained keeps a workspace coherent. -/
theorem Coherent.releaseRetained (coherent : workspace.Coherent registry) :
    workspace.releaseRetained.Coherent registry := by
  have released : Coherent registry (workspace.setStore { workspace.store with recent := [] }) :=
    { coherent with
      recent_alive := fun _ member => (List.not_mem_nil member).elim
      recent_nodup := List.nodup_nil
      recent_length := Nat.zero_le _ }
  exact { (released.reclaim _).dropFreed with }

/-- A workspace that is faithful to a universe and keeps sure answers only. -/
structure Valid (world : Universe) (workspace : Workspace) : Prop where
  faithful : workspace.Faithful world
  sure : workspace.Sure world

namespace Valid

/-- A new workspace is valid. -/
theorem create (capacity : Nat) (world : Universe) :
    (Workspace.create capacity world.registry).Valid world :=
  ⟨faithful_create capacity world, sure_create capacity world⟩

/-- Look-ups within the universe keep a workspace valid. -/
theorem looksUp {reader : Reader} {scope : Scope} {new : Workspace}
    (valid : workspace.Valid world) (within : reader.Within world)
    (looks : LooksUp world.registry reader scope workspace new) : new.Valid world :=
  ⟨looks.faithful within valid.faithful, valid.sure.looksUp looks⟩

/-- Turns within the universe keep a workspace valid, if they keep it sure. -/
theorem proceeds {reader : Reader} {new : Workspace} (valid : workspace.Valid world)
    (within : reader.Within world) (proceeds : Proceeds world.registry reader workspace new)
    (sure : new.Sure world) : new.Valid world :=
  ⟨proceeds.faithful within valid.faithful, sure⟩

/-- To hold a node keeps a workspace valid. -/
theorem hold (valid : workspace.Valid world) (found : workspace.heap.get? id = some node) :
    (workspace.hold id).Valid world :=
  ⟨⟨valid.faithful.coherent.hold found, valid.faithful.told⟩, valid.sure⟩

/-- To let go of a node keeps a workspace valid. -/
theorem letGo (valid : workspace.Valid world) : (workspace.letGo id).Valid world :=
  ⟨⟨valid.faithful.coherent.letGo, fun other node found =>
    valid.faithful.told other node (Heap.get?_of_get?_reclaim found)⟩, valid.sure⟩

/-- To fill a slot with a node in use keeps a workspace valid. -/
theorem fillSlot (valid : workspace.Valid world) (slot : String)
    (found : workspace.heap.get? id = some node) : (workspace.fillSlot slot id).Valid world :=
  ⟨⟨valid.faithful.coherent.fillSlot slot found, fun other node here =>
    valid.faithful.told other node (Heap.get?_of_get?_reclaim here)⟩, valid.sure⟩

/-- To clear a slot keeps a workspace valid. -/
theorem clearSlot (valid : workspace.Valid world) (slot : String) :
    (workspace.clearSlot slot).Valid world :=
  ⟨⟨valid.faithful.coherent.clearSlot slot, fun other node here =>
    valid.faithful.told other node (Heap.get?_of_get?_reclaim here)⟩, valid.sure⟩

/-- To release what is retained keeps a workspace valid. -/
theorem releaseRetained (valid : workspace.Valid world) :
    workspace.releaseRetained.Valid world :=
  ⟨⟨valid.faithful.coherent.releaseRetained, fun other node here =>
    valid.faithful.told other node (Heap.get?_of_get?_reclaim here)⟩, valid.sure⟩

/-- To forget all answers keeps a workspace valid. -/
theorem clearAnswers (valid : workspace.Valid world) : workspace.clearAnswers.Valid world :=
  ⟨⟨{ valid.faithful.coherent with }, valid.faithful.told⟩, fun _ _ _ kept => nomatch kept⟩

end Valid

end Workspace

end ClassLattice
