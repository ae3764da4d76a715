import ClassLattice.Proofs.PairMemo
import ClassLattice.Proofs.Universe.Meet
import ClassLattice.Proofs.Workspace.Faithful

/-!
# What a query does to a workspace

Besides looking up names a query may keep answers.  Keeping an answer changes no node, and no
answer that was kept is lost before the answers are cleared.
-/

set_option autoImplicit false

namespace ClassLattice.Workspace

variable {registry : Registry} {world : Universe} {reader : Reader} {scope : Scope}
  {old new workspace : Workspace} {id : NodeId} {a b answer : String}

/-- A workspace with an answer for a pair kept. -/
def keeping (workspace : Workspace) (first second answer : String) : Workspace :=
  { workspace with
    caches :=
      { workspace.caches with
        answers := (workspace.caches.answers.settle first second answer).2 } }

/-- One change that a query makes. -/
inductive Turn (registry : Registry) (reader : Reader) : Workspace → Workspace → Prop
  | look {old new : Workspace} (h : Move registry reader .everything old new) :
      Turn registry reader old new
  | keep (workspace : Workspace) (first second answer : String) :
      Turn registry reader workspace (workspace.keeping first second answer)

/-- The changes that a query makes. -/
abbrev Proceeds (registry : Registry) (reader : Reader) : Workspace → Workspace → Prop :=
  Evolves (Turn registry reader)

/-- Look-ups are turns. -/
theorem LooksUp.proceeds (h : LooksUp registry reader scope old new) :
    Proceeds registry reader old new :=
  h.mono fun _ _ move => .look (move.widen (Scope.within_everything scope))

/-- To keep an answer keeps a workspace coherent. -/
theorem Coherent.keeping (coherent : workspace.Coherent registry) (a b answer : String) :
    (workspace.keeping a b answer).Coherent registry := { coherent with }

namespace Proceeds

/-- Turns within a universe keep a workspace faithful. -/
theorem faithful (h : Proceeds world.registry reader old new) (within : reader.Within world)
    (faithful : old.Faithful world) : new.Faithful world := by
  induction h with
  | refl => exact faithful
  | trans _ _ first second => exact second (first faithful)
  | holding found _ ih =>
    have held := ih ⟨faithful.coherent.hold found, faithful.told⟩
    exact ⟨held.coherent.letGo, fun id node found =>
      held.told id node (Heap.get?_of_get?_reclaim found)⟩
  | move turn =>
    cases turn with
    | look move => exact LooksUp.faithful (.move move) within faithful
    | keep first second answer =>
      exact ⟨faithful.coherent.keeping first second answer, faithful.told⟩

/-- Turns keep the answers that there were. -/
theorem answer? (h : Proceeds registry reader old new)
    (kept : old.caches.answers.answer? a b = some answer) :
    new.caches.answers.answer? a b = some answer := by
  induction h with
  | refl => exact kept
  | trans _ _ first second => exact second (first kept)
  | holding _ _ ih => exact ih kept
  | move turn =>
    cases turn with
    | look move => cases move <;> exact kept
    | keep => exact PairMemo.answer?_settle_of_answer? kept

end Proceeds

/-- Look-ups leave the answers as they are. -/
theorem LooksUp.answers (h : LooksUp registry reader scope old new) :
    new.caches.answers = old.caches.answers := by
  induction h with
  | refl => rfl
  | trans _ _ first second => exact second.trans first
  | holding _ _ ih => exact ih
  | move move => cases move <;> rfl

/-- Every answer that is kept is what the pair has in common, in one order or the other. -/
def Sure (world : Universe) (workspace : Workspace) : Prop :=
  ∀ a b answer, workspace.caches.answers.answer? a b = some answer →
    world.Meets a b answer ∨ world.Meets b a answer

/-- Look-ups keep a workspace sure. -/
theorem Sure.looksUp (sure : old.Sure world) (h : LooksUp registry reader scope old new) :
    new.Sure world := fun a b answer kept => sure a b answer (h.answers ▸ kept)

/-- To keep a true answer keeps a workspace sure. -/
theorem Sure.keeping (sure : workspace.Sure world)
    (meets : world.Meets a b answer ∨ world.Meets b a answer) :
    (workspace.keeping a b answer).Sure world := by
  intro p q found kept
  rcases PairMemo.of_answer?_settle kept with before | ⟨⟨rfl, rfl⟩ | ⟨rfl, rfl⟩, rfl⟩
  · exact sure p q found before
  · exact meets
  · exact meets.symm

end ClassLattice.Workspace
