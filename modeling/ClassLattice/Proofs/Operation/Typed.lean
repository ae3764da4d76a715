import ClassLattice.Proofs.Operation.Answered
import ClassLattice.Proofs.Query.Orderly
import ClassLattice.Proofs.Universe.OfTypes

/-!
# Questions about field types

What two field types have in common is asked for by their internal names, and the answer is read
back as a field type.  A new workspace is orderly, and all operations with legible readers keep it
so.  Hence the answer for two legible types is always the name of a type, wherever it comes from,
and reading it back neither fails nor changes it.
-/

set_option autoImplicit false

namespace ClassLattice

/-! ## Everything that is done keeps a workspace orderly -/

namespace Query

open Workspace

variable {α : Type} {registry : Registry} {reader : Reader} {workspace : Workspace}
  {query : Query α}

/-- **What an operation is made of keeps a workspace orderly**, whether it is answered or fails. -/
theorem Acts.orderly (h : Acts reader query) (legible : reader.IsLegible)
    (orderly : workspace.Orderly registry) :
    query.Yields workspace (fun _ after => after.Orderly registry)
      fun _ after => after.Orderly registry := by
  refine h.keeps (fun _ orderly => orderly.coherent) (fun _ _ orderly => orderly.steps legible)
    (fun first second mid orderly => ?_) orderly
  exact (commonSuperclass_orderly legible first second mid orderly).imp (fun _ _ h => h.1)
    fun _ _ h => h

end Query

namespace Workspace

variable {registry : Registry} {reader : Reader} {workspace : Workspace}

/-- A new workspace is orderly. -/
theorem orderly_create (capacity : Nat) (legible : registry.IsLegible) :
    (create capacity registry).Orderly registry :=
  ⟨legible, coherent_create capacity registry, stemsFrom_create capacity registry _, nofun⟩

/-- **Every operation with a legible reader keeps a workspace orderly.** -/
theorem Orderly.perform (orderly : workspace.Orderly registry) (legible : reader.IsLegible)
    (operation : Operation) : (operation.perform reader workspace).2.Orderly registry := by
  by_cases clears : operation = .clearAnswers
  · subst clears
    have coherent := (Operation.steps_perform .clearAnswers reader orderly.coherent).coherent
      orderly.coherent
    exact ⟨orderly.legible, coherent, orderly.stems, nofun⟩
  · exact Operation.perform_of_yields (fun _ after => after.Orderly registry)
      ((Query.Acts.operation clears).orderly legible orderly)

/-- **Every run with legible readers keeps a workspace orderly.** -/
theorem Orderly.run (orderly : workspace.Orderly registry) (history : List (Reader × Operation))
    (legible : ∀ step ∈ history, step.1.IsLegible) :
    (workspace.run history).2.Orderly registry := by
  induction history generalizing workspace with
  | nil => exact orderly
  | cons step rest ih =>
    have first := orderly.perform (legible step List.mem_cons_self) step.2
    exact ih first fun later member => legible later (List.mem_cons_of_mem _ member)

end Workspace

/-! ## Reading the answer back -/

/-- The answer with a field type that goes with an answer by name: the same failure, or a type with
that name. -/
inductive Answer.Typed : Answer → Answer → Prop
  | failure (error : HierarchyError) : Typed (.failure error) (.failure error)
  | type (type : FieldType) : Typed (.text type.internalName) (.type type)

namespace Operation

open Workspace

/-- **The question about two field types is that about their names.**  Let a registry and readers
be given in which the supertypes of legible names are legible.  After any history with such readers,
what two legible field types have in common is answered as what their internal names have in common
is.  It fails exactly if that does, with the same error, and otherwise the answer is a field type
whose internal name is the one that is answered there; and the same workspace is left behind. -/
theorem commonSupertype_agrees (capacity : Nat) {registry : Registry}
    (marked : registry.IsLegible) (history : List (Reader × Operation))
    (told : ∀ step ∈ history, step.1.IsLegible) {reader : Reader} (legible : reader.IsLegible)
    {a b : FieldType} (legibleA : a.IsLegible) (legibleB : b.IsLegible) :
    let workspace := ((create capacity registry).run history).2
    let named := (commonSuperclass a.internalName b.internalName).perform reader workspace
    let typed := (commonSupertype a b).perform reader workspace
    named.1.Typed typed.1 ∧ typed.2 = named.2 := by
  intro workspace named typed
  have orderly : workspace.Orderly registry := (orderly_create capacity marked).run history told
  have finds := Query.commonSuperclass_orderly legible a.internalName b.internalName workspace
    orderly
  unfold Query.Yields at finds
  cases ran : Query.commonSuperclass reader a.internalName b.internalName workspace with
  | error error after =>
    have refused : (commonSuperclass a.internalName b.internalName).query reader workspace =
        .error error after := Query.bind_of_error ran
    have refusedTyped : (commonSupertype a b).query reader workspace = .error error after :=
      Query.bind_of_error (Query.bind_of_error ran)
    simp only [named, typed, perform, refused, refusedTyped, and_true]
    exact .failure error
  | ok answer after =>
    rw [ran] at finds
    obtain ⟨type, read⟩ := finds.2 (FieldType.isOrderly_internalName legibleA)
      (FieldType.isOrderly_internalName legibleB)
    have answered : (commonSuperclass a.internalName b.internalName).query reader workspace =
        .ok (.text answer) after := Query.bind_of_ok ran
    have readBack : Query.commonSupertype reader a b workspace = .ok type after := by
      unfold Query.commonSupertype
      rw [Query.bind_of_ok ran, read]
      rfl
    have answeredTyped : (commonSupertype a b).query reader workspace = .ok (.type type) after :=
      Query.bind_of_ok readBack
    simp only [named, typed, perform, answered, answeredTyped, and_true]
    rw [← FieldType.internalName_of_ofInternalName read]
    exact .type type

/-- What two classes have in common was asked for, and then it is asked for two arrays of them. -/
theorem commonSupertype_agrees_crossing :
    let reader := Universe.crossingTypes.reader
    let history := [(reader, commonSuperclass "demo/A" "demo/B")]
    let a : FieldType := .array (.object "demo/A")
    let b : FieldType := .array (.object "demo/B")
    let workspace := ((create 2 .empty).run history).2
    Registry.empty.IsLegible ∧ (∀ step ∈ history, step.1.IsLegible) ∧ a.IsLegible ∧ b.IsLegible ∧
      ∃ type : FieldType,
        ((commonSuperclass "[Ldemo/A;" "[Ldemo/B;").perform reader workspace).1 =
          .text type.internalName ∧
        ((commonSupertype a b).perform reader workspace).1 = .type type := by
  intro reader history a b workspace
  have marked : Registry.empty.IsLegible := ⟨nofun, nofun⟩
  have legible : reader.IsLegible := MetadataMap.isLegible_reader (by decide)
  have told : ∀ step ∈ history, step.1.IsLegible := List.forall_mem_singleton.2 legible
  have legibleA : a.IsLegible := FieldType.isLegible_object_iff.2 ⟨by decide, by decide⟩
  have legibleB : b.IsLegible := FieldType.isLegible_object_iff.2 ⟨by decide, by decide⟩
  have valid : workspace.Valid Universe.crossing :=
    (Valid.create 2 Universe.crossing).run (List.forall_mem_singleton.2 Universe.within_crossing)
  obtain ⟨answer, answered⟩ := perform_commonSuperclass Universe.lawful_crossing
    Universe.within_crossing Universe.serves_crossing
    (MetadataMap.bounded Universe.crossingTypes) valid
    (show Universe.crossing.resolves "[Ldemo/A;" = true by decide)
    (show Universe.crossing.resolves "[Ldemo/B;" = true by decide)
  obtain ⟨agrees, -⟩ := commonSupertype_agrees 2 marked history told legible legibleA legibleB
  have nameA : a.internalName = "[Ldemo/A;" := by decide
  have nameB : b.internalName = "[Ldemo/B;" := by decide
  rw [nameA, nameB, answered] at agrees
  generalize ((commonSupertype a b).perform reader workspace).1 = found at agrees ⊢
  cases agrees with
  | type type => exact ⟨marked, told, legibleA, legibleB, type, answered, rfl⟩

end Operation

end ClassLattice
