import ClassLattice.Proofs.Operation.Transparency
import ClassLattice.Proofs.PairMemo.FirstAnswer
import ClassLattice.Proofs.Query.Recalls

/-!
# The memo of answers

Once it was answered what two types have in common, the same question in either order is answered
from the memo alone, until the answers are cleared: no reader is asked and no node is touched,
whatever became of readers and nodes meanwhile.
-/

set_option autoImplicit false

namespace ClassLattice

namespace Query

open Workspace

variable {reader : Reader} {workspace : Workspace} {a b answer : String} {limit layers : Nat}

/-- An answer is kept when it is given out. -/
theorem common_keeps (reader : Reader) (limit layers : Nat) (a b : String)
    (workspace : Workspace) :
    (common reader limit layers a b).Yields workspace
      (fun answer after => after.caches.answers.answer? a b = some answer) fun _ _ => True := by
  have any {α : Type} (query : Query α) (workspace : Workspace) :
      query.Yields workspace (fun _ _ => True) fun _ _ => True := by
    unfold Yields
    split <;> trivial
  cases layers with
  | zero => exact Yields.throw trivial
  | succ layers =>
    unfold common
    refine Yields.knownAnswer_bind ?_
    cases known : workspace.caches.answers.answer? a b with
    | some answer => exact Yields.pure known
    | none =>
      refine (any _ workspace).bind (fun idA after _ => ?_) fun _ _ h => h
      refine Yields.holding ?_
      refine (any _ _).bind (fun idB last _ => ?_) fun _ _ h => h
      refine Yields.holding ?_
      refine (any _ _).bind (fun answer final _ => ?_) fun _ _ h => h
      exact PairMemo.answer?_settle

/-- What a question about two types is answered with is remembered. -/
theorem commonSuperclass_keeps (reader : Reader) (a b : String) (workspace : Workspace) :
    (commonSuperclass reader a b).Yields workspace
      (fun answer after => after.caches.answers.answer? a b = some answer) fun _ _ => True :=
  Yields.get_bind (common_keeps reader _ _ a b workspace)

/-- What is kept is given out, and the workspace stays as it is. -/
theorem common_of_answer? (reader : Reader) (limit layers : Nat)
    (known : workspace.caches.answers.answer? a b = some answer) :
    (common reader limit (layers + 1) a b).Yields workspace
      (fun found after => found = answer ∧ after = workspace) fun _ _ => False := by
  unfold common
  refine Yields.knownAnswer_bind ?_
  rw [known]
  exact Yields.pure ⟨rfl, rfl⟩

/-- **What is kept is answered at once.** -/
theorem commonSuperclass_of_answer? (reader : Reader)
    (known : workspace.caches.answers.answer? a b = some answer) :
    commonSuperclass reader a b workspace = .ok answer workspace := by
  obtain ⟨layers, positive⟩ : ∃ layers, workspace.walkLimit reader.extent [a, b] = layers + 1 := by
    refine Nat.exists_eq_add_one.2 ?_
    unfold walkLimit
    exact Nat.mul_pos (by omega) (by omega)
  have hit := common_of_answer? reader (layers + 1) layers known
  rw [← positive] at hit
  have ended : (commonSuperclass reader a b).Yields workspace
      (fun found after => found = answer ∧ after = workspace) fun _ _ => False :=
    Yields.get_bind hit
  obtain ⟨found, after, ran, rfl, rfl⟩ := ended.exists_ok
  exact ran

end Query

namespace Operation

open Workspace

/-- An answered question leaves its answer in the memo. -/
theorem answer?_of_perform {reader : Reader} {workspace : Workspace} {a b answer : String}
    (answered : ((commonSuperclass a b).perform reader workspace).1 = .text answer) :
    ((commonSuperclass a b).perform reader workspace).2.caches.answers.answer? a b =
      some answer := by
  revert answered
  refine perform_of_yields (fun given after => given = .text answer →
    after.caches.answers.answer? a b = some answer) ?_
  refine (Query.commonSuperclass_keeps reader a b workspace).bind (fun found after kept => ?_)
    fun _ _ _ same => nomatch same
  refine Query.Yields.pure fun same => ?_
  cases same
  exact kept

/-- **The memo is a map on unordered pairs in which the first answer stays.**  It replies to any
steps as the log of what was given to it; its keys are the same if and only if they are so as
unordered pairs, and then they have one hash whatever the names are hashed to; and an answer that
was given out once is given out for either order, from the memo alone, until the answers are
cleared. -/
theorem answers_once :
    (∀ steps, PairMemo.replies PairMemo.step Table.empty steps =
      PairMemo.replies AnswerLog.step [] steps) ∧
    Equivalence (fun p q : PairKey => (p == q) = true) ∧
    (∀ p q : PairKey, (p == q) = true → ∀ hashName, p.hashWith hashName = q.hashWith hashName) ∧
    ∀ (reader : Reader) (before : Workspace) (a b answer : String),
      ((commonSuperclass a b).perform reader before).1 = .text answer →
      ∀ further : List (Reader × Operation), (∀ step ∈ further, step.2 ≠ .clearAnswers) →
        let later := (((commonSuperclass a b).perform reader before).2.run further).2
        ∀ (server : Reader) (p q : String), s(p, q) = s(a, b) →
          (commonSuperclass p q).perform server later = (.text answer, later) := by
  refine ⟨PairMemo.Keeps.empty.replies, PairKey.beq_equivalence, ?_, ?_⟩
  · intro p q same hashName
    exact PairKey.hashWith_eq (PairKey.beq_iff_pair.1 same) hashName
  · intro reader before a b answer answered further uncleared later server p q same
    have kept : later.caches.answers.answer? a b = some answer :=
      recalls_run uncleared _ a b answer (answer?_of_perform answered)
    have known : later.caches.answers.answer? p q = some answer := by
      rcases Sym2.eq_iff.1 same with ⟨rfl, rfl⟩ | ⟨rfl, rfl⟩
      · exact kept
      · exact PairMemo.answer?_comm.trans kept
    have ran : (commonSuperclass p q).query server later = .ok (.text answer) later :=
      Query.bind_of_ok (Query.commonSuperclass_of_answer? server known)
    unfold perform
    rw [ran]

/-- What two classes have in common is asked of a reader; then another one that knows no type drops
the retained nodes and asks for a third type, and asks the first question in the other order. -/
theorem answers_once_crossing :
    ∃ answer,
      ((commonSuperclass "demo/A" "demo/B").perform Universe.crossingTypes.reader
        (create 2 .empty)).1 = .text answer ∧
      let silent := MetadataMap.reader Table.empty
      let further := [(silent, releaseRetained), (silent, commonSuperclass "demo/A" "demo/C")]
      (∀ step ∈ further, step.2 ≠ .clearAnswers) ∧
      let later := (((commonSuperclass "demo/A" "demo/B").perform Universe.crossingTypes.reader
        (create 2 .empty)).2.run further).2
      s("demo/B", "demo/A") = s("demo/A", "demo/B") ∧
      (commonSuperclass "demo/B" "demo/A").perform silent later = (.text answer, later) := by
  obtain ⟨answer, answered⟩ := perform_commonSuperclass Universe.lawful_crossing
    Universe.within_crossing Universe.serves_crossing
    (MetadataMap.bounded Universe.crossingTypes) (Valid.create 2 Universe.crossing)
    (show Universe.crossing.resolves "demo/A" = true by decide)
    (show Universe.crossing.resolves "demo/B" = true by decide)
  have swapped : s("demo/B", "demo/A") = s("demo/A", "demo/B") := Sym2.eq_swap
  refine ⟨answer, answered, by decide, swapped, ?_⟩
  exact answers_once.2.2.2 _ _ _ _ answer answered _ (by decide) _ _ _ swapped

end Operation

end ClassLattice
