import ClassLattice.Hierarchy.PairMemo
import ClassLattice.Proofs.Table

/-!
# What a memo keeps

A memo answers a pair in either order, and the first answer that it is given for a pair stays.
-/

set_option autoImplicit false

namespace ClassLattice

namespace PairKey

/-- Two pairs are the same in one order or the other. -/
theorem beq_iff {p q a b : String} :
    ((⟨p, q⟩ : PairKey) == ⟨a, b⟩) = true ↔ p = a ∧ q = b ∨ p = b ∧ q = a := by
  show same ⟨p, q⟩ ⟨a, b⟩ = true ↔ _
  simp [same]

end PairKey

namespace PairMemo

variable {memo : PairMemo} {a b p q answer found : String}

/-- The order of a pair makes no difference to its answer. -/
theorem answer?_comm : memo.answer? a b = memo.answer? b a := by
  unfold answer? Table.get?
  congr 2
  funext entry
  obtain ⟨⟨p, q⟩, value⟩ := entry
  rw [Bool.eq_iff_iff, PairKey.beq_iff, PairKey.beq_iff]
  exact Or.comm

/-- What is remembered is an answer from before or the new one. -/
theorem answer?_remember :
    (memo.remember a b answer).answer? p q =
      (memo.answer? p q).or
        (if (⟨a, b⟩ : PairKey) == ⟨p, q⟩ then
          if memo.contains ⟨a, b⟩ then none else some answer
        else none) := by
  unfold remember Table.insertIfNew
  by_cases known : memo.contains ⟨a, b⟩ = true
  · rw [if_pos known, if_pos known, ite_self, Option.or_none]
  · rw [if_neg known, if_neg known]
    unfold answer? Table.get?
    rw [List.find?_append, Option.map_or]
    congr 1
    rw [List.find?_singleton]
    split <;> rfl

/-- **A pair that has an answer keeps it**, whatever is settled afterwards. -/
theorem answer?_settle_of_answer? (h : memo.answer? p q = some found) :
    (memo.settle a b answer).2.answer? p q = some found := by
  show (memo.remember a b answer).answer? p q = some found
  rw [answer?_remember, h, Option.some_or]

/-- The answer that is given out is the one that is kept. -/
theorem answer?_settle :
    (memo.settle a b answer).2.answer? a b = some (memo.settle a b answer).1 := by
  show (memo.remember a b answer).answer? a b =
    some (((memo.remember a b answer).answer? a b).getD answer)
  cases h : (memo.remember a b answer).answer? a b with
  | some found => rfl
  | none =>
    exfalso
    rw [answer?_remember, if_pos (PairKey.beq_iff.2 (.inl ⟨rfl, rfl⟩))] at h
    split at h
    · rename_i known
      obtain ⟨value, found⟩ := Table.contains_iff_get?.1 known
      rw [answer?, found] at h
      cases h
    · cases kept : memo.answer? a b <;> simp [kept] at h

/-- An answer that was not there before is the one that was given for the pair. -/
theorem of_answer?_settle (h : (memo.settle a b answer).2.answer? p q = some found) :
    memo.answer? p q = some found ∨ (p = a ∧ q = b ∨ p = b ∧ q = a) ∧ found = answer := by
  have h : (memo.remember a b answer).answer? p q = some found := h
  rw [answer?_remember] at h
  cases kept : memo.answer? p q with
  | some value =>
    rw [kept, Option.some_or] at h
    exact .inl h
  | none =>
    rw [kept, Option.none_or] at h
    split_ifs at h with same known
    refine .inr ⟨?_, (Option.some.inj h).symm⟩
    rcases PairKey.beq_iff.1 same with ⟨rfl, rfl⟩ | ⟨rfl, rfl⟩
    · exact .inl ⟨rfl, rfl⟩
    · exact .inr ⟨rfl, rfl⟩

/-- The first answer for a pair is the one that is given out. -/
theorem settle_fst_of_new (new : memo.answer? a b = none) :
    (memo.settle a b answer).1 = answer := by
  have given : (memo.settle a b answer).2.answer? a b = some (memo.settle a b answer).1 :=
    answer?_settle
  rcases of_answer?_settle given with before | ⟨-, same⟩
  · exact nomatch new.symm.trans before
  · exact same

end PairMemo

end ClassLattice
