import ClassLattice.Proofs.PairMemo
import Mathlib.Data.Finset.Card
import Mathlib.Data.Sym.Sym2

/-!
# The first answer for a pair

A log of all answers that were given since the last clearing, with the unordered pair that each was
given for, says what a memo has to reply: to a question the first answer in the log for the pair,
and to a count the number of distinct pairs in the log.  A memo need not keep the log to reply so.
-/

set_option autoImplicit false

namespace ClassLattice

namespace PairKey

/-- The names of a key, in no order. -/
def pair (key : PairKey) : Sym2 String := s(key.first, key.second)

/-- Keys are the same if they are so as unordered pairs. -/
theorem beq_iff_pair {p q : PairKey} : (p == q) = true ↔ p.pair = q.pair := by
  obtain ⟨a, b⟩ := p
  obtain ⟨c, d⟩ := q
  rw [beq_iff, pair, pair, Sym2.eq_iff]

/-- To be the same pair is an equivalence. -/
theorem beq_equivalence : Equivalence fun p q : PairKey => (p == q) = true := by
  simp only [beq_iff_pair]
  exact ⟨fun _ => rfl, Eq.symm, Eq.trans⟩

/-- The hash of a key depends on the unordered pair alone. -/
theorem hashWith_eq {p q : PairKey} (same : p.pair = q.pair) (hashName : String → UInt64) :
    p.hashWith hashName = q.hashWith hashName := by
  obtain ⟨a, b⟩ := p
  obtain ⟨c, d⟩ := q
  have sorted (x y : UInt64) : min x y * 37 + max x y = min y x * 37 + max y x := by
    rw [UInt64.min_def, UInt64.min_def, UInt64.max_def, UInt64.max_def]
    have total := UInt64.le_total x y
    have antisymm : x ≤ y → y ≤ x → x = y := UInt64.le_antisymm
    split_ifs <;> simp_all
  rcases Sym2.eq_iff.1 same with ⟨rfl, rfl⟩ | ⟨rfl, rfl⟩
  · rfl
  · exact sorted (hashName a) (hashName b)

end PairKey

/-- What was given for which pair since the last clearing, in order. -/
abbrev AnswerLog : Type := List (Sym2 String × String)

namespace AnswerLog

variable {log : AnswerLog} {pair other : Sym2 String} {answer : String}

/-- The first answer that was given for a pair. -/
def first? (log : AnswerLog) (pair : Sym2 String) : Option String :=
  (log.find? fun entry => entry.1 = pair).map Prod.snd

/-- The pairs for which an answer was given. -/
def pairs (log : AnswerLog) : Finset (Sym2 String) := (log.map Prod.fst).toFinset

/-- The first answer in a longer log is the one from before, if there was one. -/
theorem first?_append :
    first? (log ++ [(pair, answer)]) other =
      (log.first? other).or (if pair = other then some answer else none) := by
  unfold first?
  rw [List.find?_append, Option.map_or, List.find?_singleton]
  by_cases same : pair = other <;> simp [same]

/-- An answer adds its pair to those for which one was given. -/
theorem pairs_append : pairs (log ++ [(pair, answer)]) = insert pair log.pairs := by
  ext member
  simp [pairs]

end AnswerLog

namespace PairMemo

/-- What can be done with a memo. -/
inductive Step where
  | get (first second : String)
  | insert (first second answer : String)
  | clear
  | len

/-- What comes back from a step. -/
inductive Reply where
  | found (answer : Option String)
  | kept (answer : String)
  | cleared
  | count (value : Nat)
  deriving DecidableEq

/-- What a step gives and what it makes of the memo. -/
def step (memo : PairMemo) : Step → Reply × PairMemo
  | .get first second => (.found (memo.answer? first second), memo)
  | .insert first second answer =>
    let (kept, memo) := memo.settle first second answer
    (.kept kept, memo)
  | .clear => (.cleared, Table.empty)
  | .len => (.count memo.size, memo)

end PairMemo

/-- What a log of answers says about a step, and the log after it. -/
def AnswerLog.step (log : AnswerLog) : PairMemo.Step → PairMemo.Reply × AnswerLog
  | .get first second => (.found (log.first? s(first, second)), log)
  | .insert first second answer =>
    (.kept ((log.first? s(first, second)).getD answer), log ++ [(s(first, second), answer)])
  | .clear => (.cleared, [])
  | .len => (.count log.pairs.card, log)

namespace PairMemo

/-- The replies to some steps, each from the state that the ones before it lead to. -/
def replies {σ : Type} (step : σ → Step → Reply × σ) (state : σ) : List Step → List Reply
  | [] => []
  | next :: rest => (step state next).1 :: replies step (step state next).2 rest

/-- The pairs of the keys of a memo. -/
def pairs (memo : PairMemo) : List (Sym2 String) := memo.keys.map PairKey.pair

variable {memo : PairMemo} {log : AnswerLog} {a b answer : String}

/-- The memo has an answer exactly for the pairs that are listed. -/
theorem contains_iff_mem_pairs : memo.contains ⟨a, b⟩ = true ↔ s(a, b) ∈ memo.pairs := by
  simp only [pairs, Table.contains, Table.keys, List.any_eq_true, List.mem_map,
    PairKey.beq_iff_pair]
  constructor
  · rintro ⟨entry, member, same⟩
    exact ⟨entry.1, ⟨entry, member, rfl⟩, same⟩
  · rintro ⟨-, ⟨entry, member, rfl⟩, same⟩
    exact ⟨entry, member, same⟩

/-- A pair that has an answer is not listed again. -/
theorem pairs_remember :
    pairs (memo.remember a b answer) =
      if s(a, b) ∈ memo.pairs then memo.pairs else memo.pairs ++ [s(a, b)] := by
  simp only [← contains_iff_mem_pairs, remember, Table.insertIfNew]
  split
  · rfl
  · simp [pairs, Table.keys, PairKey.pair]

/-- A memo keeps what a log says: the first answer for each pair, under one key. -/
structure Keeps (memo : PairMemo) (log : AnswerLog) : Prop where
  answers : ∀ a b, memo.answer? a b = log.first? s(a, b)
  once : memo.pairs.Nodup
  all : memo.pairs.toFinset = log.pairs

namespace Keeps

/-- The memo without answers keeps to the empty log. -/
theorem empty : Keeps Table.empty [] := by
  constructor
  · intro a b
    rfl
  · exact List.nodup_nil
  · rfl

/-- The number of keys is the number of pairs. -/
theorem size (h : memo.Keeps log) : memo.size = log.pairs.card := by
  have keys : memo.size = memo.pairs.length := by
    simp [pairs, Table.size, Table.keys]
  rw [keys, ← h.all, List.toFinset_card_of_nodup h.once]

/-- What is a key of the memo has an answer in the log. -/
theorem exists_first? (h : memo.Keeps log) (known : memo.contains ⟨a, b⟩ = true) :
    ∃ found, log.first? s(a, b) = some found := by
  obtain ⟨found, kept⟩ := Table.contains_iff_get?.1 known
  have kept : memo.answer? a b = some found := kept
  exact ⟨found, (h.answers a b).symm.trans kept⟩

/-- **An insertion adds to the log**, although a memo that has an answer for the pair stays as it
is. -/
theorem settle (h : memo.Keeps log) (a b answer : String) :
    (memo.settle a b answer).2.Keeps (log ++ [(s(a, b), answer)]) := by
  show (memo.remember a b answer).Keeps _
  constructor
  · intro p q
    rw [answer?_remember, AnswerLog.first?_append, h.answers]
    cases found : log.first? s(p, q) with
    | some kept => rfl
    | none =>
      have equal : ((⟨a, b⟩ : PairKey) == ⟨p, q⟩) = true ↔ s(a, b) = s(p, q) :=
        PairKey.beq_iff_pair
      by_cases same : s(a, b) = s(p, q)
      · have new : ¬ memo.contains ⟨a, b⟩ = true := by
          intro known
          obtain ⟨kept, earlier⟩ := h.exists_first? known
          rw [same, found] at earlier
          cases earlier
        rw [if_pos (equal.2 same), if_neg new, if_pos same]
      · rw [if_neg (mt equal.1 same), if_neg same]
  · rw [pairs_remember]
    split
    · exact h.once
    · rename_i fresh
      refine List.nodup_append.2 ⟨h.once, List.nodup_singleton _, ?_⟩
      rintro old member new added rfl
      exact fresh (List.mem_singleton.1 added ▸ member)
  · rw [pairs_remember, AnswerLog.pairs_append, ← h.all]
    split
    · rename_i known
      exact (Finset.insert_eq_of_mem (List.mem_toFinset.2 known)).symm
    · ext member
      simp

/-- **One step**: a memo replies what the log says, and keeps what the log says after it. -/
theorem step (h : memo.Keeps log) (next : Step) :
    (memo.step next).1 = (log.step next).1 ∧ (memo.step next).2.Keeps (log.step next).2 := by
  cases next with
  | get a b => exact ⟨congrArg Reply.found (h.answers a b), h⟩
  | insert a b answer =>
    have kept := h.settle a b answer
    have given : (memo.settle a b answer).1 = (log.first? s(a, b)).getD answer := by
      have found : (memo.settle a b answer).2.answer? a b = some (memo.settle a b answer).1 :=
        answer?_settle
      rw [kept.answers, AnswerLog.first?_append, if_pos rfl] at found
      cases earlier : log.first? s(a, b) with
      | some first => simpa [earlier] using found.symm
      | none => simpa [earlier] using found.symm
    exact ⟨congrArg Reply.kept given, kept⟩
  | clear => exact ⟨rfl, .empty⟩
  | len => exact ⟨congrArg Reply.count h.size, h⟩

/-- **A memo replies to any steps as the log of what was given to it.** -/
theorem replies (h : memo.Keeps log) (steps : List Step) :
    replies PairMemo.step memo steps = replies AnswerLog.step log steps := by
  induction steps generalizing memo log with
  | nil => rfl
  | cons next rest ih =>
    obtain ⟨same, after⟩ := h.step next
    unfold PairMemo.replies
    rw [same, ih after]

end Keeps

end PairMemo

end ClassLattice
