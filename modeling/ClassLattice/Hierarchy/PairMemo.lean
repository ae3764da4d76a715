import ClassLattice.Table

/-!
# Answers by unordered pair

A memo keeps one answer for each unordered pair of names: the first that was given for the pair in
either order.
-/

set_option autoImplicit false

namespace ClassLattice

/-- Two names whose order does not matter. -/
structure PairKey where
  first : String
  second : String

namespace PairKey

/-- Whether two pairs have the same names, in either order. -/
def same (a b : PairKey) : Bool :=
  (a.first == b.first && a.second == b.second) || (a.first == b.second && a.second == b.first)

/-- Keys are compared as pairs without an order. -/
instance : BEq PairKey := ⟨same⟩

/-- The hash of a pair under a hash of names.  The smaller of the two hashes goes first, so the
order of the names does not matter. -/
def hashWith (hashName : String → UInt64) (key : PairKey) : UInt64 :=
  let a := hashName key.first
  let b := hashName key.second
  min a b * 37 + max a b

end PairKey

/-- The answers given so far, by unordered pair. -/
abbrev PairMemo : Type := Table PairKey String

namespace PairMemo

/-- The answer that is kept for a pair of names. -/
def answer? (memo : PairMemo) (first second : String) : Option String :=
  memo.get? ⟨first, second⟩

/-- Keeps an answer for a pair unless the pair has one. -/
def remember (memo : PairMemo) (first second answer : String) : PairMemo :=
  memo.insertIfNew ⟨first, second⟩ answer

/-- Keeps an answer for a pair unless the pair has one, and returns the one it has then. -/
def settle (memo : PairMemo) (first second answer : String) : String × PairMemo :=
  let memo := memo.remember first second answer
  ((memo.answer? first second).getD answer, memo)

end PairMemo

end ClassLattice
