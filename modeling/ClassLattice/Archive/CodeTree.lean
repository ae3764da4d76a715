import ClassLattice.Archive.BitReader

/-!
# Canonical codes

A code gives symbols words of bits none of which begins another, and is kept as a binary tree.
The canonical code is given by the lengths of its words alone: shorter words come first, words of
one length are in the order of their symbols, and each takes the first place that is free.
-/

set_option autoImplicit false

namespace ClassLattice

/-- A code as a tree: the way from the root to a leaf spells the word of a symbol. -/
inductive CodeTree where
  /-- No word begins like this. -/
  | absent
  | leaf (symbol : Nat)
  | branch (zero one : CodeTree)
  deriving DecidableEq

namespace CodeTree

/-- The number of bits that a code word has at most. -/
def maxLength : Nat := 15

/-- Reads the rest of a word and returns its symbol. -/
def symbolBelow : CodeTree → BitReader Nat
  | absent, _ => none
  | leaf symbol, bits => some (symbol, bits)
  | branch _ _, [] => none
  | branch zero one, head :: rest =>
    if head then one.symbolBelow rest else zero.symbolBelow rest

/-- Reads a word and returns its symbol.  No word is empty. -/
def symbol (tree : CodeTree) : BitReader Nat := do
  let head ← BitReader.bit
  match tree with
  | branch zero one => if head then one.symbolBelow else zero.symbolBelow
  | _ => failure

open BitReader in
/-- Below a leaf there may be nothing left to take. -/
theorem consumes_symbolBelow (tree : CodeTree) : Consumes 0 tree.symbolBelow := by
  induction tree with
  | absent => intro bits value rest h; cases h
  | leaf symbol => intro bits value rest h; cases h; exact Nat.le_refl _
  | branch zero one left right =>
    intro bits value rest h
    cases bits with
    | nil => cases h
    | cons head tail =>
      cases head
      · have := left tail value rest h
        simp only [List.length_cons]
        omega
      · have := right tail value rest h
        simp only [List.length_cons]
        omega

open BitReader in
/-- A symbol takes a bit at least. -/
theorem consumes_symbol (tree : CodeTree) : Consumes 1 tree.symbol := by
  refine consumes_bit.andThen fun head => ?_
  cases tree with
  | absent => exact consumes_failure 0
  | leaf symbol => exact consumes_failure 0
  | branch zero one =>
    cases head
    · exact consumes_symbolBelow zero
    · exact consumes_symbolBelow one

/-- Whether every sequence of bits begins with a word or is the start of one. -/
def isComplete : CodeTree → Bool
  | absent => false
  | leaf _ => true
  | branch zero one => zero.isComplete && one.isComplete

/-- Builds the tree below a place of given depth from words with their symbols, in their order, of
which it takes those that have their places there; it grows by so many levels at most.  The words
that were not placed come back. -/
def grow : Nat → Nat → List (Nat × Nat) → CodeTree × List (Nat × Nat)
  | _, _, [] => (absent, [])
  | levels, depth, (length, symbol) :: rest =>
    if length ≤ depth then (leaf symbol, rest)
    else
      match levels with
      | 0 => (absent, (length, symbol) :: rest)
      | levels + 1 =>
        let (zero, pending) := grow levels (depth + 1) ((length, symbol) :: rest)
        let (one, pending) := grow levels (depth + 1) pending
        (branch zero one, pending)

/-- The words of a code by length and symbol, given the lengths for the symbols from zero on.  A
symbol with length zero has no word. -/
def words (lengths : List Nat) : List (Nat × Nat) :=
  (List.range maxLength).flatMap fun before =>
    lengths.zipIdx.filter fun entry => entry.1 = before + 1

/-- Whether words, given by length and symbol, are none at all or a single one of one bit. -/
def isSparse : List (Nat × Nat) → Bool
  | [] => true
  | [(length, _)] => length = 1
  | _ => false

/-- The canonical code for lengths of words, if there is one that is complete or, where that is
allowed, sparse. -/
def ofLengths? (lengths : List Nat) (allowSparse : Bool) : Option CodeTree :=
  let pending := words lengths
  let (tree, unplaced) := grow maxLength 0 pending
  if unplaced.isEmpty && tree.isComplete || allowSparse && isSparse pending then some tree
  else none

end CodeTree

end ClassLattice
