import ClassLattice.Archive.CodeTree

/-!
# Inflating compressed data

Deflated data is a sequence of blocks.  A block holds bytes as they are, or symbols in a code that
is fixed or described at its front; a symbol stands for a byte, for the end of the block, or for a
length, which with a distance behind it repeats earlier output.  The output counts as preceded by
zeros, which a distance may reach.  Data must not end before its last block does, and so cannot be
empty.
-/

set_option autoImplicit false

namespace ClassLattice

namespace Inflation

/-- The output so far. -/
abbrev Output : Type := Array UInt8

/-- What stands next in a block of symbols. -/
inductive Item where
  | endOfBlock
  | byte (value : UInt8)
  /-- So many bytes from so far back in the output. -/
  | repetition (length distance : Nat)
  deriving DecidableEq

/-- The shortest length and the number of further bits for each symbol of a length. -/
def lengthCodes : List (Nat × Nat) :=
  [(3, 0), (4, 0), (5, 0), (6, 0), (7, 0), (8, 0), (9, 0), (10, 0), (11, 1), (13, 1), (15, 1),
    (17, 1), (19, 2), (23, 2), (27, 2), (31, 2), (35, 3), (43, 3), (51, 3), (59, 3), (67, 4),
    (83, 4), (99, 4), (115, 4), (131, 5), (163, 5), (195, 5), (227, 5), (258, 0)]

/-- The shortest distance and the number of further bits for each symbol of a distance. -/
def distanceCodes : List (Nat × Nat) :=
  [(1, 0), (2, 0), (3, 0), (4, 0), (5, 1), (7, 1), (9, 2), (13, 2), (17, 3), (25, 3), (33, 4),
    (49, 4), (65, 5), (97, 5), (129, 6), (193, 6), (257, 7), (385, 7), (513, 8), (769, 8),
    (1025, 9), (1537, 9), (2049, 10), (3073, 10), (4097, 11), (6145, 11), (8193, 12), (12289, 12),
    (16385, 13), (24577, 13)]

/-- Reads the further bits of an entry of one of these lists. -/
def extended (codes : List (Nat × Nat)) (symbol : Nat) : BitReader Nat := do
  match codes[symbol]? with
  | some (least, width) => return least + (← BitReader.number width)
  | none => failure

/-- The two codes of a block. -/
structure Codes where
  literals : CodeTree
  distances : CodeTree

/-- Reads the next item of a block. -/
def Codes.item (codes : Codes) : BitReader Item := do
  let symbol ← codes.literals.symbol
  if symbol < 256 then return .byte symbol.toUInt8
  if symbol = 256 then return .endOfBlock
  let length ← extended lengthCodes (symbol - 257)
  let distance ← extended distanceCodes (← codes.distances.symbol)
  return .repetition length distance

open BitReader in
/-- An extension may take nothing. -/
theorem consumes_extended (codes : List (Nat × Nat)) (symbol : Nat) :
    Consumes 0 (extended codes symbol) := by
  unfold extended
  split
  · exact (consumes_number _).relax.andThen fun _ => consumes_pure _
  · exact consumes_failure 0

open BitReader in
/-- What a code stands for takes a bit at least. -/
theorem Codes.consumes_item (codes : Codes) : Consumes 1 codes.item := by
  refine codes.literals.consumes_symbol.andThen fun symbol => ?_
  split
  · exact consumes_pure _
  · split
    · exact consumes_pure _
    · exact (consumes_extended _ _).andThen fun length =>
        codes.distances.consumes_symbol.relax.andThen fun symbol =>
          (consumes_extended _ _).andThen fun distance => consumes_pure _

/-- The byte so far back in the output. -/
def byteBack (output : Output) (distance : Nat) : UInt8 :=
  if distance ≤ output.size then output[output.size - distance]?.getD 0 else 0

/-- Repeats bytes from some distance back. -/
def repeatBytes (distance : Nat) : Nat → Output → Output
  | 0, output => output
  | count + 1, output => repeatBytes distance count (output.push (byteBack output distance))

/-- Reads the items of a block up to its end.  The result is the output and the bits behind the
block. -/
def items (codes : Codes) (bits : List Bool) (output : Output) : Option (Output × List Bool) :=
  match h : codes.item bits with
  | none => none
  | some (.endOfBlock, rest) => some (output, rest)
  | some (.byte value, rest) =>
    have := codes.consumes_item _ _ _ h
    items codes rest (output.push value)
  | some (.repetition length distance, rest) =>
    have := codes.consumes_item _ _ _ h
    items codes rest (repeatBytes distance length output)
termination_by bits.length

/-- The bits behind a block are among those in front of it. -/
theorem length_of_items {codes : Codes} {bits rest : List Bool} {output grown : Output}
    (h : items codes bits output = some (grown, rest)) : rest.length ≤ bits.length := by
  fun_induction items codes bits output with
  | case1 => cases h
  | case2 bits output behind eq =>
    have := codes.consumes_item _ _ _ eq
    cases h
    omega
  | case3 bits output value behind eq shorter ih =>
    have := ih h
    omega
  | case4 bits output length distance behind eq shorter ih =>
    have := ih h
    omega

/-- Takes bytes as they are. -/
def plainBytes : Nat → List Bool → Output → Option (Output × List Bool)
  | 0, bits, output => some (output, bits)
  | count + 1, bits, output =>
    match BitReader.number 8 bits with
    | some (value, rest) => plainBytes count rest (output.push value.toUInt8)
    | none => none

/-- The bits behind bytes are among those in front of them. -/
theorem length_of_plainBytes {count : Nat} {bits rest : List Bool} {output grown : Output}
    (h : plainBytes count bits output = some (grown, rest)) : rest.length ≤ bits.length := by
  fun_induction plainBytes count bits output with
  | case1 => cases h; exact Nat.le_refl _
  | case2 bits output count value behind eq ih =>
    have := BitReader.consumes_number 8 _ _ _ eq
    have := ih h
    omega
  | case3 => cases h

/-- The number of bytes in a block that holds bytes as they are.  It is given twice, the second
time with all bits the other way. -/
def plainLength : BitReader Nat := do
  BitReader.align
  let length ← BitReader.number 16
  let complement ← BitReader.number 16
  if length + complement = 0xFFFF then return length else failure

open BitReader in
/-- The length of bytes as they are may take nothing from the bits counted here. -/
theorem consumes_plainLength : Consumes 0 plainLength := by
  refine consumes_align.andThen fun _ => (consumes_number 16).relax.andThen fun length =>
    (consumes_number 16).relax.andThen fun complement => ?_
  split
  · exact consumes_pure _
  · exact consumes_failure 0

/-- The codes that need no description. -/
def fixedCodes : Option Codes := do
  let literals ← CodeTree.ofLengths?
    (List.replicate 144 8 ++ List.replicate 112 9 ++ List.replicate 24 7 ++ List.replicate 8 8)
    false
  let distances ← CodeTree.ofLengths? (List.replicate 32 5) false
  return { literals, distances }

/-- The symbols for lengths of words, in the order in which their own lengths are given. -/
def lengthOrder : List Nat := [16, 17, 18, 0, 8, 7, 9, 6, 10, 5, 11, 4, 12, 3, 13, 2, 14, 1, 15]

/-- Reads so many lengths of three bits each. -/
def shortLengths : Nat → BitReader (List Nat)
  | 0 => return []
  | count + 1 => do
    let first ← BitReader.number 3
    let rest ← shortLengths count
    return first :: rest

/-- The lengths of the words for lengths, by symbol. -/
def sortedLengths (given : List Nat) : List Nat :=
  (List.range lengthOrder.length).map fun symbol => given[lengthOrder.idxOf symbol]?.getD 0

/-- Reads the further bits of a symbol for lengths of words.  The result is a length and how often
it is given beyond the first time.  A symbol above 15 stands for a run: of the length before it or
of zeros. -/
def lengthRun (symbol : Nat) (last : Option Nat) : BitReader (Nat × Nat) := do
  if symbol < 16 then return (symbol, 0)
  else if symbol = 16 then
    match last with
    | some last => return (last, 2 + (← BitReader.number 2))
    | none => failure
  else if symbol = 17 then return (0, 2 + (← BitReader.number 3))
  else return (0, 10 + (← BitReader.number 7))

/-- Reads so many lengths of words in the code for them, to be put behind those already read, which
are held latest first. -/
def longLengths (tree : CodeTree) : Nat → List Nat → BitReader (List Nat)
  | 0, done => return done.reverse
  | count + 1, done => do
    let symbol ← tree.symbol
    let (length, more) ← lengthRun symbol done.head?
    if count < more then failure
    else longLengths tree (count - more) (List.replicate (more + 1) length ++ done)
termination_by count => count
decreasing_by exact Nat.lt_succ_of_le (Nat.sub_le _ _)

open BitReader in
/-- No lengths may take no bits. -/
theorem consumes_shortLengths (count : Nat) : Consumes 0 (shortLengths count) := by
  induction count with
  | zero => exact consumes_pure []
  | succ count ih =>
    exact (consumes_number 3).relax.andThen fun first => ih.andThen fun rest => consumes_pure _

open BitReader in
/-- A run of lengths may take no bits. -/
theorem consumes_lengthRun (symbol : Nat) (last : Option Nat) :
    Consumes 0 (lengthRun symbol last) := by
  unfold lengthRun
  split
  · exact consumes_pure _
  · split
    · split
      · exact (consumes_number 2).relax.andThen fun more => consumes_pure _
      · exact consumes_failure 0
    · split
      · exact (consumes_number 3).relax.andThen fun more => consumes_pure _
      · exact (consumes_number 7).relax.andThen fun more => consumes_pure _

open BitReader in
/-- All lengths may take no bits. -/
theorem consumes_longLengths (tree : CodeTree) (count : Nat) (done : List Nat) :
    Consumes 0 (longLengths tree count done) := by
  induction count using Nat.strongRecOn generalizing done with
  | ind count ih =>
    unfold longLengths
    split
    · exact consumes_pure _
    · refine tree.consumes_symbol.relax.andThen fun symbol => ?_
      refine (consumes_lengthRun _ _).andThen fun (length, more) => ?_
      simp only
      split
      · exact consumes_failure 0
      · exact ih _ (by omega) _

/-- Reads a description of codes. -/
def describedCodes : BitReader Codes := do
  let literalCount := 257 + (← BitReader.number 5)
  let distanceCount := 1 + (← BitReader.number 5)
  let shortCount := 4 + (← BitReader.number 4)
  if literalCount > 286 || distanceCount > 30 then failure
  let given ← shortLengths shortCount
  let some tree := CodeTree.ofLengths? (sortedLengths given) false | failure
  let lengths ← longLengths tree (literalCount + distanceCount) []
  match CodeTree.ofLengths? (lengths.take literalCount) true,
    CodeTree.ofLengths? (lengths.drop literalCount) true with
  | some literals, some distances => return { literals, distances }
  | _, _ => failure

open BitReader in
/-- The description of the codes may take no bits. -/
theorem consumes_describedCodes : Consumes 0 describedCodes := by
  refine (consumes_number 5).relax.andThen fun literals =>
    (consumes_number 5).relax.andThen fun distances =>
      (consumes_number 4).relax.andThen fun short => ?_
  split
  · exact consumes_failure 0
  · refine (consumes_shortLengths _).andThen fun given => ?_
    split
    · refine (consumes_longLengths _ _ _).andThen fun lengths => ?_
      split
      · exact consumes_pure _
      · exact consumes_failure 0
    · exact consumes_failure 0

/-- What the front of a block says about it. -/
inductive BlockKind where
  | plain (length : Nat)
  | coded (codes : Codes)

/-- Reads the front of a block: whether the block is the last one, and its kind. -/
def blockFront : BitReader (Bool × BlockKind) := do
  let isLast ← BitReader.bit
  match ← BitReader.number 2 with
  | 0 => return (isLast, .plain (← plainLength))
  | 1 =>
    match fixedCodes with
    | some codes => return (isLast, .coded codes)
    | none => failure
  | 2 => return (isLast, .coded (← describedCodes))
  | _ => failure

open BitReader in
/-- The front of a block takes a bit at least. -/
theorem consumes_blockFront : Consumes 1 blockFront := by
  refine consumes_bit.andThen fun isLast => ?_
  refine (consumes_number 2).relax.andThen fun kind => ?_
  split
  · exact consumes_plainLength.andThen fun length => consumes_pure _
  · split
    · exact consumes_pure _
    · exact consumes_failure 0
  · exact consumes_describedCodes.andThen fun codes => consumes_pure _
  · exact consumes_failure 0

/-- Reads the content of a block. -/
def blockContent : BlockKind → List Bool → Output → Option (Output × List Bool)
  | .plain length, bits, output => plainBytes length bits output
  | .coded codes, bits, output => items codes bits output

/-- The bits behind the content of a block are among those in front of it. -/
theorem length_of_blockContent {kind : BlockKind} {bits rest : List Bool} {output grown : Output}
    (h : blockContent kind bits output = some (grown, rest)) : rest.length ≤ bits.length := by
  cases kind with
  | plain length => exact length_of_plainBytes h
  | coded codes => exact length_of_items h

/-- Reads blocks up to the last one.  What stands behind that one is not looked at. -/
def blocks (bits : List Bool) (output : Output) : Option Output :=
  match h : blockFront bits with
  | none => none
  | some ((isLast, kind), front) =>
    match h' : blockContent kind front output with
    | none => none
    | some (output, rest) =>
      have := consumes_blockFront _ _ _ h
      have := length_of_blockContent h'
      if isLast then some output else blocks rest output
termination_by bits.length

end Inflation

/-- The data that deflated data stands for, or nothing if it is corrupt. -/
def inflate? (data : Bytes) : Option Bytes :=
  (Inflation.blocks (BitReader.bitsOfBytes data) #[]).map Array.toList

end ClassLattice
