import ClassLattice.Proofs.ClassFile.Header

/-!
# Class files that are cut off

A reader that comes to a result without running out of bytes has looked at nothing behind the bytes
that it took.  More bytes change nothing then, so what is read from a class file is settled by its
front part: with less of it the bytes run out, and with all of it the result is there, whatever
follows.
-/

set_option autoImplicit false

namespace ClassLattice

namespace ByteReader

variable {α β : Type} {reader : ByteReader α} {bytes rest : List UInt8} {value : α}

/-- What was read, where more bytes stood behind those that are left over. -/
def followedBy (more : List UInt8) (found : α × List UInt8) : α × List UInt8 :=
  (found.1, found.2 ++ more)

/-- **A reader is steady** if more bytes make no difference to it unless it runs out of them: it
ends in the same way and leaves the additional bytes over. -/
def Steady (reader : ByteReader α) : Prop :=
  ∀ bytes more, reader bytes ≠ .error .endOfInput →
    reader (bytes ++ more) = followedBy more <$> reader bytes

/-- What follows a reader goes on from what that leaves. -/
theorem bind_of_ok {next : α → ByteReader β} (h : reader bytes = .ok (value, rest)) :
    (reader >>= next) bytes = next value rest := by
  show Except.bind (reader bytes) (fun found => next found.1 found.2) = _
  rw [h]
  rfl

/-- What follows a reader does not run if that fails. -/
theorem bind_of_error {next : α → ByteReader β} {error : ClassFileError}
    (h : reader bytes = .error error) : (reader >>= next) bytes = .error error := by
  show Except.bind (reader bytes) (fun found => next found.1 found.2) = _
  rw [h]
  rfl

namespace Steady

/-- A reader that gives a value takes nothing, however much there is. -/
theorem pure (value : α) : Steady (pure value) := by
  intro bytes more _
  rfl

/-- A reader that fails does so whatever there is. -/
theorem throw (error : ClassFileError) : Steady (throw error : ByteReader α) := by
  intro bytes more _
  rfl

/-- A result that is settled beforehand is the same whatever there is. -/
theorem lift (result : Except ClassFileError α) : Steady (liftM result) := by
  cases result with
  | error error => exact throw error
  | ok value => exact pure value

/-- **Readers one after the other are steady if both are.** -/
theorem bind {next : α → ByteReader β} (first : reader.Steady)
    (second : ∀ value, (next value).Steady) : (reader >>= next).Steady := by
  intro bytes more enough
  cases ran : reader bytes with
  | error error =>
    have here : reader bytes ≠ .error .endOfInput := by
      intro out
      exact enough (bind_of_error out)
    have there := first bytes more here
    rw [ran] at there
    rw [bind_of_error ran, bind_of_error there]
    rfl
  | ok found =>
    obtain ⟨value, rest⟩ := found
    have here : reader bytes ≠ .error .endOfInput := by
      rw [ran]
      exact nofun
    have there := first bytes more here
    rw [ran] at there
    rw [bind_of_ok ran] at enough ⊢
    rw [bind_of_ok there]
    exact second value rest more enough

/-- A function behind a reader keeps it steady. -/
theorem map (f : α → β) (first : reader.Steady) : Steady (do return f (← reader)) :=
  first.bind fun value => pure (f value)

/-- A choice between steady readers is steady. -/
theorem ite (condition : Prop) [Decidable condition] {one other : ByteReader α}
    (h : one.Steady) (h' : other.Steady) : Steady (if condition then one else other) := by
  split
  · exact h
  · exact h'

/-- So many bytes are the same ones with more behind them. -/
theorem take (count : Nat) : Steady (take count) := by
  intro bytes more enough
  unfold ByteReader.take at enough ⊢
  rw [List.splitAt_eq] at enough
  rw [List.splitAt_eq, List.splitAt_eq]
  dsimp only at enough ⊢
  have within : count ≤ bytes.length := by
    by_contra short
    apply enough
    rw [if_neg]
    rw [List.length_take]
    omega
  rw [List.take_append_of_le_length within, List.drop_append_of_le_length within]
  simp only [if_pos (List.length_take_of_le within)]
  rfl

/-- A number of one byte is steady. -/
theorem u1 : ByteReader.u1.Steady := (take 1).map _

/-- A number of two bytes is steady. -/
theorem u2 : ByteReader.u2.Steady := (take 2).map _

/-- A number of four bytes is steady. -/
theorem u4 : ByteReader.u4.Steady := (take 4).map _

end Steady

end ByteReader

open ByteReader

namespace ConstantPool

/-- What belongs to a constant is read steadily, of whatever kind it is. -/
theorem steady_readPayload (kind : ConstantKind) : (readPayload kind).Steady := by
  by_cases isUtf8 : kind = .utf8
  · subst isUtf8
    exact Steady.u2.bind fun length => (Steady.take length.toNat).map _
  · by_cases isClassRef : kind = .classRef
    · subst isClassRef
      exact Steady.u2.map _
    · rw [readPayload_of_other isUtf8 isClassRef]
      exact (Steady.take kind.payload).map _

/-- A constant is read steadily. -/
theorem steady_readConstant : readConstant.Steady := by
  refine Steady.u1.bind fun tag => ?_
  cases ConstantKind.ofTag? tag with
  | some kind => exact steady_readPayload kind
  | none => exact Steady.throw _

/-- Slots are read steadily, by induction on how many are missing. -/
theorem steady_readSlots (missing : Nat) (slots : Array (Option Constant)) :
    (readSlots missing slots).Steady := by
  -- As for what is accepted, each constant takes at least one of the missing slots.
  induction missing using Nat.strongRecOn generalizing slots with
  | _ missing ih =>
    rw [readSlots]
    by_cases filled : missing = 0
    · rw [if_pos filled]
      exact Steady.pure slots
    · rw [if_neg filled]
      refine steady_readConstant.bind fun constant => ih _ ?_ _
      have positive := constant.kind.width_pos
      omega

/-- The pool is read steadily. -/
theorem steady_read : read.Steady :=
  Steady.u2.bind fun count => (steady_readSlots (count.toNat - 1) #[none]).map _

end ConstantPool

namespace ClassHeader

variable {bytes front : List UInt8} {header : ClassHeader}

/-- The name of a class is read steadily. -/
theorem steady_readClassName (pool : ConstantPool) : (readClassName pool).Steady :=
  Steady.u2.bind fun index => Steady.lift (pool.className index)

/-- The name of the superclass is read steadily. -/
theorem steady_readSuperClass (pool : ConstantPool) : (readSuperClass pool).Steady :=
  Steady.u2.bind fun index =>
    Steady.ite (index = 0) (Steady.pure none) ((Steady.lift (pool.className index)).map some)

/-- The names of the interfaces are read steadily. -/
theorem steady_readClassNames (pool : ConstantPool) (count : Nat) (done : List String) :
    (readClassNames pool count done).Steady := by
  induction count generalizing done with
  | zero => exact Steady.pure done.reverse
  | succ count ih => exact (steady_readClassName pool).bind fun name => ih (name :: done)

/-- **The whole header is read by a steady reader**: an early name look-up fails in the same way,
whatever follows. -/
theorem steady_read : read.Steady := by
  have body : Steady (do
      let minorVersion ← u2
      let majorVersion ← u2
      let pool ← ConstantPool.read
      let accessFlags ← u2
      let thisClass ← readClassName pool
      let superClass ← readSuperClass pool
      let count ← u2
      let interfaces ← readClassNames pool count.toNat []
      return ClassHeader.mk minorVersion majorVersion accessFlags thisClass superClass
        interfaces) :=
    Steady.u2.bind fun minorVersion => Steady.u2.bind fun majorVersion =>
    ConstantPool.steady_read.bind fun pool => Steady.u2.bind fun accessFlags =>
    (steady_readClassName pool).bind fun thisClass =>
    (steady_readSuperClass pool).bind fun superClass => Steady.u2.bind fun count =>
    (steady_readClassNames pool count.toNat []).map _
  refine Steady.u4.bind fun found => ?_
  exact Steady.ite (found ≠ magic) ((Steady.throw _).bind fun _ => body) body

/-- A header that is parsed was read from the front of the bytes. -/
theorem exists_read_of_parse (h : parse bytes = .ok header) :
    ∃ rest, read bytes = .ok (header, rest) := by
  unfold parse at h
  cases ran : read bytes with
  | error error =>
    rw [ran] at h
    cases h
  | ok found =>
    rw [ran] at h
    cases h
    exact ⟨found.2, rfl⟩

/-- Parsing misses bytes exactly where reading does. -/
theorem parse_ne_endOfInput_iff :
    parse bytes ≠ .error .endOfInput ↔ read bytes ≠ .error .endOfInput := by
  unfold parse
  cases read bytes with
  | error error => simp
  | ok found => simp

/-- **More bytes make no difference where none was missing.** -/
theorem parse_append (enough : parse bytes ≠ .error .endOfInput) (more : List UInt8) :
    parse (bytes ++ more) = parse bytes := by
  have grown := steady_read bytes more (parse_ne_endOfInput_iff.1 enough)
  unfold parse
  rw [grown]
  cases read bytes <;> rfl

/-- **Without some of the bytes that a header takes, the bytes run out.** -/
theorem parse_of_short {rest : List UInt8} (ran : read bytes = .ok (header, rest))
    (cut : front <+: bytes) (short : front.length + rest.length < bytes.length) :
    parse front = .error .endOfInput := by
  obtain ⟨more, rfl⟩ := cut
  by_contra enough
  have grown := steady_read front more (parse_ne_endOfInput_iff.1 enough)
  rw [ran] at grown
  cases early : read front with
  | error error =>
    rw [early] at grown
    cases grown
  | ok found =>
    -- More bytes would be left over than were cut off.
    rw [early] at grown
    obtain ⟨-, rfl⟩ := Prod.mk.inj (Except.ok.inj grown)
    simp only [List.length_append] at short
    omega

/-- **With all of them, the header is found.** -/
theorem parse_of_enough {rest : List UInt8} (ran : read bytes = .ok (header, rest))
    (cut : front <+: bytes) (enough : bytes.length ≤ front.length + rest.length) :
    parse front = .ok header := by
  obtain ⟨taken, rfl, written⟩ := (accepts_read bytes header rest).1 ran
  have whole : parse taken = .ok header := by
    have alone := (accepts_read taken header []).2 ⟨taken, (List.append_nil taken).symm, written⟩
    unfold parse
    rw [alone]
    rfl
  have within : taken.length ≤ front.length := by
    rw [List.length_append] at enough
    omega
  obtain ⟨more, rfl⟩ :=
    List.prefix_of_prefix_length_le (List.prefix_append taken rest) cut within
  rw [← whole]
  apply parse_append
  rw [whole]
  exact nofun

/-- **A header is decided by the front of the bytes.**  Unless the bytes run out, no bytes behind
them change what is found, the refusals included.  A header that is found takes a number of bytes:
with fewer of them the bytes run out, and with as many or more the same header is found. -/
theorem parse_decided_by_front (bytes : List UInt8) :
    (parse bytes ≠ .error .endOfInput → ∀ more, parse (bytes ++ more) = parse bytes) ∧
    ∀ header, parse bytes = .ok header → ∃ size ≤ bytes.length, ∀ front, front <+: bytes →
      (front.length < size → parse front = .error .endOfInput) ∧
      (size ≤ front.length → parse front = .ok header) := by
  refine ⟨parse_append, ?_⟩
  intro header found
  obtain ⟨rest, ran⟩ := exists_read_of_parse found
  refine ⟨bytes.length - rest.length, Nat.sub_le .., fun front cut => ⟨fun short => ?_, ?_⟩⟩
  · apply parse_of_short ran cut
    omega
  · intro enough
    apply parse_of_enough ran cut
    omega

/-- All 25 bytes of a class `A` without a superclass are needed. -/
example :
    List.map parse (List.inits [0xCA, 0xFE, 0xBA, 0xBE, 0, 0, 0, 52, 0, 3, 1, 0, 1, 0x41, 7, 0, 1,
      0, 0x21, 0, 2, 0, 0, 0, 0]) =
    List.replicate 25 (.error .endOfInput) ++ [.ok ⟨0, 52, 0x21, "A", none, []⟩] := by
  decide +kernel

end ClassHeader

end ClassLattice
