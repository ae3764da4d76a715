import ClassLattice.ClassFile.Bytes
import Mathlib.Algebra.GroupWithZero.Nat
import Mathlib.Data.List.Induction

/-!
# What a reader of bytes accepts

A reader is specified by the bytes from which it makes each of its values: it ends with a value and
some bytes left over exactly if what came before these is one way to write the value.  There is one
rule for each way in which readers are put together, so that the format that a reader accepts
follows from its text.
-/

set_option autoImplicit false

namespace ClassLattice

namespace ByteReader

variable {α β : Type} {reader : ByteReader α} {bytes front rest : List UInt8} {value : α}
  {written : α → List UInt8 → Prop}

/-! ## Numbers -/

/-- A number in a given number of bytes, the most significant first. -/
def numberBytes : Nat → Nat → List UInt8
  | 0, _ => []
  | width + 1, number => numberBytes width (number / 256) ++ [UInt8.ofNat number]

/-- A number is spelt with as many bytes as it is wide. -/
@[simp] theorem length_numberBytes (width number : Nat) :
    (numberBytes width number).length = width := by
  induction width generalizing number with
  | zero => rfl
  | succ width ih => simp [numberBytes, ih]

/-- The last byte counts once, all in front of it 256 times. -/
theorem bigEndian_concat (bytes : List UInt8) (last : UInt8) :
    bigEndian (bytes ++ [last]) = bigEndian bytes * 256 + last.toNat := by
  simp [bigEndian]

/-- What spells a number is read as that number, if it fits. -/
theorem bigEndian_numberBytes {width number : Nat} (fits : number < 256 ^ width) :
    bigEndian (numberBytes width number) = number := by
  induction width generalizing number with
  | zero =>
    rw [Nat.pow_zero, Nat.lt_one_iff] at fits
    rw [fits]
    rfl
  | succ width ih =>
    have above : number / 256 < 256 ^ width := by
      rw [Nat.pow_succ] at fits
      omega
    rw [numberBytes, bigEndian_concat, ih above, UInt8.toNat_ofNat']
    omega

/-- Bytes are what spells the number that they stand for. -/
theorem numberBytes_bigEndian (bytes : List UInt8) :
    numberBytes bytes.length (bigEndian bytes) = bytes := by
  induction bytes using List.reverseRecOn with
  | nil => rfl
  | append_singleton bytes last ih =>
    have small : last.toNat < 256 := last.toNat_lt
    have above : (bigEndian bytes * 256 + last.toNat) / 256 = bigEndian bytes := by omega
    have here : UInt8.ofNat (bigEndian bytes * 256 + last.toNat) = last := by
      apply UInt8.toNat_inj.1
      rw [UInt8.toNat_ofNat']
      omega
    rw [List.length_append, List.length_singleton, bigEndian_concat, numberBytes, above, here, ih]

/-- The number that bytes stand for fits into them. -/
theorem bigEndian_lt (bytes : List UInt8) : bigEndian bytes < 256 ^ bytes.length := by
  induction bytes using List.reverseRecOn with
  | nil => decide
  | append_singleton bytes last ih =>
    have small : last.toNat < 256 := last.toNat_lt
    rw [List.length_append, List.length_singleton, bigEndian_concat, Nat.pow_succ]
    omega

/-! ## Formats -/

/-- **A reader accepts a format**: it ends with a value exactly after bytes that write the value,
whatever follows them. -/
def Accepts (reader : ByteReader α) (written : α → List UInt8 → Prop) : Prop :=
  ∀ bytes value rest, reader bytes = .ok (value, rest) ↔
    ∃ front, bytes = front ++ rest ∧ written value front

namespace Accepts

/-- A reader accepts what is told of it in other words. -/
theorem congr {written' : α → List UInt8 → Prop} (h : reader.Accepts written)
    (same : ∀ value front, written value front ↔ written' value front) :
    reader.Accepts written' := by
  intro bytes value rest
  rw [h bytes value rest]
  simp only [same]

/-- A reader that gives a value accepts no bytes. -/
theorem pure (value : α) : Accepts (pure value) fun other front => other = value ∧ front = [] := by
  intro bytes other rest
  show Except.ok (value, bytes) = Except.ok (other, rest) ↔ _
  rw [Except.ok.injEq, Prod.mk.injEq]
  constructor
  · rintro ⟨rfl, rfl⟩
    exact ⟨[], rfl, rfl, rfl⟩
  · rintro ⟨front, rfl, rfl, rfl⟩
    exact ⟨rfl, rfl⟩

/-- A reader that fails accepts nothing. -/
theorem throw (error : ClassFileError) :
    Accepts (throw error : ByteReader α) fun _ _ => False := by
  intro bytes value rest
  show Except.error error = Except.ok (value, rest) ↔ _
  simp

/-- A result that does not depend on the bytes is written by none. -/
theorem lift (result : Except ClassFileError α) :
    Accepts (liftM result) fun value front => result = .ok value ∧ front = [] := by
  cases result with
  | error error =>
    apply (throw error).congr
    simp
  | ok found =>
    apply (pure found).congr
    intro value front
    rw [Except.ok.injEq, eq_comm]

/-- What is read in turn is written one behind the other. -/
theorem bind {next : α → ByteReader β} {written' : α → β → List UInt8 → Prop}
    (first : reader.Accepts written) (second : ∀ value, (next value).Accepts (written' value)) :
    (reader >>= next).Accepts fun result front =>
      ∃ value head tail, front = head ++ tail ∧ written value head ∧
        written' value result tail := by
  intro bytes result rest
  have stepwise : (reader >>= next) bytes = .ok (result, rest) ↔
      ∃ value middle, reader bytes = .ok (value, middle) ∧
        next value middle = .ok (result, rest) := by
    show Except.bind (reader bytes) (fun found => next found.1 found.2) = _ ↔ _
    cases reader bytes with
    | error error => simp [Except.bind]
    | ok found =>
      constructor
      · intro h
        exact ⟨found.1, found.2, rfl, h⟩
      · rintro ⟨value, middle, same, h⟩
        cases same
        exact h
  rw [stepwise]
  simp only [first bytes, second _ _ _ rest]
  constructor
  · rintro ⟨value, middle, ⟨head, rfl, here⟩, tail, rfl, there⟩
    exact ⟨head ++ tail, (List.append_assoc ..).symm, value, head, tail, rfl, here, there⟩
  · rintro ⟨front, rfl, value, head, tail, rfl, here, there⟩
    exact ⟨value, tail ++ rest, ⟨head, List.append_assoc .., here⟩, tail, rfl, there⟩

/-- What a value settles without more bytes is written as the value is. -/
theorem settle {next : α → ByteReader β} {settles : α → β → Prop} (first : reader.Accepts written)
    (second : ∀ value, (next value).Accepts fun result front =>
      settles value result ∧ front = []) :
    (reader >>= next).Accepts fun result front =>
      ∃ value, settles value result ∧ written value front := by
  apply (first.bind second).congr
  intro result front
  constructor
  · rintro ⟨value, head, tail, rfl, here, settled, rfl⟩
    rw [List.append_nil]
    exact ⟨value, settled, here⟩
  · rintro ⟨value, settled, here⟩
    exact ⟨value, front, [], (List.append_nil _).symm, here, settled, rfl⟩

/-- A reader with a function behind it accepts the same bytes. -/
theorem map (f : α → β) (first : reader.Accepts written) :
    Accepts (do return f (← reader)) fun result front =>
      ∃ value, result = f value ∧ written value front :=
  first.settle fun value => pure (f value)

/-- A check in front of a reader takes no bytes. -/
theorem check (refused : Prop) [Decidable refused] {next : Unit → ByteReader α}
    (error : ClassFileError) (h : (next ()).Accepts written) :
    Accepts (if refused then MonadExceptOf.throw error >>= next else next ()) fun value front =>
      ¬ refused ∧ written value front := by
  by_cases stopped : refused
  · rw [if_pos stopped]
    intro bytes value rest
    show Except.error error = Except.ok (value, rest) ↔ _
    simp [stopped]
  · rw [if_neg stopped]
    apply h.congr
    simp [stopped]

/-- So many bytes are accepted as they are. -/
theorem take (count : Nat) :
    Accepts (take count) fun value front => value = front ∧ front.length = count := by
  intro bytes value rest
  unfold ByteReader.take
  rw [List.splitAt_eq]
  dsimp only
  constructor
  · intro h
    split_ifs at h with enough
    obtain ⟨rfl, rfl⟩ := Prod.mk.inj (Except.ok.inj h)
    exact ⟨_, (List.take_append_drop count bytes).symm, rfl, enough⟩
  · rintro ⟨front, rfl, rfl, rfl⟩
    simp

/-- **A number is written in its bytes**, most significant first. -/
theorem number {width : Nat} {ofNat : Nat → α} {toNat : α → Nat}
    (toNat_ofNat : ∀ number < 256 ^ width, toNat (ofNat number) = number)
    (ofNat_toNat : ∀ value, ofNat (toNat value) = value)
    (fits : ∀ value, toNat value < 256 ^ width) :
    Accepts (do return ofNat (bigEndian (← ByteReader.take width))) fun value front =>
      front = numberBytes width (toNat value) := by
  apply ((take width).map fun bytes => ofNat (bigEndian bytes)).congr
  intro value front
  constructor
  · rintro ⟨bytes, rfl, rfl, rfl⟩
    rw [toNat_ofNat _ (bigEndian_lt bytes), numberBytes_bigEndian]
  · rintro rfl
    refine ⟨_, ?_, rfl, length_numberBytes ..⟩
    rw [bigEndian_numberBytes (fits value), ofNat_toNat]

/-- A number of one byte is accepted as that byte. -/
theorem u1 : Accepts ByteReader.u1 fun value front => front = [value] := by
  have accepts : Accepts ByteReader.u1 fun value front => front = numberBytes 1 value.toNat := by
    refine number ?_ (fun value => UInt8.ofNat_toNat) fun value => value.toNat_lt
    intro number small
    exact UInt8.toNat_ofNat_of_lt' small
  apply accepts.congr
  intro value front
  simp [numberBytes]

/-- A number of two bytes is accepted as it is spelt. -/
theorem u2 : Accepts ByteReader.u2 fun value front => front = numberBytes 2 value.toNat := by
  refine number ?_ (fun value => UInt16.ofNat_toNat) fun value => value.toNat_lt
  intro number small
  exact UInt16.toNat_ofNat_of_lt' small

/-- A number of four bytes is accepted as it is spelt. -/
theorem u4 : Accepts ByteReader.u4 fun value front => front = numberBytes 4 value.toNat := by
  refine number ?_ (fun value => UInt32.ofNat_toNat) fun value => value.toNat_lt
  intro number small
  exact UInt32.toNat_ofNat_of_lt' small

end Accepts

end ByteReader

end ClassLattice
