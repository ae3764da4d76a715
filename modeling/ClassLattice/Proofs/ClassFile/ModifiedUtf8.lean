import ClassLattice.Proofs.ClassFile.ConstantPool
import ClassLattice.Proofs.Text.Utf16
import Mathlib.Data.List.Forall2

/-!
# Modified UTF-8 as it is written

The texts of a constant pool are rows of groups of bytes, and each group carries a UTF-16 unit.
Reading accepts the rows whose units are well-formed, and nothing else, whether or not it takes the
short way for characters of one byte.  The groups that writing chooses are among those that reading
takes, so every text is read back.
-/

set_option autoImplicit false

namespace ClassLattice

namespace Text

variable {bytes group rest : List UInt8} {unit : UInt16} {units done : List UInt16}
  {text : String}

/-! ## One group -/

/-- **A group of bytes carries a unit**: one byte carries seven bits, two carry five and six, and
three carry four, six and six. -/
inductive Carries : List UInt8 → UInt16 → Prop
  | one {byte : UInt8} (plain : 0x01 ≤ byte ∧ byte ≤ 0x7F) : Carries [byte] byte.toUInt16
  | two {lead next : UInt8} (leads : 0xC0 ≤ lead ∧ lead ≤ 0xDF)
      (continues : 0x80 ≤ next ∧ next ≤ 0xBF) :
      Carries [lead, next] ((lead.toUInt16 &&& 0x1F) <<< 6 ||| (next.toUInt16 &&& 0x3F))
  | three {lead next last : UInt8} (leads : 0xE0 ≤ lead ∧ lead ≤ 0xEF)
      (continues : 0x80 ≤ next ∧ next ≤ 0xBF) (ends : 0x80 ≤ last ∧ last ≤ 0xBF) :
      Carries [lead, next, last] ((lead.toUInt16 &&& 0x0F) <<< 12 |||
        (next.toUInt16 &&& 0x3F) <<< 6 ||| (last.toUInt16 &&& 0x3F))

/-- Bytes that continue a group are those from 0x80 to 0xBF. -/
theorem isContinuation_iff {byte : UInt8} :
    isContinuation byte = true ↔ 0x80 ≤ byte ∧ byte ≤ 0xBF := by
  unfold isContinuation
  rw [Bool.and_eq_true, decide_eq_true_iff, decide_eq_true_iff]

/-- The low bits of a byte, where its number is cut to them. -/
theorem toNat_lowBits (byte : UInt8) (width : Nat) {mask : UInt16}
    (ones : mask.toNat = 2 ^ width - 1) :
    (byte.toUInt16 &&& mask).toNat = byte.toNat % 2 ^ width := by
  rw [UInt16.toNat_and, UInt8.toNat_toUInt16, ones, Nat.and_two_pow_sub_one_eq_mod]

/-- Low bits that are moved up lose nothing where there is room for them. -/
theorem toNat_lowBits_shiftLeft (byte : UInt8) (width up : Nat) {mask : UInt16}
    (ones : mask.toNat = 2 ^ width - 1) (room : up + width ≤ 16) :
    (byte.toUInt16 &&& mask).toNat <<< up % 65536 = 2 ^ up * (byte.toNat % 2 ^ width) := by
  have small : byte.toNat % 2 ^ width < 2 ^ width := Nat.mod_lt _ (Nat.two_pow_pos width)
  have fits : 2 ^ up * (byte.toNat % 2 ^ width) < 2 ^ 16 :=
    calc 2 ^ up * (byte.toNat % 2 ^ width)
      _ < 2 ^ up * 2 ^ width := Nat.mul_lt_mul_of_pos_left small (Nat.two_pow_pos up)
      _ = 2 ^ (up + width) := (Nat.pow_add 2 up width).symm
      _ ≤ 2 ^ 16 := Nat.pow_le_pow_right (by decide) room
  rw [toNat_lowBits byte width ones, Nat.shiftLeft_eq, Nat.mul_comm]
  exact Nat.mod_eq_of_lt fits

/-- The unit of two bytes has five bits of the first and six of the second one. -/
theorem unitOfTwo_eq (lead next : UInt8) :
    unitOfTwo lead next = (lead.toUInt16 &&& 0x1F) <<< 6 ||| (next.toUInt16 &&& 0x3F) := by
  apply UInt16.toNat_inj.1
  have high : (lead.toUInt16 &&& 0x1F).toNat <<< 6 % 65536 = 2 ^ 6 * (lead.toNat % 0x20) :=
    toNat_lowBits_shiftLeft lead 5 6 rfl (by decide)
  have low : (next.toUInt16 &&& 0x3F).toNat = next.toNat % 0x40 :=
    toNat_lowBits next 6 rfl
  have fits : lead.toNat % 0x20 * 0x40 + next.toNat % 0x40 < 65536 := by omega
  rw [UInt16.toNat_or, UInt16.toNat_shiftLeft]
  show (UInt16.ofNat _).toNat = (lead.toUInt16 &&& 0x1F).toNat <<< 6 % 65536 ||| _
  rw [UInt16.toNat_ofNat_of_lt' fits, high, low,
    ← Nat.two_pow_add_eq_or_of_lt (Nat.mod_lt _ (by decide)), Nat.mul_comm]

/-- The unit of three bytes has four bits of the first and six of each other one. -/
theorem unitOfThree_eq (lead next last : UInt8) :
    unitOfThree lead next last = (lead.toUInt16 &&& 0x0F) <<< 12 |||
      (next.toUInt16 &&& 0x3F) <<< 6 ||| (last.toUInt16 &&& 0x3F) := by
  apply UInt16.toNat_inj.1
  have high : (lead.toUInt16 &&& 0x0F).toNat <<< 12 % 65536 = 2 ^ 12 * (lead.toNat % 0x10) :=
    toNat_lowBits_shiftLeft lead 4 12 rfl (by decide)
  have middle : (next.toUInt16 &&& 0x3F).toNat <<< 6 % 65536 = 2 ^ 6 * (next.toNat % 0x40) :=
    toNat_lowBits_shiftLeft next 6 6 rfl (by decide)
  have low : (last.toUInt16 &&& 0x3F).toNat = last.toNat % 0x40 :=
    toNat_lowBits last 6 rfl
  have fits : lead.toNat % 0x10 * 0x1000 + next.toNat % 0x40 * 0x40 + last.toNat % 0x40 < 65536 :=
    by omega
  have behind : 2 ^ 6 * (next.toNat % 0x40) + last.toNat % 0x40 < 2 ^ 12 := by omega
  rw [UInt16.toNat_or, UInt16.toNat_or, UInt16.toNat_shiftLeft, UInt16.toNat_shiftLeft]
  show (UInt16.ofNat _).toNat = (lead.toUInt16 &&& 0x0F).toNat <<< 12 % 65536 |||
    (next.toUInt16 &&& 0x3F).toNat <<< 6 % 65536 ||| _
  rw [UInt16.toNat_ofNat_of_lt' fits, high, middle, low, Nat.or_assoc,
    ← Nat.two_pow_add_eq_or_of_lt (Nat.mod_lt _ (by decide)),
    ← Nat.two_pow_add_eq_or_of_lt behind]
  omega

/-- A group in front is taken off with its unit. -/
theorem Carries.takeGroup_append (h : Carries group unit) (rest : List UInt8) :
    takeGroup (group ++ rest) = some (unit, rest) := by
  cases h with
  | one plain => simp [takeGroup, plain]
  | @two lead next leads continues =>
    have notPlain : ¬ lead ≤ 0x7F :=
      UInt8.not_le.2 (UInt8.lt_of_lt_of_le (by decide) leads.1)
    rw [← unitOfTwo_eq]
    simp [takeGroup, notPlain, leads, isContinuation_iff.2 continues]
  | @three lead next last leads continues ends =>
    have notPlain : ¬ lead ≤ 0x7F :=
      UInt8.not_le.2 (UInt8.lt_of_lt_of_le (by decide) leads.1)
    have notTwo : ¬ lead ≤ 0xDF :=
      UInt8.not_le.2 (UInt8.lt_of_lt_of_le (by decide) leads.1)
    rw [← unitOfThree_eq]
    simp [takeGroup, notPlain, notTwo, leads, isContinuation_iff.2 continues,
      isContinuation_iff.2 ends]

/-- What is taken off is a group. -/
theorem carries_of_takeGroup :
    takeGroup bytes = some (unit, rest) → ∃ group, bytes = group ++ rest ∧ Carries group unit := by
  fun_cases takeGroup bytes with
  | case1 => exact nofun
  | case2 lead more plain =>
    rintro ⟨⟩
    simp only [Bool.and_eq_true, decide_eq_true_iff] at plain
    exact ⟨[lead], rfl, .one plain⟩
  | case3 lead notPlain leads next more continues =>
    rintro ⟨⟩
    simp only [Bool.and_eq_true, decide_eq_true_iff] at leads
    rw [isContinuation_iff] at continues
    refine ⟨[lead, next], rfl, ?_⟩
    rw [unitOfTwo_eq]
    exact .two leads continues
  | case4 => exact nofun
  | case5 => exact nofun
  | case6 lead notPlain notTwo leads next last more continuing =>
    rintro ⟨⟩
    simp only [Bool.and_eq_true, decide_eq_true_iff] at leads
    rw [Bool.and_eq_true, isContinuation_iff, isContinuation_iff] at continuing
    refine ⟨[lead, next, last], rfl, ?_⟩
    rw [unitOfThree_eq]
    exact .three leads continuing.1 continuing.2
  | case7 => exact nofun
  | case8 => exact nofun
  | case9 => exact nofun

/-! ## Rows of groups -/

/-- **The bytes split into groups** that carry the units. -/
def SplitsInto (bytes : List UInt8) (units : List UInt16) : Prop :=
  ∃ groups : List (List UInt8), bytes = groups.flatten ∧ List.Forall₂ Carries groups units

/-- Groups are read one after the other. -/
theorem readGroups_of_takeGroup (h : takeGroup bytes = some (unit, rest)) (done : List UInt16) :
    readGroups bytes done = readGroups rest (unit :: done) := by
  cases bytes with
  | nil => cases h
  | cons byte more =>
    rw [readGroups]
    split
    · next none =>
      rw [none] at h
      cases h
    · next found =>
      rw [found] at h
      cases h
      rfl

/-- **The groups of a row are read into their units.** -/
theorem readGroups_flatten {groups : List (List UInt8)} (row : List.Forall₂ Carries groups units)
    (done : List UInt16) : readGroups groups.flatten done = some (done.reverse ++ units) := by
  induction row generalizing done with
  | nil => simp [readGroups]
  | @cons group unit groups units carries row ih =>
    rw [List.flatten_cons, readGroups_of_takeGroup (carries.takeGroup_append _), ih]
    simp

/-- **What is read to its end is a row of groups.** -/
theorem splitsInto_of_readGroups (h : readGroups bytes done = some units) :
    ∃ later, units = done.reverse ++ later ∧ SplitsInto bytes later := by
  fun_induction readGroups bytes done with
  | case1 done =>
    cases h
    exact ⟨[], (List.append_nil _).symm, [], rfl, .nil⟩
  | case2 done byte more none => cases h
  | case3 done byte more unit rest found _ ih =>
    obtain ⟨later, rfl, groups, rfl, row⟩ := ih h
    obtain ⟨group, same, carries⟩ := carries_of_takeGroup found
    exact ⟨unit :: later, by simp, group :: groups, same, .cons carries row⟩

/-- **Units are read from bytes exactly if the bytes split into groups that carry them.** -/
theorem readGroups_eq_some_iff : readGroups bytes [] = some units ↔ SplitsInto bytes units := by
  constructor
  · intro h
    obtain ⟨later, rfl, splits⟩ := splitsInto_of_readGroups h
    exact splits
  · rintro ⟨groups, rfl, row⟩
    exact readGroups_flatten row []

/-- The text of a byte sequence by its groups is the text whose units the groups carry. -/
theorem decodeGroups_eq_some_iff :
    decodeGroups bytes = some text ↔ SplitsInto bytes (utf16Units text.toList) := by
  unfold decodeGroups
  constructor
  · intro h
    obtain ⟨units, read, h⟩ := Option.bind_eq_some_iff.1 h
    obtain ⟨chars, decoded, h⟩ := Option.bind_eq_some_iff.1 h
    cases h
    rw [String.toList_ofList, charsOfUtf16?_eq_some_iff.1 decoded]
    exact readGroups_eq_some_iff.1 read
  · intro splits
    rw [readGroups_eq_some_iff.2 splits, Option.bind_eq_bind, Option.bind_some,
      charsOfUtf16?_eq_some_iff.2 rfl, Option.bind_eq_bind, Option.bind_some, String.ofList_toList]
    rfl

/-! ## The short way -/

/-- A byte that is a character by itself. -/
def charOfByte (byte : UInt8) : Char := Char.ofNat byte.toNat

/-- A plain byte is its own encoding. -/
theorem utf8EncodeChar_charOfByte {byte : UInt8} (plain : byte ≤ 0x7F) :
    String.utf8EncodeChar (charOfByte byte) = [byte] := by
  rw [UInt8.le_iff_toNat_le] at plain
  have small : byte.toNat ≤ 127 := plain
  have number : (charOfByte byte).val.toNat = byte.toNat := by
    apply toNat_charOfNat
    unfold Nat.isValidChar
    omega
  unfold String.utf8EncodeChar
  rw [number, if_pos small, UInt8.ofNat_toNat]

/-- The one unit of a plain byte is the byte itself. -/
theorem unitsOfChar_charOfByte {byte : UInt8} (plain : byte ≤ 0x7F) :
    unitsOfChar (charOfByte byte) = [byte.toUInt16] := by
  rw [UInt8.le_iff_toNat_le] at plain
  have small : byte.toUInt16.toNat ≤ 127 := plain
  rw [charOfByte, ← UInt8.toNat_toUInt16]
  apply unitsOfChar_charOfUnit
  · rw [isHighSurrogate_iff]
    omega
  · rw [isLowSurrogate_iff]
    omega

/-- Bytes that are characters by themselves are the UTF-8 of these characters. -/
theorem fromUTF8?_of_plain (plain : ∀ byte ∈ bytes, 0x01 ≤ byte ∧ byte ≤ 0x7F) :
    String.fromUTF8? bytes.toByteArray = some (String.ofList (bytes.map charOfByte)) := by
  have same : bytes.toByteArray = (bytes.map charOfByte).utf8Encode := by
    unfold List.utf8Encode
    rw [List.flatMap_map]
    congr 1
    induction bytes with
    | nil => rfl
    | cons byte bytes ih =>
      rw [List.flatMap_cons, utf8EncodeChar_charOfByte (plain byte (List.mem_cons_self ..)).2,
        ← ih fun later member => plain later (List.mem_cons_of_mem _ member)]
      rfl
  unfold String.fromUTF8?
  simp only [same]
  rw [dif_pos]
  · rfl
  · exact ByteArray.isValidUTF8_utf8Encode

/-- They are also groups of one byte each. -/
theorem splitsInto_of_plain (plain : ∀ byte ∈ bytes, 0x01 ≤ byte ∧ byte ≤ 0x7F) :
    SplitsInto bytes (utf16Units (bytes.map charOfByte)) := by
  induction bytes with
  | nil => exact ⟨[], rfl, .nil⟩
  | cons byte bytes ih =>
    have here := plain byte (List.mem_cons_self ..)
    obtain ⟨groups, same, row⟩ := ih fun later member => plain later (List.mem_cons_of_mem _ member)
    refine ⟨[byte] :: groups, ?_, ?_⟩
    · rw [same]
      rfl
    · rw [List.map_cons, utf16Units_cons, unitsOfChar_charOfByte here.2]
      exact .cons (.one here) row

/-- **The short way ends where the groups lead.** -/
theorem fromUTF8?_eq_decodeGroups (plain : ∀ byte ∈ bytes, 0x01 ≤ byte ∧ byte ≤ 0x7F) :
    String.fromUTF8? bytes.toByteArray = decodeGroups bytes := by
  rw [fromUTF8?_of_plain plain, eq_comm, decodeGroups_eq_some_iff, String.toList_ofList]
  exact splitsInto_of_plain plain

/-- A byte is plain if it is one of ASCII other than zero. -/
theorem plain_iff {byte : UInt8} :
    (byte != 0 && byte < 0x80) = true ↔ 0x01 ≤ byte ∧ byte ≤ 0x7F := by
  rw [Bool.and_eq_true, bne_iff_ne, decide_eq_true_iff, ne_eq, ← UInt8.toNat_inj,
    UInt8.lt_iff_toNat_lt, UInt8.le_iff_toNat_le, UInt8.le_iff_toNat_le]
  show ¬ byte.toNat = 0 ∧ byte.toNat < 128 ↔ 1 ≤ byte.toNat ∧ byte.toNat ≤ 127
  omega

/-- The fast way is open to plain bytes only. -/
theorem all_plain_iff :
    (bytes.all fun byte => byte != 0 && byte < 0x80) = true ↔
      ∀ byte ∈ bytes, 0x01 ≤ byte ∧ byte ≤ 0x7F := by
  simp only [List.all_eq_true, plain_iff]

/-- So the way makes no difference. -/
theorem decodeModifiedUtf8_eq_decodeGroups (bytes : List UInt8) :
    decodeModifiedUtf8 bytes = decodeGroups bytes := by
  unfold decodeModifiedUtf8
  by_cases short : bytes.all fun byte => byte != 0 && byte < 0x80
  · rw [if_pos short]
    exact fromUTF8?_eq_decodeGroups (all_plain_iff.1 short)
  · rw [if_neg short]

/-- **The texts of byte sequences** are the texts whose units the groups of the bytes carry. -/
theorem decodeModifiedUtf8_eq_some_iff :
    decodeModifiedUtf8 bytes = some text ↔ SplitsInto bytes (utf16Units text.toList) := by
  rw [decodeModifiedUtf8_eq_decodeGroups, decodeGroups_eq_some_iff]

/-- Bytes have a text exactly if they split into groups with well-formed units. -/
theorem exists_decodeModifiedUtf8_iff :
    (∃ text, decodeModifiedUtf8 bytes = some text) ↔
      ∃ units, SplitsInto bytes units ∧ WellFormedUtf16 units := by
  constructor
  · rintro ⟨text, decoded⟩
    refine ⟨_, decodeModifiedUtf8_eq_some_iff.1 decoded, ?_⟩
    exact wellFormedUtf16_iff.2 ⟨text.toList, rfl⟩
  · rintro ⟨units, splits, wellFormed⟩
    obtain ⟨chars, rfl⟩ := wellFormedUtf16_iff.1 wellFormed
    refine ⟨String.ofList chars, decodeModifiedUtf8_eq_some_iff.2 ?_⟩
    rw [String.toList_ofList]
    exact splits

end Text

/-- The text at the index of a text is what its bytes decode to. -/
theorem ConstantPool.text_of_utf8 {pool : ConstantPool} {index : UInt16} {bytes : List UInt8}
    (h : pool.constant index = .ok (.utf8 bytes)) :
    pool.text index = (Text.decodeModifiedUtf8 bytes).elim (.error .invalidText) .ok := by
  unfold text
  rw [h]
  cases decoded : Text.decodeModifiedUtf8 bytes with
  | none => simp [bind, Except.bind, decoded, throw, throwThe, MonadExceptOf.throw]
  | some text => simp [bind, Except.bind, decoded, pure, Except.pure]

namespace Text

/-- **Reading accepts the syntax of modified UTF-8 and nothing else.**  Bytes have a text exactly
if they split into groups with well-formed units, and the text is then the one with these units.
The short way for bytes that are characters by themselves ends where the groups lead.  In a
constant pool the bytes are otherwise refused as invalid. -/
theorem decodeModifiedUtf8_accepts (bytes : List UInt8) :
    (∀ text, decodeModifiedUtf8 bytes = some text ↔ ∃ units, SplitsInto bytes units ∧
      WellFormedUtf16 units ∧ utf16Units text.toList = units) ∧
    (decodeModifiedUtf8 bytes = none ↔
      ¬ ∃ units, SplitsInto bytes units ∧ WellFormedUtf16 units) ∧
    ((∀ byte ∈ bytes, 0x01 ≤ byte ∧ byte ≤ 0x7F) →
      decodeModifiedUtf8 bytes = String.fromUTF8? bytes.toByteArray ∧
      String.fromUTF8? bytes.toByteArray = decodeGroups bytes) ∧
    ∀ pool index, ConstantPool.constant pool index = .ok (.utf8 bytes) →
      pool.text index = (decodeModifiedUtf8 bytes).elim (.error .invalidText) .ok := by
  refine ⟨?_, ?_, ?_, ?_⟩
  · intro text
    rw [decodeModifiedUtf8_eq_some_iff]
    constructor
    · intro splits
      exact ⟨_, splits, wellFormedUtf16_iff.2 ⟨text.toList, rfl⟩, rfl⟩
    · rintro ⟨units, splits, -, rfl⟩
      exact splits
  · rw [← exists_decodeModifiedUtf8_iff, Option.eq_none_iff_forall_ne_some, not_exists]
  · intro plain
    constructor
    · unfold decodeModifiedUtf8
      rw [if_pos (all_plain_iff.2 plain)]
    · exact fromUTF8?_eq_decodeGroups plain
  · intro pool index h
    exact ConstantPool.text_of_utf8 h

/-- A group may be longer than its unit needs, but a surrogate may not stand alone. -/
example : decodeModifiedUtf8 [0xC1, 0x81] = some "A" ∧
    decodeModifiedUtf8 [0xED, 0xA0, 0x80] = none := by
  decide +kernel

/-! ## Writing and reading -/

/-- A small number is the number of its byte. -/
theorem toNat_toUInt8 {number : Nat} (small : number < 256) : number.toUInt8.toNat = number :=
  UInt8.toNat_ofNat_of_lt' small

/-- A number in a range of bytes is a byte in that range. -/
theorem toUInt8_between {low number high : Nat} (least : low ≤ number) (most : number ≤ high)
    (small : high < 256) : low.toUInt8 ≤ number.toUInt8 ∧ number.toUInt8 ≤ high.toUInt8 := by
  rw [UInt8.le_iff_toNat_le, UInt8.le_iff_toNat_le, toNat_toUInt8 small,
    toNat_toUInt8 (by omega), toNat_toUInt8 (by omega)]
  exact ⟨least, most⟩

/-- **The group that writing chooses carries its unit.** -/
theorem carries_bytesOfUnit (unit : UInt16) : Carries (bytesOfUnit unit) unit := by
  have fits : unit.toNat < 65536 := unit.toNat_lt
  have next : (0x80 : Nat).toUInt8 ≤ (0x80 + unit.toNat % 0x40).toUInt8 ∧
      (0x80 + unit.toNat % 0x40).toUInt8 ≤ (0xBF : Nat).toUInt8 :=
    toUInt8_between (by omega) (by omega) (by decide)
  have low : (0x80 + unit.toNat % 0x40).toUInt8.toNat = 0x80 + unit.toNat % 0x40 :=
    toNat_toUInt8 (by omega)
  unfold bytesOfUnit
  dsimp only
  split_ifs with one two
  · have carries := Carries.one (toUInt8_between (by omega : 0x01 ≤ unit.toNat)
      (by omega : unit.toNat ≤ 0x7F) (by decide))
    have same : unit.toNat.toUInt8.toUInt16 = unit := by
      apply UInt16.toNat_inj.1
      rw [UInt8.toNat_toUInt16, toNat_toUInt8 (by omega)]
    rwa [same] at carries
  · have carries := Carries.two (toUInt8_between (by omega : 0xC0 ≤ 0xC0 + unit.toNat / 0x40)
      (by omega : 0xC0 + unit.toNat / 0x40 ≤ 0xDF) (by decide)) next
    have same : unitOfTwo (0xC0 + unit.toNat / 0x40).toUInt8 (0x80 + unit.toNat % 0x40).toUInt8 =
        unit := by
      unfold unitOfTwo
      rw [toNat_toUInt8 (by omega), low]
      apply UInt16.toNat_inj.1
      show (UInt16.ofNat _).toNat = _
      rw [UInt16.toNat_ofNat_of_lt' (by rw [UInt16.size]; omega)]
      omega
    rwa [← unitOfTwo_eq, same] at carries
  · have carries := Carries.three
      (toUInt8_between (by omega : 0xE0 ≤ 0xE0 + unit.toNat / 0x1000)
        (by omega : 0xE0 + unit.toNat / 0x1000 ≤ 0xEF) (by decide))
      (toUInt8_between (by omega : 0x80 ≤ 0x80 + unit.toNat / 0x40 % 0x40)
        (by omega : 0x80 + unit.toNat / 0x40 % 0x40 ≤ 0xBF) (by decide)) next
    have same : unitOfThree (0xE0 + unit.toNat / 0x1000).toUInt8
        (0x80 + unit.toNat / 0x40 % 0x40).toUInt8 (0x80 + unit.toNat % 0x40).toUInt8 = unit := by
      unfold unitOfThree
      rw [toNat_toUInt8 (by omega), toNat_toUInt8 (by omega), low]
      apply UInt16.toNat_inj.1
      show (UInt16.ofNat _).toNat = _
      rw [UInt16.toNat_ofNat_of_lt' (by rw [UInt16.size]; omega)]
      omega
    rwa [← unitOfThree_eq, same] at carries

/-- A text that is written splits into the groups of its units. -/
theorem splitsInto_encodeModifiedUtf8 (text : String) :
    SplitsInto (encodeModifiedUtf8 text) (utf16Units text.toList) := by
  refine ⟨(utf16Units text.toList).map bytesOfUnit, rfl, ?_⟩
  rw [List.forall₂_map_left_iff, List.forall₂_same]
  intro unit _
  exact carries_bytesOfUnit unit

/-- **Every text survives writing and reading**, with the null character and characters above
`U+FFFF`. -/
theorem decodeModifiedUtf8_encodeModifiedUtf8 (text : String) :
    decodeModifiedUtf8 (encodeModifiedUtf8 text) = some text := by
  rw [decodeModifiedUtf8_eq_decodeGroups, decodeGroups_eq_some_iff]
  exact splitsInto_encodeModifiedUtf8 text

end Text

end ClassLattice
