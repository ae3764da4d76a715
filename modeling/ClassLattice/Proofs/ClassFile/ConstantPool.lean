import ClassLattice.ClassFile.ConstantPool
import ClassLattice.Proofs.ClassFile.Bytes
import Mathlib.Algebra.Order.BigOperators.Group.List
import Mathlib.Algebra.Order.Group.Nat

/-!
# Constant pools as they are written

A class file writes the constants of its pool one behind the other and numbers the slots that they
take from one.  Reading a pool accepts the rows of constants that fill the announced slots, where
the last one may run one slot over, and what is found under a number is the constant that begins at
that slot.
-/

set_option autoImplicit false

namespace ClassLattice

namespace ConstantKind

/-- The tag byte that announces the kind. -/
def tag : ConstantKind → UInt8
  | utf8 => 1
  | integer => 3
  | float => 4
  | long => 5
  | double => 6
  | classRef => 7
  | string => 8
  | fieldRef => 9
  | methodRef => 10
  | interfaceMethodRef => 11
  | nameAndType => 12
  | methodHandle => 15
  | methodType => 16
  | dynamic => 17
  | invokeDynamic => 18
  | moduleRef => 19
  | packageRef => 20

/-- A tag stands for the kind that has it. -/
theorem ofTag?_eq_some_iff {tag : UInt8} {kind : ConstantKind} :
    ofTag? tag = some kind ↔ tag = kind.tag := by
  constructor
  · intro h
    apply UInt8.toNat_inj.1
    unfold ofTag? at h
    split at h <;> cases h <;> assumption
  · rintro rfl
    cases kind <;> rfl

/-- Every constant takes a slot. -/
theorem width_pos (kind : ConstantKind) : 0 < kind.width := by
  cases kind <;> decide

/-- No constant takes more than two slots. -/
theorem width_le (kind : ConstantKind) : kind.width ≤ 2 := by
  cases kind <;> decide

end ConstantKind

/-- A constant as a class file has it, with all bytes that its kind asks for. -/
inductive PoolEntry where
  | utf8 (bytes : List UInt8) (short : bytes.length < 65536)
  | classRef (nameIndex : UInt16)
  /-- A constant that spells no class name. -/
  | other (kind : ConstantKind) (notUtf8 : kind ≠ .utf8) (notClassRef : kind ≠ .classRef)
      (payload : List UInt8) (full : payload.length = kind.payload)

namespace PoolEntry

/-- The kind of an entry. -/
def kind : PoolEntry → ConstantKind
  | utf8 _ _ => .utf8
  | classRef _ => .classRef
  | other kind _ _ _ _ => kind

/-- The number of slots that the constant takes. -/
def width (entry : PoolEntry) : Nat := entry.kind.width

/-- What is written behind the tag. -/
def content : PoolEntry → List UInt8
  | utf8 bytes _ => ByteReader.numberBytes 2 bytes.length ++ bytes
  | classRef nameIndex => ByteReader.numberBytes 2 nameIndex.toNat
  | other _ _ _ payload _ => payload

/-- The bytes of an entry: its tag and its content. -/
def bytes (entry : PoolEntry) : List UInt8 := entry.kind.tag :: entry.content

/-- What is remembered of the constant. -/
def constant : PoolEntry → Constant
  | utf8 bytes _ => .utf8 bytes
  | classRef nameIndex => .classRef nameIndex
  | other kind _ _ _ _ => .other kind

/-- The constant of an entry is of the kind of the entry. -/
@[simp] theorem kind_constant (entry : PoolEntry) : entry.constant.kind = entry.kind := by
  cases entry <;> rfl

/-- Every entry takes a slot. -/
theorem width_pos (entry : PoolEntry) : 0 < entry.width := entry.kind.width_pos

/-- No entry takes more than two slots. -/
theorem width_le (entry : PoolEntry) : entry.width ≤ 2 := entry.kind.width_le

/-- The number of slots that some constants take. -/
def totalWidth (entries : List PoolEntry) : Nat := (entries.map width).sum

/-- No entries take no slots. -/
@[simp] theorem totalWidth_nil : totalWidth [] = 0 := rfl

/-- An entry takes its slots in front of those of the others. -/
@[simp] theorem totalWidth_cons (entry : PoolEntry) (entries : List PoolEntry) :
    totalWidth (entry :: entries) = entry.width + totalWidth entries := by
  simp [totalWidth]

/-- Where there are entries there are slots. -/
theorem totalWidth_pos {entries : List PoolEntry} (some : entries ≠ []) :
    0 < totalWidth entries := by
  obtain ⟨first, rest, rfl⟩ := List.exists_cons_of_ne_nil some
  rw [totalWidth_cons]
  exact Nat.add_pos_left first.width_pos _

/-- Entries take no fewer slots than any one of them. -/
theorem width_le_totalWidth {entries : List PoolEntry} {entry : PoolEntry}
    (member : entry ∈ entries) : entry.width ≤ totalWidth entries :=
  List.single_le_sum (fun _ _ => Nat.zero_le _) _ (List.mem_map_of_mem member)

/-- A constant begins at a slot, which is numbered from one. -/
def BeginsAt (entries : List PoolEntry) (number : Nat) (entry : PoolEntry) : Prop :=
  ∃ before after, entries = before ++ entry :: after ∧ number = 1 + totalWidth before

/-- Nothing begins where there are no entries. -/
theorem not_beginsAt_nil {number : Nat} {entry : PoolEntry} : ¬ BeginsAt [] number entry := by
  rintro ⟨before, after, split, -⟩
  simp at split

/-- A constant begins at the first slot or behind the slots of the first constant. -/
theorem beginsAt_cons_iff {first entry : PoolEntry} {rest : List PoolEntry} {number : Nat} :
    BeginsAt (first :: rest) number entry ↔
      number = 1 ∧ entry = first ∨
        ∃ later, number = first.width + later ∧ BeginsAt rest later entry := by
  constructor
  · rintro ⟨before, after, split, rfl⟩
    cases before with
    | nil =>
      obtain ⟨rfl, rfl⟩ := List.cons.inj split
      exact .inl ⟨rfl, rfl⟩
    | cons head before =>
      obtain ⟨rfl, rfl⟩ := List.cons.inj split
      refine .inr ⟨1 + totalWidth before, ?_, before, after, rfl, rfl⟩
      rw [totalWidth_cons]
      omega
  · rintro (⟨rfl, rfl⟩ | ⟨later, rfl, before, after, rfl, rfl⟩)
    · exact ⟨[], rest, rfl, rfl⟩
    · refine ⟨first :: before, after, rfl, ?_⟩
      rw [totalWidth_cons]
      omega

/-- No entry begins at index zero. -/
theorem BeginsAt.pos {entries : List PoolEntry} {number : Nat} {entry : PoolEntry}
    (h : BeginsAt entries number entry) : 0 < number := by
  obtain ⟨before, after, -, rfl⟩ := h
  omega

/-- The constants fill a number of slots; the last one may run one slot over. -/
inductive Fill : Nat → List PoolEntry → Prop
  | done : Fill 0 []
  | next {missing : Nat} {entry : PoolEntry} {rest : List PoolEntry} (more : 0 < missing)
      (fill : Fill (missing - entry.width) rest) : Fill missing (entry :: rest)

variable {entries before after : List PoolEntry} {entry : PoolEntry} {missing number : Nat}

/-- The last of some constants, which is wide, begins at the last slot. -/
def EndsWide (entries : List PoolEntry) : Prop :=
  ∃ last, entries.getLast? = some last ∧ last.width = 2

/-- Entries that end with a wide one take two slots. -/
theorem EndsWide.two_le (h : EndsWide entries) : 2 ≤ totalWidth entries := by
  obtain ⟨last, found, wide⟩ := h
  have le := width_le_totalWidth (List.mem_of_getLast? found)
  omega

/-- How entries end is up to those behind the first one. -/
theorem endsWide_cons_iff (more : entries ≠ []) :
    EndsWide (entry :: entries) ↔ EndsWide entries := by
  unfold EndsWide
  rw [List.getLast?_cons_of_ne_nil more]

/-- **Constants fill some slots** exactly if they take as many, or one more and the last of them is
wide. -/
theorem fill_iff :
    Fill missing entries ↔
      totalWidth entries = missing ∨ totalWidth entries = missing + 1 ∧ EndsWide entries := by
  induction entries generalizing missing with
  | nil =>
    constructor
    · intro h
      cases h
      exact .inl rfl
    · rintro (rfl | ⟨-, last, absent, -⟩)
      · exact .done
      · cases absent
  | cons entry rest ih =>
    have positive := entry.width_pos
    have small := entry.width_le
    rw [totalWidth_cons]
    by_cases last : rest = []
    · subst last
      have wide : EndsWide [entry] ↔ entry.width = 2 := by simp [EndsWide]
      rw [wide, totalWidth_nil]
      constructor
      · rintro (_ | ⟨more, fill⟩)
        have left := ih.1 fill
        simp only [totalWidth_nil] at left
        omega
      · intro h
        have more : 0 < missing := by omega
        have filled : missing - entry.width = 0 := by omega
        exact .next more (filled ▸ .done)
    · rw [endsWide_cons_iff last]
      have someLeft : 0 < totalWidth rest := totalWidth_pos last
      constructor
      · rintro (_ | ⟨more, fill⟩)
        rcases ih.1 fill with same | ⟨beyond, wide⟩
        · omega
        · have two := wide.two_le
          refine .inr ⟨?_, wide⟩
          omega
      · intro h
        have more : 0 < missing := by omega
        apply Fill.next more
        apply ih.2
        rcases h with same | ⟨beyond, wide⟩
        · omega
        · have two := wide.two_le
          refine .inr ⟨?_, wide⟩
          omega

/-- Some constants fill the slots that a count announces, of which the first is not used. -/
theorem fill_pred_iff {count : Nat} (some : entries ≠ []) :
    Fill (count - 1) entries ↔
      totalWidth entries + 1 = count ∨ totalWidth entries = count ∧ EndsWide entries := by
  rw [fill_iff]
  have positive : 0 < totalWidth entries := totalWidth_pos some
  constructor
  · rintro (same | ⟨beyond, wide⟩)
    · omega
    · have two := wide.two_le
      refine .inr ⟨?_, wide⟩
      omega
  · rintro (same | ⟨beyond, wide⟩)
    · omega
    · refine .inr ⟨?_, wide⟩
      omega

/-- Every constant begins at one of the slots that are filled. -/
theorem Fill.begins_le (fill : Fill missing entries) (begins : BeginsAt entries number entry) :
    number ≤ missing := by
  obtain ⟨before, after, rfl, rfl⟩ := begins
  induction before generalizing missing with
  | nil =>
    cases fill with
    | next more =>
      rw [totalWidth_nil]
      omega
  | cons first before ih =>
    cases fill with
    | next more fill =>
      have le := ih fill
      rw [totalWidth_cons]
      omega

end PoolEntry

namespace ConstantPool

open ByteReader

/-- What is neither a text nor a class is passed over. -/
theorem readPayload_of_other {kind : ConstantKind} (notUtf8 : kind ≠ .utf8)
    (notClassRef : kind ≠ .classRef) :
    readPayload kind = do
      let _ ← take kind.payload
      return .other kind := by
  cases kind <;> first | rfl | contradiction

/-- **What belongs to a constant is accepted as the content of an entry** of its kind. -/
theorem accepts_readPayload (kind : ConstantKind) :
    Accepts (readPayload kind) fun constant front =>
      ∃ entry : PoolEntry, entry.kind = kind ∧ constant = entry.constant ∧
        front = entry.content := by
  by_cases isUtf8 : kind = .utf8
  · subst isUtf8
    refine Accepts.congr (Accepts.u2.bind fun length =>
      (Accepts.take length.toNat).map Constant.utf8) ?_
    intro constant front
    constructor
    · rintro ⟨length, head, tail, rfl, rfl, bytes, rfl, rfl, full⟩
      have short : bytes.length < 65536 := full ▸ length.toNat_lt
      exact ⟨.utf8 bytes short, rfl, rfl, by simp [PoolEntry.content, full]⟩
    · rintro ⟨entry, same, rfl, rfl⟩
      cases entry with
      | utf8 bytes short =>
        have length : (UInt16.ofNat bytes.length).toNat = bytes.length :=
          UInt16.toNat_ofNat_of_lt' short
        refine ⟨UInt16.ofNat bytes.length, _, bytes, rfl, ?_, bytes, rfl, rfl, length.symm⟩
        rw [length]
      | classRef => cases same
      | other kind notUtf8 => exact absurd same notUtf8
  · by_cases isClassRef : kind = .classRef
    · subst isClassRef
      refine Accepts.congr (Accepts.u2.map Constant.classRef) ?_
      intro constant front
      constructor
      · rintro ⟨index, rfl, rfl⟩
        exact ⟨.classRef index, rfl, rfl, rfl⟩
      · rintro ⟨entry, same, rfl, rfl⟩
        cases entry with
        | utf8 => cases same
        | classRef index => exact ⟨index, rfl, rfl⟩
        | other kind _ notClassRef => exact absurd same notClassRef
    · rw [readPayload_of_other isUtf8 isClassRef]
      refine Accepts.congr ((Accepts.take kind.payload).map fun _ => Constant.other kind) ?_
      intro constant front
      constructor
      · rintro ⟨payload, rfl, rfl, full⟩
        exact ⟨.other kind isUtf8 isClassRef payload full, rfl, rfl, rfl⟩
      · rintro ⟨entry, rfl, rfl, rfl⟩
        cases entry with
        | utf8 => exact absurd rfl isUtf8
        | classRef => exact absurd rfl isClassRef
        | other kind _ _ payload full =>
          exact ⟨payload, rfl, rfl, full⟩

/-- **A constant is its tag and all that the tag asks for.** -/
theorem accepts_readConstant :
    Accepts readConstant fun constant front =>
      ∃ entry : PoolEntry, constant = entry.constant ∧ front = entry.bytes := by
  refine Accepts.congr (Accepts.u1.bind fun tag => (?_ : Accepts _ fun constant front =>
    ∃ entry : PoolEntry, ConstantKind.ofTag? tag = some entry.kind ∧
      constant = entry.constant ∧ front = entry.content)) ?_
  · cases ConstantKind.ofTag? tag with
    | some kind =>
      apply (accepts_readPayload kind).congr
      intro constant front
      simp only [Option.some.injEq, eq_comm]
    | none =>
      apply (Accepts.throw _).congr
      simp
  · intro constant front
    constructor
    · rintro ⟨tag, head, tail, rfl, rfl, entry, announced, rfl, rfl⟩
      obtain rfl := ConstantKind.ofTag?_eq_some_iff.1 announced
      exact ⟨entry, rfl, rfl⟩
    · rintro ⟨entry, rfl, rfl⟩
      have announced := ConstantKind.ofTag?_eq_some_iff.2 (Eq.refl entry.kind.tag)
      exact ⟨entry.kind.tag, _, entry.content, rfl, rfl, entry, announced, rfl, rfl⟩

/-- The slots of some constants, one behind the other. -/
def slotsOfEntries (entries : List PoolEntry) : List (Option Constant) :=
  entries.flatMap fun entry => slotsOf entry.constant

/-- An entry fills its first slot and leaves the second one empty, if it has two. -/
theorem slotsOfEntries_cons (entry : PoolEntry) (rest : List PoolEntry) :
    slotsOfEntries (entry :: rest) =
      some entry.constant :: (List.replicate (entry.width - 1) none ++ slotsOfEntries rest) := by
  simp [slotsOfEntries, slotsOf, PoolEntry.width]

/-- **Reading slots accepts the constants that fill them.** -/
theorem accepts_readSlots (missing : Nat) (slots : Array (Option Constant)) :
    Accepts (readSlots missing slots) fun all front =>
      ∃ entries, PoolEntry.Fill missing entries ∧
        all.toList = slots.toList ++ slotsOfEntries entries ∧
        front = entries.flatMap PoolEntry.bytes := by
  -- A constant takes at least one slot, so the missing slots carry the induction.
  induction missing using Nat.strongRecOn generalizing slots with
  | _ missing ih =>
    rw [readSlots]
    by_cases filled : missing = 0
    · rw [if_pos filled]
      subst filled
      apply (Accepts.pure slots).congr
      intro all front
      constructor
      · rintro ⟨rfl, rfl⟩
        exact ⟨[], .done, (List.append_nil _).symm, rfl⟩
      · rintro ⟨entries, fill, same, rfl⟩
        cases fill with
        | done => exact ⟨Array.toList_inj.1 (same.trans (List.append_nil _)), rfl⟩
        | next more => exact absurd more (Nat.lt_irrefl 0)
    · rw [if_neg filled]
      have fewer (constant : Constant) : missing - constant.kind.width < missing := by
        have positive := constant.kind.width_pos
        omega
      refine Accepts.congr (accepts_readConstant.bind fun constant =>
        ih _ (fewer constant) (slots ++ slotsOf constant)) ?_
      intro all front
      constructor
      · rintro ⟨constant, head, tail, rfl, ⟨entry, rfl, rfl⟩, entries, fill, same, rfl⟩
        rw [PoolEntry.kind_constant] at fill
        refine ⟨entry :: entries, .next (Nat.pos_of_ne_zero filled) fill, ?_, rfl⟩
        rw [same]
        simp [slotsOfEntries]
      · rintro ⟨entries, fill, same, rfl⟩
        cases fill with
        | done => exact absurd rfl filled
        | @next _ entry rest _ fill =>
          refine ⟨entry.constant, entry.bytes, _, rfl, ⟨entry, rfl, rfl⟩, rest, ?_, ?_, rfl⟩
          · rw [PoolEntry.kind_constant]
            exact fill
          · rw [same]
            simp [slotsOfEntries]

/-- **A slot holds the constant that begins there**, and nothing if none does. -/
theorem get?_slotsOfEntries {entries : List PoolEntry} {number : Nat} {constant : Constant} :
    (slotsOfEntries entries)[number]? = some (some constant) ↔
      ∃ entry, PoolEntry.BeginsAt entries (number + 1) entry ∧ entry.constant = constant := by
  induction entries generalizing number with
  | nil => simp [slotsOfEntries, PoolEntry.not_beginsAt_nil]
  | cons first rest ih =>
    have positive := first.width_pos
    rw [slotsOfEntries_cons]
    simp only [PoolEntry.beginsAt_cons_iff]
    cases number with
    | zero =>
      constructor
      · intro h
        have same : first.constant = constant := by simpa using h
        exact ⟨first, .inl ⟨rfl, rfl⟩, same⟩
      · rintro ⟨entry, ⟨-, rfl⟩ | ⟨later, same, begins⟩, rfl⟩
        · rfl
        · have laterPos := begins.pos
          omega
    | succ number =>
      rw [List.getElem?_cons_succ]
      by_cases within : number < first.width - 1
      · rw [List.getElem?_append_left (by simpa using within), List.getElem?_replicate_of_lt within]
        constructor
        · intro h
          simp at h
        · rintro ⟨entry, ⟨one, -⟩ | ⟨later, same, begins⟩, -⟩
          · omega
          · have laterPos := begins.pos
            omega
      · rw [List.getElem?_append_right (by simpa using within), List.length_replicate, ih]
        have behind : number - (first.width - 1) + 1 = number + 1 + 1 - first.width := by omega
        rw [behind]
        constructor
        · rintro ⟨entry, begins, same⟩
          refine ⟨entry, .inr ⟨_, ?_, begins⟩, same⟩
          omega
        · rintro ⟨entry, ⟨one, -⟩ | ⟨later, same, begins⟩, equal⟩
          · omega
          · refine ⟨entry, ?_, equal⟩
            have number : number + 1 + 1 - first.width = later := by omega
            rw [number]
            exact begins

variable {pool : ConstantPool} {entries : List PoolEntry} {index : UInt16} {name : String}

/-- A constant is given out where its slot holds one. -/
theorem constant_eq_ok_iff {constant : Constant} :
    pool.constant index = .ok constant ↔ pool.slots[index.toNat]? = some (some constant) := by
  unfold ConstantPool.constant
  split
  · rename_i found here
    rw [here]
    simp
  · rename_i absent
    constructor
    · intro h
      cases h
    · intro h
      exact absurd h (absent constant)

/-- What is found in a pool under a number is the constant that begins at that slot. -/
def Holds (pool : ConstantPool) (entries : List PoolEntry) : Prop :=
  ∀ index constant, pool.constant index = .ok constant ↔
    ∃ entry, PoolEntry.BeginsAt entries index.toNat entry ∧ entry.constant = constant

/-- The pool that is made of some constants, with an announced number of slots. -/
def ofEntries (count : Nat) (entries : List PoolEntry) : ConstantPool :=
  ⟨((none :: slotsOfEntries entries).take (max count 1)).toArray⟩

/-- **Every constant that fills the announced slots can be found.**  A slot beyond them, which the
last constant may run over to, is not the beginning of any. -/
theorem holds_ofEntries {count : Nat} (fill : PoolEntry.Fill (count - 1) entries) :
    Holds (ofEntries count entries) entries := by
  intro index constant
  rw [constant_eq_ok_iff, ofEntries, List.getElem?_toArray]
  cases index.toNat with
  | zero =>
    constructor
    · intro h
      simp at h
    · rintro ⟨entry, begins, -⟩
      exact absurd begins.pos (Nat.lt_irrefl 0)
  | succ number =>
    rw [List.getElem?_take]
    split_ifs with inside
    · rw [List.getElem?_cons_succ]
      exact get?_slotsOfEntries
    · constructor
      · intro h
        cases h
      · rintro ⟨entry, begins, -⟩
        have within := fill.begins_le begins
        omega

/-- **Reading a pool accepts the announced number of slots and the constants that fill them.** -/
theorem accepts_read :
    Accepts read fun pool front => ∃ (count : UInt16) (entries : List PoolEntry),
      PoolEntry.Fill (count.toNat - 1) entries ∧ pool = ofEntries count.toNat entries ∧
        front = numberBytes 2 count.toNat ++ entries.flatMap PoolEntry.bytes := by
  have taken {count : Nat} {slots : Array (Option Constant)} {entries : List PoolEntry}
      (filled : slots.toList = none :: slotsOfEntries entries) :
      ConstantPool.mk (slots.take (max count 1)) = ofEntries count entries := by
    rw [ofEntries, ← filled]
    apply congrArg ConstantPool.mk
    apply Array.toList_inj.1
    simp
  refine Accepts.congr (Accepts.u2.bind fun count =>
    (accepts_readSlots (count.toNat - 1) #[none]).bind fun slots =>
      Accepts.pure (ConstantPool.mk (slots.take (max count.toNat 1)))) ?_
  intro pool front
  constructor
  · rintro ⟨count, head, tail, rfl, rfl, slots, middle, rest, rfl, ⟨entries, fill, filled, rfl⟩,
      rfl, rfl⟩
    refine ⟨count, entries, fill, taken filled, ?_⟩
    rw [List.append_nil]
  · rintro ⟨count, entries, fill, rfl, rfl⟩
    refine ⟨count, _, _, rfl, rfl, (none :: slotsOfEntries entries).toArray, _, [],
      (List.append_nil _).symm, ⟨entries, fill, rfl, rfl⟩, ?_, rfl⟩
    exact (taken rfl).symm

/-- A number stands for a name: a class constant begins at its slot, and text that can be decoded
begins at the slot that the class constant refers to. -/
def NamesClass (entries : List PoolEntry) (index : UInt16) (name : String) : Prop :=
  ∃ nameIndex bytes short, PoolEntry.BeginsAt entries index.toNat (.classRef nameIndex) ∧
    PoolEntry.BeginsAt entries nameIndex.toNat (.utf8 bytes short) ∧
    Text.decodeModifiedUtf8 bytes = some name

/-- A class has a name only where there are entries. -/
theorem NamesClass.ne_nil (h : NamesClass entries index name) : entries ≠ [] := by
  rintro rfl
  obtain ⟨nameIndex, bytes, short, begins, -⟩ := h
  exact PoolEntry.not_beginsAt_nil begins

/-- A text is found under a number exactly if text that can be decoded is. -/
theorem text_eq_ok_iff :
    pool.text index = .ok name ↔
      ∃ bytes, pool.constant index = .ok (.utf8 bytes) ∧
        Text.decodeModifiedUtf8 bytes = some name := by
  unfold text
  cases pool.constant index with
  | error error => simp [bind, Except.bind]
  | ok constant =>
    cases constant with
    | utf8 bytes =>
      cases decoded : Text.decodeModifiedUtf8 bytes with
      | none => simp [bind, Except.bind, decoded, throw, throwThe, MonadExceptOf.throw]
      | some text => simp [bind, Except.bind, decoded, pure, Except.pure]
    | classRef nameIndex => simp [bind, Except.bind, throw, throwThe, MonadExceptOf.throw]
    | other kind => simp [bind, Except.bind, throw, throwThe, MonadExceptOf.throw]

/-- The name of a class is the text at the index that the constant of the class holds. -/
theorem className_eq_ok_iff :
    pool.className index = .ok name ↔
      ∃ nameIndex, pool.constant index = .ok (.classRef nameIndex) ∧
        pool.text nameIndex = .ok name := by
  unfold className
  cases pool.constant index with
  | error error => simp [bind, Except.bind]
  | ok constant =>
    cases constant with
    | utf8 bytes => simp [bind, Except.bind, throw, throwThe, MonadExceptOf.throw]
    | classRef nameIndex => simp [bind, Except.bind]
    | other kind => simp [bind, Except.bind, throw, throwThe, MonadExceptOf.throw]

/-- A pool gives out a text exactly where an entry with the text begins. -/
theorem Holds.utf8_iff (holds : pool.Holds entries) {bytes : List UInt8} :
    pool.constant index = .ok (.utf8 bytes) ↔
      ∃ short, PoolEntry.BeginsAt entries index.toNat (.utf8 bytes short) := by
  rw [holds]
  constructor
  · rintro ⟨entry, begins, same⟩
    cases entry <;> cases same
    exact ⟨_, begins⟩
  · rintro ⟨short, begins⟩
    exact ⟨_, begins, rfl⟩

/-- A pool gives out a class exactly where an entry for a class begins. -/
theorem Holds.classRef_iff (holds : pool.Holds entries) {nameIndex : UInt16} :
    pool.constant index = .ok (.classRef nameIndex) ↔
      PoolEntry.BeginsAt entries index.toNat (.classRef nameIndex) := by
  rw [holds]
  constructor
  · rintro ⟨entry, begins, same⟩
    cases entry <;> cases same
    exact begins
  · intro begins
    exact ⟨_, begins, rfl⟩

/-- A class name is found under a number. -/
def Spells (pool : ConstantPool) (index : UInt16) (name : String) : Prop :=
  pool.className index = .ok name

/-- **What a number stands for** in a pool that holds some constants. -/
theorem Holds.spells_eq (holds : pool.Holds entries) : pool.Spells = NamesClass entries := by
  funext index name
  apply propext
  rw [Spells, className_eq_ok_iff]
  constructor
  · rintro ⟨nameIndex, reference, spelt⟩
    obtain ⟨bytes, text, decoded⟩ := text_eq_ok_iff.1 spelt
    obtain ⟨short, begins⟩ := holds.utf8_iff.1 text
    exact ⟨nameIndex, bytes, short, holds.classRef_iff.1 reference, begins, decoded⟩
  · rintro ⟨nameIndex, bytes, short, reference, begins, decoded⟩
    refine ⟨nameIndex, holds.classRef_iff.2 reference, text_eq_ok_iff.2 ⟨bytes, ?_, decoded⟩⟩
    exact holds.utf8_iff.2 ⟨short, begins⟩

end ConstantPool

end ClassLattice
