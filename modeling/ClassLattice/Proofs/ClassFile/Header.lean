import ClassLattice.ClassFile.Header
import ClassLattice.Proofs.ClassFile.ConstantPool

/-!
# The format of headers

A header is accepted exactly if the bytes begin with the front part of a class file as the format
has it: the magic number, two versions, the constants with the number of their slots, the flags and
the numbers of the class, its superclass and its interfaces, each of which stands for a name.  What
is read from it are these names and the numbers as they are written.
-/

set_option autoImplicit false

namespace ClassLattice

open ByteReader

/-- The front part of a class file as it is written. -/
structure HeaderForm where
  minorVersion : UInt16
  majorVersion : UInt16
  /-- The announced number of slots, with the one that is never used. -/
  count : UInt16
  constants : List PoolEntry
  /-- The constants take all announced slots, and the second slot of the last may be missing. -/
  filled : PoolEntry.totalWidth constants + 1 = count.toNat ∨
    PoolEntry.totalWidth constants = count.toNat ∧ PoolEntry.EndsWide constants
  accessFlags : UInt16
  thisIndex : UInt16
  superIndex : UInt16
  interfaceIndices : List UInt16
  few : interfaceIndices.length < 65536

namespace HeaderForm

/-- The bytes that a form spells. -/
def bytes (form : HeaderForm) : List UInt8 :=
  [0xCA, 0xFE, 0xBA, 0xBE]
    ++ numberBytes 2 form.minorVersion.toNat
    ++ numberBytes 2 form.majorVersion.toNat
    ++ numberBytes 2 form.count.toNat
    ++ form.constants.flatMap PoolEntry.bytes
    ++ numberBytes 2 form.accessFlags.toNat
    ++ numberBytes 2 form.thisIndex.toNat
    ++ numberBytes 2 form.superIndex.toNat
    ++ numberBytes 2 form.interfaceIndices.length
    ++ form.interfaceIndices.flatMap fun index => numberBytes 2 index.toNat

/-- Zero stands for no superclass, and any other number for the class that it names. -/
inductive NamesSuper (names : UInt16 → String → Prop) : UInt16 → Option String → Prop
  | none : NamesSuper names 0 none
  | some {index : UInt16} {name : String} (nonzero : index ≠ 0) (named : names index name) :
      NamesSuper names index (some name)

/-- A header says what is written. -/
structure Describes (form : HeaderForm) (header : ClassHeader) : Prop where
  minorVersion : header.minorVersion = form.minorVersion
  majorVersion : header.majorVersion = form.majorVersion
  accessFlags : header.accessFlags = form.accessFlags
  thisClass : ConstantPool.NamesClass form.constants form.thisIndex header.thisClass
  superClass : NamesSuper (ConstantPool.NamesClass form.constants) form.superIndex
    header.superClass
  interfaces : List.Forall₂ (ConstantPool.NamesClass form.constants) form.interfaceIndices
    header.interfaces

end HeaderForm

namespace ClassHeader

/-- The name of a class is accepted as an index that spells it. -/
theorem accepts_readClassName (pool : ConstantPool) :
    Accepts (readClassName pool) fun name front =>
      ∃ index, pool.Spells index name ∧ front = numberBytes 2 index.toNat := by
  exact Accepts.u2.settle fun index => Accepts.lift (pool.className index)

/-- The name of the superclass is accepted as an index that spells it, or as zero where there is
none. -/
theorem accepts_readSuperClass (pool : ConstantPool) :
    Accepts (readSuperClass pool) fun superClass front =>
      ∃ index, HeaderForm.NamesSuper pool.Spells index superClass ∧
        front = numberBytes 2 index.toNat := by
  refine Accepts.u2.settle fun index => ?_
  by_cases zero : index = 0
  · rw [if_pos zero]
    subst zero
    apply (Accepts.pure none).congr
    intro superClass front
    apply and_congr_left
    intro _
    constructor
    · rintro rfl
      exact .none
    · intro h
      cases h with
      | none => rfl
      | some nonzero => exact absurd rfl nonzero
  · rw [if_neg zero]
    refine Accepts.congr ((Accepts.lift (pool.className index)).map some) ?_
    intro superClass front
    constructor
    · rintro ⟨name, rfl, spelt, rfl⟩
      exact ⟨.some zero spelt, rfl⟩
    · rintro ⟨h, rfl⟩
      cases h with
      | none => exact absurd rfl zero
      | some _ spelt => exact ⟨_, rfl, spelt, rfl⟩

/-- **The names of the interfaces are accepted as indices that spell them**, in their order. -/
theorem accepts_readClassNames (pool : ConstantPool) (count : Nat) (done : List String) :
    Accepts (readClassNames pool count done) fun names front =>
      ∃ indices later, indices.length = count ∧ List.Forall₂ pool.Spells indices later ∧
        names = done.reverse ++ later ∧
        front = indices.flatMap fun index => numberBytes 2 index.toNat := by
  induction count generalizing done with
  | zero =>
    apply (Accepts.pure done.reverse).congr
    intro names front
    constructor
    · rintro ⟨rfl, rfl⟩
      exact ⟨[], [], rfl, .nil, (List.append_nil _).symm, rfl⟩
    · rintro ⟨indices, later, none, spelt, rfl, rfl⟩
      obtain rfl := List.length_eq_zero_iff.1 none
      cases spelt
      exact ⟨List.append_nil _, rfl⟩
  | succ count ih =>
    refine Accepts.congr ((accepts_readClassName pool).bind fun name => ih (name :: done)) ?_
    intro names front
    constructor
    · rintro ⟨name, head, tail, rfl, ⟨index, spelt, rfl⟩, indices, later, rfl, all, rfl, rfl⟩
      exact ⟨index :: indices, name :: later, rfl, .cons spelt all, by simp, rfl⟩
    · rintro ⟨indices, later, length, all, rfl, rfl⟩
      cases all with
      | nil => cases length
      | @cons index name indices later spelt all =>
        refine ⟨name, _, _, rfl, ⟨index, spelt, rfl⟩, indices, later, ?_, all, ?_, rfl⟩
        · exact Nat.succ.inj length
        · simp

/-- **Behind the pool** stand the flags and the numbers of the class, its superclass and its
interfaces. -/
theorem accepts_behindPool (minorVersion majorVersion : UInt16) (pool : ConstantPool) :
    Accepts (do
        let accessFlags ← u2
        let thisClass ← readClassName pool
        let superClass ← readSuperClass pool
        let count ← u2
        let interfaces ← readClassNames pool count.toNat []
        return ClassHeader.mk minorVersion majorVersion accessFlags thisClass superClass interfaces)
      fun header front => ∃ (thisIndex superIndex : UInt16) (indices : List UInt16),
        (header.minorVersion = minorVersion ∧ header.majorVersion = majorVersion) ∧
        pool.Spells thisIndex header.thisClass ∧
        HeaderForm.NamesSuper pool.Spells superIndex header.superClass ∧
        List.Forall₂ pool.Spells indices header.interfaces ∧ indices.length < 65536 ∧
        front = numberBytes 2 header.accessFlags.toNat ++ (numberBytes 2 thisIndex.toNat ++
          (numberBytes 2 superIndex.toNat ++ (numberBytes 2 indices.length ++
            indices.flatMap fun index => numberBytes 2 index.toNat))) := by
  refine Accepts.congr (Accepts.u2.bind fun accessFlags =>
    (accepts_readClassName pool).bind fun thisClass =>
    (accepts_readSuperClass pool).bind fun superClass => Accepts.u2.bind fun count =>
    (accepts_readClassNames pool count.toNat []).map fun interfaces =>
      ClassHeader.mk minorVersion majorVersion accessFlags thisClass superClass interfaces) ?_
  intro header front
  constructor
  · rintro ⟨accessFlags, _, _, rfl, rfl, thisClass, _, _, rfl, ⟨thisIndex, this, rfl⟩, superClass,
      _, _, rfl, ⟨superIndex, super, rfl⟩, count, _, _, rfl, rfl, names, rfl,
      indices, later, length, all, rfl, rfl⟩
    have few : indices.length < 65536 := length ▸ count.toNat_lt
    refine ⟨thisIndex, superIndex, indices, ⟨rfl, rfl⟩, this, super, all, few, ?_⟩
    rw [length]
  · rintro ⟨thisIndex, superIndex, indices, ⟨rfl, rfl⟩, this, super, all, few, rfl⟩
    have length : (UInt16.ofNat indices.length).toNat = indices.length :=
      UInt16.toNat_ofNat_of_lt' few
    refine ⟨header.accessFlags, _, _, rfl, rfl, header.thisClass, _, _, rfl,
      ⟨thisIndex, this, rfl⟩, header.superClass, _, _, rfl, ⟨superIndex, super, rfl⟩,
      UInt16.ofNat indices.length, _, _, rfl, ?_, header.interfaces, rfl, indices,
      header.interfaces, length.symm, all, rfl, rfl⟩
    rw [length]

/-- The magic number is spelt with its four bytes. -/
theorem numberBytes_magic : numberBytes 4 magic.toNat = [0xCA, 0xFE, 0xBA, 0xBE] := by
  decide

/-- **What is read as a header is the front part of a class file.** -/
theorem accepts_read :
    Accepts read fun header front =>
      ∃ form : HeaderForm, form.Describes header ∧ front = form.bytes := by
  have body := Accepts.u2.bind fun minorVersion => Accepts.u2.bind fun majorVersion =>
    ConstantPool.accepts_read.bind (accepts_behindPool minorVersion majorVersion)
  refine Accepts.congr (Accepts.u4.bind fun found =>
    Accepts.check (found ≠ magic) (.wrongMagic found) body) ?_
  intro header front
  constructor
  · rintro ⟨found, _, _, rfl, rfl, isMagic, minorVersion, _, _, rfl, rfl, majorVersion, _, _, rfl,
      rfl, pool, _, _, rfl, ⟨count, entries, fill, rfl, rfl⟩, thisIndex, superIndex, indices,
      ⟨rfl, rfl⟩, this, super, all, few, rfl⟩
    obtain rfl := not_not.1 isMagic
    rw [(ConstantPool.holds_ofEntries fill).spells_eq] at this super all
    let form : HeaderForm :=
      { minorVersion := header.minorVersion
        majorVersion := header.majorVersion
        count
        constants := entries
        filled := (PoolEntry.fill_pred_iff this.ne_nil).1 fill
        accessFlags := header.accessFlags
        thisIndex
        superIndex
        interfaceIndices := indices
        few }
    refine ⟨form, ⟨rfl, rfl, rfl, this, super, all⟩, ?_⟩
    simp [form, HeaderForm.bytes, numberBytes_magic]
  · rintro ⟨form, describes, rfl⟩
    have this := describes.thisClass
    have super := describes.superClass
    have all := describes.interfaces
    have fill := (PoolEntry.fill_pred_iff this.ne_nil).2 form.filled
    rw [← (ConstantPool.holds_ofEntries fill).spells_eq] at this super all
    refine ⟨magic, _, _, ?_, rfl, not_not.2 rfl, form.minorVersion, _, _, rfl, rfl,
      form.majorVersion, _, _, rfl, rfl, _, _, _, rfl, ⟨form.count, form.constants, fill, rfl, rfl⟩,
      form.thisIndex, form.superIndex, form.interfaceIndices,
      ⟨describes.minorVersion, describes.majorVersion⟩, this, super, all, form.few, rfl⟩
    simp [HeaderForm.bytes, numberBytes_magic, describes.accessFlags]

/-- **A header is accepted exactly if the bytes begin with the front part of a class file**, and
says what is written there, whatever follows. -/
theorem parse_eq_ok_iff (bytes : List UInt8) (header : ClassHeader) :
    parse bytes = .ok header ↔
      ∃ (form : HeaderForm) (rest : List UInt8), bytes = form.bytes ++ rest ∧
        form.Describes header := by
  have parsed : parse bytes = .ok header ↔ ∃ rest, read bytes = .ok (header, rest) := by
    unfold parse
    cases read bytes with
    | error error => simp
    | ok found =>
      show Except.ok found.1 = Except.ok header ↔ _
      rw [Except.ok.injEq]
      constructor
      · rintro rfl
        exact ⟨found.2, rfl⟩
      · rintro ⟨rest, same⟩
        cases same
        rfl
  rw [parsed]
  constructor
  · rintro ⟨rest, ran⟩
    obtain ⟨front, rfl, form, describes, rfl⟩ := (accepts_read bytes header rest).1 ran
    exact ⟨form, rest, rfl, describes⟩
  · rintro ⟨form, rest, rfl, describes⟩
    exact ⟨rest, (accepts_read _ header rest).2 ⟨form.bytes, rfl, form, describes, rfl⟩⟩

end ClassHeader

end ClassLattice
