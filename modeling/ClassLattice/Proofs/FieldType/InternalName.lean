import ClassLattice.Hierarchy.Common
import ClassLattice.Proofs.FieldType.Descriptor

/-!
# Internal names are read back

A name is read as the type that has it for its internal name.  Names that begin like that of an
array are read if they are descriptors, and all others unless they are empty or hold a semicolon.
So the name of an array of something that can be read can be read too.

Three kinds of name share one space: codes, descriptors and bare names of objects.  An object is lost
in it if its name is that of a primitive type or begins like a descriptor; a name that is read
back at all is read as the one type that is not lost.
-/

set_option autoImplicit false

namespace ClassLattice

/-- A name that can stand in a descriptor. -/
def IsLegibleName (name : String) : Prop := name ≠ "" ∧ ';' ∉ name.toList

/-- Whether a name is legible can be found out. -/
instance (name : String) : Decidable (IsLegibleName name) := inferInstanceAs (Decidable (_ ∧ _))

/-- A name that is read as a field type. -/
def IsTypeName (name : String) : Prop := ∃ type, FieldType.ofInternalName name = .ok type

variable {type : FieldType} {name : String} {base : BaseType}

/-- The name of a primitive type is legible. -/
theorem BaseType.isLegibleName (base : BaseType) : IsLegibleName base.name := by
  cases base <;> decide

namespace FieldType

/-- What begins with a bracket is read as a descriptor. -/
theorem ofInternalName_of_bracket (bracket : name.toList.head? = some '[') :
    ofInternalName name = ofDescriptor name := by
  unfold ofInternalName
  rw [if_pos bracket]

/-- The descriptor of an array begins with a bracket. -/
theorem head_array (element : FieldType) :
    (array element).descriptor.toList.head? = some '[' := by
  simp [descriptor, descriptorChars]

/-- **What is read has the name for its internal name.** -/
theorem internalName_of_ofInternalName (h : ofInternalName name = .ok type) :
    type.internalName = name := by
  unfold ofInternalName at h
  by_cases bracket : name.toList.head? = some '['
  · rw [if_pos bracket] at h
    obtain ⟨-, rfl⟩ := ofDescriptor_eq_ok_iff.1 h
    cases type with
    | base base => rfl
    | object other => simp [descriptor, descriptorChars] at bracket
    | array element => rfl
  · rw [if_neg bracket] at h
    split at h
    · rename_i base named
      cases h
      exact BaseType.name_of_ofName? named
    · split at h
      · cases h
      · cases h
        rfl

/-- The internal name of the type refers to nothing else, and can be read. -/
def IsUnambiguous : FieldType → Prop
  | .base _ => True
  | .object name =>
    name ≠ "" ∧ ';' ∉ name.toList ∧ name.toList.head? ≠ some '[' ∧
      ∀ base : BaseType, name ≠ base.name
  | .array element => (array element).IsLegible

/-- The letter of a primitive type is read as that type. -/
theorem ofInternalName_base (base : BaseType) : ofInternalName base.name = .ok (.base base) := by
  cases base <;> decide

/-- A name that neither begins like that of an array nor is a code is that of an object. -/
theorem ofInternalName_of_object (bare : name.toList.head? ≠ some '[')
    (noCode : ∀ base : BaseType, name ≠ base.name) :
    ofInternalName name = if name = "" ∨ ';' ∈ name.toList then .error ⟨name⟩
      else .ok (object name) := by
  have unnamed : BaseType.ofName? name = none := by
    cases named : BaseType.ofName? name with
    | none => rfl
    | some base => exact absurd (BaseType.name_of_ofName? named).symm (noCode base)
  unfold ofInternalName
  rw [if_neg bare, unnamed]
  simp

/-- An array is read back if it is legible. -/
theorem ofInternalName_array_iff {element : FieldType} :
    ofInternalName (array element).internalName = .ok (array element) ↔
      (array element).IsLegible := by
  rw [internalName, ofInternalName_of_bracket element.head_array, ofDescriptor_descriptor_iff]
  simp

/-- An object is read back if its name is legible and neither a code nor like that of an array. -/
theorem ofInternalName_object_iff :
    ofInternalName name = .ok (object name) ↔ (object name).IsUnambiguous := by
  by_cases bracket : name.toList.head? = some '['
  · -- What is read from such a name is an array.
    have lost : ofInternalName name ≠ .ok (object name) := by
      intro read
      rw [ofInternalName_of_bracket bracket] at read
      have spelt := (ofDescriptor_eq_ok_iff.1 read).2
      have chars := congrArg (fun text => text.toList.head?) spelt
      simp [bracket, descriptor, descriptorChars] at chars
    simp [lost, IsUnambiguous, bracket]
  · by_cases coded : ∃ base : BaseType, name = base.name
    · obtain ⟨base, rfl⟩ := coded
      simp [ofInternalName_base, IsUnambiguous]
    · have noCode : ∀ base : BaseType, name ≠ base.name := by simpa using coded
      rw [ofInternalName_of_object bracket noCode]
      by_cases refused : name = "" ∨ ';' ∈ name.toList
      · simp only [if_pos refused, IsUnambiguous]
        tauto
      · simp only [if_neg refused, IsUnambiguous]
        tauto

/-- The internal name of a type is read as that type exactly if it is unambiguous. -/
theorem ofInternalName_internalName_iff :
    ofInternalName type.internalName = .ok type ↔ type.IsUnambiguous := by
  cases type with
  | base base =>
    have named : (FieldType.base base).internalName = base.name := rfl
    simp [named, ofInternalName_base, IsUnambiguous]
  | object name => exact ofInternalName_object_iff
  | array element => exact ofInternalName_array_iff

/-- **Reading internal names inverts writing them exactly where they are unambiguous.**  The
internal name of a type is read as that type if and only if the type is primitive, an object with
a legible name that is no code and does not begin like that of an array, or a legible array; and
what is read from any name has that name for its internal name. -/
theorem ofInternalName_inverts_internalName :
    (∀ type : FieldType, ofInternalName type.internalName = .ok type ↔ type.IsUnambiguous) ∧
    ∀ (name : String) (type : FieldType),
      ofInternalName name = .ok type ↔ type.IsUnambiguous ∧ type.internalName = name := by
  constructor
  · intro type
    exact ofInternalName_internalName_iff
  · intro name type
    constructor
    · intro read
      obtain rfl := internalName_of_ofInternalName read
      exact ⟨ofInternalName_internalName_iff.1 read, rfl⟩
    · rintro ⟨unambiguous, rfl⟩
      exact ofInternalName_internalName_iff.2 unambiguous

end FieldType

/-- A name that does not begin like that of an array is read if it is legible. -/
theorem isTypeName_iff_of_bare (bare : name.toList.head? ≠ some '[') :
    IsTypeName name ↔ IsLegibleName name := by
  unfold IsTypeName FieldType.ofInternalName
  rw [if_neg bare]
  cases named : BaseType.ofName? name with
  | some base =>
    obtain rfl := BaseType.name_of_ofName? named
    constructor
    · intro _
      exact base.isLegibleName
    · intro _
      exact ⟨_, rfl⟩
  | none =>
    have legible : IsLegibleName name ↔ ¬ (name = "" ∨ ';' ∈ name.toList) := not_or.symm
    by_cases refused : name = "" ∨ ';' ∈ name.toList
    · simp [legible, refused]
    · simp [legible, refused]

/-- The descriptor of an array of a legible type is the name of a type. -/
theorem isTypeName_descriptor (legible : type.IsLegible) :
    IsTypeName (FieldType.array type).descriptor := by
  refine ⟨.array type, ?_⟩
  rw [FieldType.ofInternalName_of_bracket type.head_array]
  exact FieldType.ofDescriptor_eq_ok_iff.2 ⟨legible, rfl⟩

/-- **The name of an array of what is read is read.** -/
theorem isTypeName_arrayDescriptor (h : IsTypeName name) : IsTypeName (arrayDescriptor name) := by
  by_cases bracket : name.toList.head? = some '['
  · obtain ⟨type, read⟩ := h
    rw [FieldType.ofInternalName_of_bracket bracket] at read
    obtain ⟨legible, rfl⟩ := FieldType.ofDescriptor_eq_ok_iff.1 read
    have same : arrayDescriptor type.descriptor = (FieldType.array type).descriptor := by
      apply String.toList_injective
      simp [arrayDescriptor, bracket]
      simp [FieldType.descriptor, FieldType.descriptorChars]
    rw [same]
    exact isTypeName_descriptor legible
  · have legible := (isTypeName_iff_of_bare bracket).1 h
    have same : arrayDescriptor name = (FieldType.array (.object name)).descriptor := by
      apply String.toList_injective
      simp [arrayDescriptor, bracket, FieldType.descriptor, FieldType.descriptorChars]
    rw [same]
    exact isTypeName_descriptor (FieldType.isLegible_object_iff.2 legible)

/-- The root has the name of a type. -/
theorem isTypeName_rootName : IsTypeName rootName :=
  (isTypeName_iff_of_bare (by decide)).2 ⟨by decide, by decide⟩

end ClassLattice
