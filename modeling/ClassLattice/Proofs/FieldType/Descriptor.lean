import ClassLattice.FieldType.Parser
import Mathlib.Data.List.TakeDrop
import Mathlib.Data.List.TakeWhile

/-!
# Descriptors are read back

The descriptor of a type can be read back if the name of the object at its core, if there is one,
is not empty and holds no semicolon.  Reading takes exactly such descriptors off the front of a
text, so that a text is accepted as a whole exactly if it is the descriptor of such a type.

No two types have the same descriptor, legible or not.  So the descriptor of a type that is not
legible is not read as another type either, but refused.
-/

set_option autoImplicit false

namespace ClassLattice

namespace BaseType

/-- No two primitive types have the same letter. -/
theorem code_injective : Function.Injective code := by
  intro base other same
  apply Option.some.inj
  rw [← ofCode?_code base, ← ofCode?_code other, same]

/-- No primitive type has the letter of arrays. -/
theorem code_ne_bracket (base : BaseType) : base.code ≠ '[' := by
  cases base <;> decide

end BaseType

namespace FieldType

variable {type : FieldType} {name text : String} {chars rest : List Char}

/-- The name of the object at the core of the type, if there is one, can stand in a descriptor. -/
def IsLegible (type : FieldType) : Prop :=
  ∀ name, type.leaf = .object name → name ≠ "" ∧ ';' ∉ name.toList

/-- Primitive types are legible. -/
theorem isLegible_base (base : BaseType) : (FieldType.base base).IsLegible := by
  intro name leaf
  cases leaf

/-- An object is legible if its name is not empty and has no semicolon. -/
theorem isLegible_object_iff : (object name).IsLegible ↔ name ≠ "" ∧ ';' ∉ name.toList := by
  constructor
  · intro legible
    exact legible name rfl
  · intro readable other leaf
    cases leaf
    exact readable

/-- What is read up to the first semicolon. -/
theorem span_semicolon_iff {front after : List Char} {mark : Char} :
    chars.span (· != ';') = (front, mark :: after) ↔
      chars = front ++ ';' :: after ∧ ';' ∉ front ∧ mark = ';' := by
  rw [List.span_eq_takeWhile_dropWhile, Prod.mk.injEq]
  constructor
  · rintro ⟨taken, left⟩
    have stop : mark = ';' := by
      have head := List.head?_dropWhile_not (fun c => c != ';') chars
      simpa [left] using head
    have all := List.takeWhile_append_dropWhile (p := (· != ';')) (l := chars)
    rw [taken, left, stop] at all
    refine ⟨all.symm, ?_, stop⟩
    intro member
    rw [← taken] at member
    simpa using List.mem_takeWhile_imp member
  · rintro ⟨rfl, new, rfl⟩
    have inFront : ∀ c ∈ front, (c != ';') = true := by
      intro c member
      simp only [bne_iff_ne]
      rintro rfl
      exact new member
    rw [List.takeWhile_append_of_pos inFront, List.dropWhile_append_of_pos inFront]
    simp

/-- **A descriptor is read back**, whatever follows it. -/
theorem takeDescriptor_descriptorChars (legible : type.IsLegible) (rest : List Char) :
    takeDescriptor (type.descriptorChars ++ rest) = .ok (type, rest) := by
  induction type with
  | base base => cases base <;> rfl
  | object name =>
    obtain ⟨nonempty, noSemicolon⟩ := isLegible_object_iff.1 legible
    cases chars : name.toList with
    | nil => exact absurd (String.toList_eq_nil_iff.1 chars) nonempty
    | cons first others =>
      have spanned : (first :: others ++ ';' :: rest).span (· != ';') =
          (first :: others, ';' :: rest) :=
        span_semicolon_iff.2 ⟨rfl, chars ▸ noSemicolon, rfl⟩
      have all : (object name).descriptorChars ++ rest =
          'L' :: (first :: others ++ ';' :: rest) := by
        simp [descriptorChars, chars]
      rw [all, takeDescriptor, spanned]
      simp only [← chars, String.ofList_toList]
  | array element ih =>
    rw [descriptorChars, List.cons_append, takeDescriptor, ih legible]
    rfl

/-- **What is read is a descriptor.** -/
theorem eq_of_takeDescriptor (h : takeDescriptor chars = .ok (type, rest)) :
    type.IsLegible ∧ chars = type.descriptorChars ++ rest := by
  induction chars using takeDescriptor.induct generalizing type rest with
  | case1 => cases h
  | case2 inner ih =>
    rw [takeDescriptor] at h
    cases read : takeDescriptor inner with
    | error fault => simp [read, bind, Except.bind] at h
    | ok found =>
      obtain ⟨element, left⟩ := found
      simp only [read, bind, Except.bind, pure, Except.pure, Except.ok.injEq, Prod.mk.injEq] at h
      obtain ⟨rfl, rfl⟩ := h
      obtain ⟨legible, same⟩ := ih read
      exact ⟨legible, by rw [same]; rfl⟩
  | case3 inner first others mark after spanned =>
    rw [takeDescriptor, spanned] at h
    simp only [Except.ok.injEq, Prod.mk.injEq] at h
    obtain ⟨rfl, rfl⟩ := h
    obtain ⟨rfl, noSemicolon, -⟩ := span_semicolon_iff.1 spanned
    constructor
    · apply isLegible_object_iff.2
      simp [noSemicolon]
    · simp [descriptorChars]
  | case4 inner unnamed =>
    rw [takeDescriptor] at h
    split at h
    · rename_i spanned
      exact absurd spanned (unnamed _ _ _ _)
    · cases h
  | case5 code inner notBracket notObject base coded =>
    rw [takeDescriptor, coded] at h
    · simp only [Except.ok.injEq, Prod.mk.injEq] at h
      obtain ⟨rfl, rfl⟩ := h
      refine ⟨isLegible_base base, ?_⟩
      rw [descriptorChars, BaseType.code_of_ofCode? coded]
      rfl
    · exact notBracket
    · exact notObject
  | case6 code inner notBracket notObject unknown =>
    rw [takeDescriptor, unknown] at h
    · cases h
    · exact notBracket
    · exact notObject

/-- **The texts that are accepted** are the descriptors of the types that are legible. -/
theorem ofDescriptor_eq_ok_iff :
    ofDescriptor text = .ok type ↔ type.IsLegible ∧ text = type.descriptor := by
  unfold ofDescriptor
  constructor
  · intro h
    cases read : takeDescriptor text.toList with
    | error fault => simp [read, bind, Except.bind] at h
    | ok found =>
      obtain ⟨other, rest⟩ := found
      simp only [read, bind, Except.bind] at h
      split_ifs at h with ended
      cases h
      obtain ⟨legible, same⟩ := eq_of_takeDescriptor read
      refine ⟨legible, ?_⟩
      rw [List.isEmpty_iff.1 ended, List.append_nil] at same
      rw [descriptor, ← same, String.ofList_toList]
  · rintro ⟨legible, rfl⟩
    have read := takeDescriptor_descriptorChars legible []
    rw [List.append_nil] at read
    rw [descriptor, String.toList_ofList, read]
    rfl

/-! ## The written form -/

/-- No array is left below all array layers. -/
theorem leaf_ne_array (type element : FieldType) : type.leaf ≠ .array element := by
  induction type with
  | base | object => simp [leaf]
  | array inner ih => simpa [leaf] using ih

/-- Array layers leave what is below them. -/
theorem leaf_arrays (layers : Nat) (type : FieldType) : (type.arrays layers).leaf = type.leaf := by
  induction layers with
  | zero => simp [arrays]
  | succ layers ih => simp [arrays, leaf, ih]

/-- The descriptor of a type is that of its leaf behind a bracket for each layer. -/
theorem descriptorChars_eq_leaf (type : FieldType) :
    type.descriptorChars =
      List.replicate type.dimensions '[' ++ type.leaf.descriptorChars := by
  induction type with
  | base | object => simp [dimensions, leaf]
  | array element ih =>
    rw [descriptorChars, ih]
    simp [dimensions, leaf, List.replicate_succ]

/-- Array layers are written as brackets in front. -/
theorem descriptorChars_arrays (layers : Nat) (type : FieldType) :
    (type.arrays layers).descriptorChars =
      List.replicate layers '[' ++ type.descriptorChars := by
  induction layers with
  | zero => simp [arrays]
  | succ layers ih => simp [arrays, descriptorChars, ih, List.replicate_succ]

/-- **A type is determined by its descriptor**, whether it can be read back or not. -/
theorem descriptorChars_injective : Function.Injective descriptorChars := by
  intro type
  induction type with
  | base base =>
    intro other same
    cases other with
    | base other =>
      have code : base.code = other.code := by simpa [descriptorChars] using same
      rw [BaseType.code_injective code]
    | object name => simp [descriptorChars] at same
    | array element => simp [descriptorChars, base.code_ne_bracket] at same
  | object name =>
    intro other same
    cases other with
    | base base => simp [descriptorChars] at same
    | object other =>
      have chars : name.toList = other.toList := by simpa [descriptorChars] using same
      rw [String.toList_injective chars]
    | array element => simp [descriptorChars] at same
  | array element ih =>
    intro other same
    cases other with
    | base base => simp [descriptorChars, base.code_ne_bracket.symm] at same
    | object name => simp [descriptorChars] at same
    | array other =>
      have inner : element.descriptorChars = other.descriptorChars := by
        simpa [descriptorChars] using same
      rw [ih inner]

/-- **No two types have the same descriptor.** -/
theorem descriptor_injective : Function.Injective descriptor := by
  intro type other same
  apply descriptorChars_injective
  simpa [descriptor] using congrArg String.toList same

/-- A text has the form of a descriptor: any number of brackets, and then the code of a primitive
type, or a name between `L` and `;` that is not empty and holds no semicolon. -/
def IsWellFormed (text : String) : Prop :=
  ∃ (layers : Nat) (core : List Char), text.toList = List.replicate layers '[' ++ core ∧
    ((∃ base : BaseType, core = [base.code]) ∨
      ∃ name : String, name ≠ "" ∧ ';' ∉ name.toList ∧ core = 'L' :: (name.toList ++ [';']))

/-- The texts of that form are the descriptors of legible types. -/
theorem isWellFormed_iff :
    IsWellFormed text ↔ ∃ type : FieldType, type.IsLegible ∧ type.descriptor = text := by
  constructor
  · rintro ⟨layers, core, chars, core_eq⟩
    obtain ⟨leaf, legible, spelt⟩ :
        ∃ leaf : FieldType, leaf.IsLegible ∧ leaf.descriptorChars = core := by
      rcases core_eq with ⟨base, rfl⟩ | ⟨name, nonempty, noSemicolon, rfl⟩
      · exact ⟨.base base, isLegible_base base, rfl⟩
      · exact ⟨.object name, isLegible_object_iff.2 ⟨nonempty, noSemicolon⟩, rfl⟩
    refine ⟨leaf.arrays layers, ?_, ?_⟩
    · unfold IsLegible
      rw [leaf_arrays]
      exact legible
    · rw [descriptor, descriptorChars_arrays, spelt, ← chars, String.ofList_toList]
  · rintro ⟨type, legible, rfl⟩
    refine ⟨type.dimensions, type.leaf.descriptorChars, ?_, ?_⟩
    · rw [descriptor, String.toList_ofList, descriptorChars_eq_leaf]
    · cases leaf : type.leaf with
      | base base => exact .inl ⟨base, rfl⟩
      | object name =>
        obtain ⟨nonempty, noSemicolon⟩ := legible name leaf
        exact .inr ⟨name, nonempty, noSemicolon, rfl⟩
      | array element => exact absurd leaf (leaf_ne_array type element)

/-- The descriptor of a type is not read as another type. -/
theorem ofDescriptor_descriptor_iff :
    ofDescriptor type.descriptor = .ok type ↔ type.IsLegible := by
  rw [ofDescriptor_eq_ok_iff]
  simp

/-- **What cannot be read back is refused.** -/
theorem ofDescriptor_descriptor_refused_iff :
    (∃ fault, ofDescriptor type.descriptor = .error fault) ↔ ¬ type.IsLegible := by
  cases read : ofDescriptor type.descriptor with
  | error fault =>
    have illegible : ¬ type.IsLegible := by
      intro legible
      have back := ofDescriptor_descriptor_iff.2 legible
      simp [read] at back
    simp [illegible]
  | ok other =>
    obtain ⟨legible, same⟩ := ofDescriptor_eq_ok_iff.1 read
    obtain rfl := descriptor_injective same
    simp [legible]

/-- **Reading and writing descriptors are inverse to each other.**  What is read from a text has the
text for its descriptor; the descriptor of a type is read as that type if the type is legible, and
refused if it is not; and the texts that are accepted are those of the form of a descriptor. -/
theorem ofDescriptor_inverts_descriptor :
    (∀ (text : String) (type : FieldType),
      ofDescriptor text = .ok type ↔ type.IsLegible ∧ type.descriptor = text) ∧
    (∀ type : FieldType,
      (ofDescriptor type.descriptor = .ok type ↔ type.IsLegible) ∧
      ((∃ fault, ofDescriptor type.descriptor = .error fault) ↔ ¬ type.IsLegible)) ∧
    ∀ text : String, (∃ type, ofDescriptor text = .ok type) ↔ IsWellFormed text := by
  have accepted (text : String) (type : FieldType) :
      ofDescriptor text = .ok type ↔ type.IsLegible ∧ type.descriptor = text := by
    rw [ofDescriptor_eq_ok_iff, eq_comm (a := text)]
  refine ⟨accepted, ?_, ?_⟩
  · intro type
    exact ⟨ofDescriptor_descriptor_iff, ofDescriptor_descriptor_refused_iff⟩
  · intro text
    simp only [accepted, isWellFormed_iff]

end FieldType

end ClassLattice
