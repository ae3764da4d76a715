import ClassLattice.Proofs.Table
import ClassLattice.Proofs.Universe.Lawful

/-!
# Plain names

A class or interface has a plain name if the descriptor of its array is read back as that array.
-/

set_option autoImplicit false

namespace ClassLattice

/-- A name that is not empty, holds no semicolon and does not begin like that of an array. -/
structure IsPlainName (name : String) : Prop where
  nonempty : name ≠ ""
  noSemicolon : ';' ∉ name.toList
  noBracket : name.toList.head? ≠ some '['

/-- What is spelt like an array begins with a bracket. -/
theorem head_of_layout {name element : String} (h : layout name = .ok (some element)) :
    name.toList.head? = some '[' := by
  have deeper := layers_of_layout h
  unfold layers at deeper
  cases chars : name.toList with
  | nil => simp [chars] at deeper
  | cons first rest =>
    by_cases bracket : first = '['
    · rw [bracket]
      rfl
    · simp [chars, bracket] at deeper

/-- What is not laid out as an array does not begin like one. -/
theorem head_of_layout_flat {name : String} (h : layout name = .ok none) :
    name.toList.head? ≠ some '[' := by
  intro bracket
  have laid : layoutOfChars name.toList = .ok none := h
  obtain ⟨rest, chars⟩ := List.head?_eq_some_iff.1 bracket
  rw [chars] at laid
  unfold layoutOfChars at laid
  split at laid
  · cases laid
  · cases laid
  · cases laid
  · rename_i rest' _
    cases object : Query.objectElement rest' <;> simp [object, Except.map] at laid
  · split at laid <;> cases laid
  · cases laid
  · rename_i notArray
    exact notArray rest rfl

/-- **The object names that a descriptor may hold** are the plain ones. -/
theorem objectElement_eq_ok_iff {chars : List Char} {element : String} :
    Query.objectElement chars = .ok element ↔
      IsPlainName element ∧ chars = element.toList ++ [';'] := by
  unfold Query.objectElement
  constructor
  · intro h
    split_ifs at h with last
    dsimp only at h
    split_ifs at h with valid
    simp only [Bool.or_eq_true, List.isEmpty_iff, List.contains_iff_mem, decide_eq_true_eq,
      not_or] at valid
    obtain ⟨⟨nonempty, noSemicolon⟩, noBracket⟩ := valid
    obtain rfl := Except.ok.inj h
    have all := List.dropLast_append_getLast? _ last
    refine ⟨⟨?_, ?_, ?_⟩, ?_⟩
    · simpa using nonempty
    · simpa using noSemicolon
    · simpa using noBracket
    · rw [String.toList_ofList]
      exact all.symm
  · rintro ⟨plain, rfl⟩
    have nonempty : element.toList ≠ [] := by simpa using plain.nonempty
    simp [plain.noSemicolon, plain.noBracket, nonempty]

/-- A name that is not empty and does not begin like that of an array is laid out as none. -/
theorem layout_of_bare {name : String} (nonempty : name ≠ "")
    (noBracket : name.toList.head? ≠ some '[') : layout name = .ok none := by
  unfold layout
  cases chars : name.toList with
  | nil => exact absurd (String.toList_eq_nil_iff.1 chars) nonempty
  | cons first rest =>
    have apart : first ≠ '[' := by
      rintro rfl
      exact noBracket (by simp [chars])
    simp [layoutOfChars, apart]

/-- Plain names are not spelt like arrays. -/
theorem layout_of_plain {name : String} (plain : IsPlainName name) : layout name = .ok none :=
  layout_of_bare plain.nonempty plain.noBracket

/-- What the name of an array is laid out around a descriptor of its element is. -/
theorem layout_arrayDescriptor {name : String}
    (h : IsPlainName name ∨ name.toList.head? = some '[') :
    layout (arrayDescriptor name) = .ok (some name) := by
  unfold arrayDescriptor layout
  split_ifs with bracket
  · obtain ⟨rest, chars⟩ : ∃ rest, name.toList = '[' :: rest := by
      cases chars : name.toList with
      | nil => simp [chars] at bracket
      | cons first rest =>
        rw [chars] at bracket
        exact ⟨rest, by rw [Option.some.inj bracket]⟩
    have all : ("[" ++ name).toList = '[' :: '[' :: rest := by simp [chars]
    rw [all, layoutOfChars, ← chars, String.ofList_toList]
  · have plain := h.resolve_right bracket
    have all : ("[L" ++ name ++ ";").toList = '[' :: 'L' :: (name.toList ++ [';']) := by simp
    rw [all, layoutOfChars, objectElement_eq_ok_iff.2 ⟨plain, rfl⟩]
    rfl

/-- An array is spelt by the descriptor of its element, which is plain or an array itself, or by a
bracket in front of the code of a primitive type. -/
theorem spelling_of_layout {name element : String} (h : layout name = .ok (some element)) :
    ((IsPlainName element ∨ element.toList.head? = some '[') ∧ name = arrayDescriptor element) ∨
      ∃ base : BaseType, element = base.name ∧ name = "[" ++ element := by
  have laid : layoutOfChars name.toList = .ok (some element) := h
  rw [← String.ofList_toList (s := name)]
  generalize name.toList = chars at laid
  unfold layoutOfChars at laid
  split at laid
  · cases laid
  · cases laid
  · rename_i rest
    obtain rfl := Option.some.inj (Except.ok.inj laid)
    left
    refine ⟨.inr (by simp), ?_⟩
    apply String.toList_injective
    simp [arrayDescriptor]
  · rename_i rest
    cases object : Query.objectElement rest with
    | error reason => simp [object, Except.map] at laid
    | ok inner =>
      obtain rfl : inner = element := by simpa [object, Except.map] using laid
      obtain ⟨plain, rfl⟩ := objectElement_eq_ok_iff.1 object
      left
      refine ⟨.inl plain, ?_⟩
      apply String.toList_injective
      simp [arrayDescriptor, plain.noBracket]
  · rename_i code _ _
    split at laid
    · cases laid
    · rename_i base coded
      obtain rfl := Option.some.inj (Except.ok.inj laid)
      refine .inr ⟨base, rfl, ?_⟩
      apply String.toList_injective
      simp [BaseType.name, BaseType.code_of_ofCode? coded]
  · cases laid
  · cases laid

/-- An array of a reference is spelt with a descriptor around its element. -/
theorem arrayDescriptor_of_layout {name element : String} (h : layout name = .ok (some element))
    (reference : BaseType.ofName? element = none) : arrayDescriptor element = name := by
  rcases spelling_of_layout h with ⟨-, same⟩ | ⟨base, rfl, -⟩
  · exact same.symm
  · exact absurd reference (by cases base <;> decide)

/-- No two names have the same array. -/
theorem arrayDescriptor_injective {x y : String} (h : arrayDescriptor x = arrayDescriptor y) :
    x = y := by
  apply String.toList_injective
  have chars := congrArg String.toList h
  unfold arrayDescriptor at chars
  split_ifs at chars with first second second
  · simpa using chars
  · simp at chars
    rw [chars] at first
    cases first
  · simp at chars
    rw [← chars] at second
    cases second
  · simpa using chars

/-- No built-in type has a name that begins like that of an array. -/
theorem Registry.shape?_eq_none_of_bracket {registry : Registry} {name : String}
    (bracket : name.toList.head? = some '[') (unregistered : ¬ registry.contains name = true) :
    registry.shape? name = none := by
  unfold Registry.shape?
  have notRoot : name ≠ rootName := by
    rintro rfl
    exact absurd bracket (by decide)
  have notBase : BaseType.ofName? name = none := by
    unfold BaseType.ofName?
    split
    · rename_i code single
      rw [single] at bracket
      rw [Option.some.inj bracket]
      decide
    · rfl
  rw [if_neg notRoot, notBase]
  apply Option.map_eq_none_iff.2
  apply Option.eq_none_iff_forall_ne_some.2
  intro interfaces found
  exact unregistered (Table.contains_iff_get?.2 ⟨interfaces, found⟩)

namespace Universe

variable {world : Universe} {a inner : String}

/-- The names of all types with metadata and of all registered markers are plain. -/
structure WellNamed (world : Universe) : Prop where
  told : ∀ name, (world.metadata? name).isSome = true → IsPlainName name
  registered : ∀ name, world.registry.contains name = true → IsPlainName name

namespace WellNamed

/-- The name of a class or interface is plain, in a well-named universe. -/
theorem plain (wellNamed : world.WellNamed) (isType : world.IsType a) : IsPlainName a := by
  rcases isType with root | ⟨declaration, shape⟩
  · rw [shape?_root_iff.1 root]
    exact ⟨by decide, by decide, by decide⟩
  · rcases of_shape?_declared shape with ⟨interfaces, registered, -⟩ | ⟨-, metadata, told, -⟩
    · exact wellNamed.registered a (Table.contains_iff_get?.2 ⟨interfaces, registered⟩)
    · exact wellNamed.told a (by rw [told]; rfl)

/-- What begins with a bracket is not registered, in a well-named universe. -/
theorem free_of_bracket (wellNamed : world.WellNamed) (bracket : a.toList.head? = some '[') :
    world.registry.shape? a = none := by
  apply Registry.shape?_eq_none_of_bracket bracket
  intro registered
  exact (wellNamed.registered a registered).noBracket bracket

/-- The descriptor of the array of a class, interface or array is the name of that array. -/
theorem shape?_arrayDescriptor (wellNamed : world.WellNamed)
    (reference : world.IsType inner ∨ ∃ element, world.shape? inner = some (.array element)) :
    world.shape? (arrayDescriptor inner) = some (.array inner) := by
  have named : IsPlainName inner ∨ inner.toList.head? = some '[' := by
    refine reference.imp wellNamed.plain fun ⟨element, array⟩ => ?_
    exact head_of_layout (shape?_array_iff.1 array).2
  have laid := layout_arrayDescriptor named
  exact shape?_array_iff.2 ⟨wellNamed.free_of_bracket (head_of_layout laid), laid⟩

end WellNamed

end Universe

end ClassLattice
