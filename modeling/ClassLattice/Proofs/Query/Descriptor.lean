import ClassLattice.Proofs.FieldType.Descriptor
import ClassLattice.Proofs.Query.Conduct
import ClassLattice.Proofs.Universe.Plain

/-!
# Array names are array descriptors

The name of an array is read twice: the parser of descriptors takes it from the front and keeps
what is left, and the look-up of a node strips it layer by layer and finds what is inside by its
name.  Both read the same names as arrays and make the same of them, but for objects whose names
begin like that of an array, which the look-up refuses and the parser does not.

The graph of nodes that an array leads to is described by a relation between nodes and field types,
which follows the elements and says what stands at the core.
-/

set_option autoImplicit false

namespace ClassLattice

/-- **The node of an array stands for a field type**: under each layer is the node of the element,
down to the node of a primitive type or a node that has the name of the object and no element.
That node is not primitive, unless the object has the name of a primitive type. -/
inductive Heap.Represents (heap : Heap) : NodeId → FieldType → Prop
  | base {id : NodeId} (base : BaseType) (found : heap.get? id = some (.ofPrimitive base)) :
      Represents heap id (.base base)
  | object {id : NodeId} {node : Node} (found : heap.get? id = some node)
      (notArray : node.element? = none)
      (reference : BaseType.ofName? node.name = none → node.isPrimitive = false) :
      Represents heap id (.object node.name)
  | array {id element : NodeId} {node : Node} {type : FieldType}
      (found : heap.get? id = some node) (isArray : node.element? = some element)
      (below : Represents heap element type) : Represents heap id (.array type)

namespace FieldType

variable {type : FieldType} {name : String}

/-- The name of the object at the core of the type, if there is one, does not begin like that of an
array. -/
def HasBareCore (type : FieldType) : Prop :=
  ∀ name, type.leaf = .object name → name.toList.head? ≠ some '['

/-- The name of the object at the core of the type, if there is one, is plain. -/
def HasPlainCore (type : FieldType) : Prop := ∀ name, type.leaf = .object name → IsPlainName name

/-- A type has a plain core if it is legible and its core is bare. -/
theorem hasPlainCore_iff : type.HasPlainCore ↔ type.IsLegible ∧ type.HasBareCore := by
  constructor
  · intro plain
    constructor
    · intro name leaf
      exact ⟨(plain name leaf).nonempty, (plain name leaf).noSemicolon⟩
    · intro name leaf
      exact (plain name leaf).noBracket
  · rintro ⟨legible, bare⟩ name leaf
    obtain ⟨nonempty, noSemicolon⟩ := legible name leaf
    exact ⟨nonempty, noSemicolon, bare name leaf⟩

/-- The texts that are accepted and have a bare core are the descriptors of types with a plain
one. -/
theorem ofDescriptor_bare_iff {text : String} :
    (ofDescriptor text = .ok type ∧ type.HasBareCore) ↔
      type.HasPlainCore ∧ text = type.descriptor := by
  rw [ofDescriptor_eq_ok_iff, hasPlainCore_iff]
  tauto

/-- Only descriptors of arrays begin with a bracket. -/
theorem exists_array_of_bracket (bracket : type.descriptor.toList.head? = some '[') :
    ∃ element, type = .array element := by
  cases type with
  | base base => cases base <;> exact absurd bracket (by decide)
  | object name => simp [descriptor, descriptorChars] at bracket
  | array element => exact ⟨element, rfl⟩

/-- **The name of an array is laid out around the name of its element.** -/
theorem layout_array (plain : type.HasPlainCore) :
    layout (array type).descriptor = .ok (some type.internalName) := by
  unfold layout descriptor
  rw [String.toList_ofList, descriptorChars]
  cases type with
  | base base => cases base <;> rfl
  | object name =>
    rw [descriptorChars, layoutOfChars, objectElement_eq_ok_iff.2 ⟨plain name rfl, rfl⟩]
    rfl
  | array element => rfl

end FieldType

variable {registry : Registry} {reader : Reader} {workspace : Workspace} {type : FieldType}
  {id : NodeId} {name text : String}

/-- A reader that can read every object name fails for no type. -/
theorem Reader.not_fails_internalName {error : HierarchyError} (plain : type.HasPlainCore)
    (readable : ∀ name, IsPlainName name → ∃ metadata, reader.read name = .ok metadata) :
    ¬ reader.Fails registry type.internalName error := by
  induction type with
  | base base =>
    intro fails
    have pinned : registry.shape? base.name = some (.primitive base) :=
      Registry.shape?_primitive_iff.2 (BaseType.ofName?_name base)
    cases fails with
    | malformed free => exact absurd (pinned.symm.trans free) (by simp)
    | unread free => exact absurd (pinned.symm.trans free) (by simp)
    | element free => exact absurd (pinned.symm.trans free) (by simp)
  | object name =>
    have laid : layout name = .ok none := layout_of_plain (plain name rfl)
    obtain ⟨metadata, answer⟩ := readable name (plain name rfl)
    intro fails
    cases fails with
    | malformed _ malformed => exact absurd (laid.symm.trans malformed) (by simp)
    | unread _ _ failed => exact absurd (answer.symm.trans failed) (by simp)
    | element _ array => exact absurd (laid.symm.trans array) (by simp)
  | array element ih =>
    have laid : layout (FieldType.array element).internalName = .ok (some element.internalName) :=
      FieldType.layout_array plain
    intro fails
    cases fails with
    | malformed _ malformed => exact absurd (laid.symm.trans malformed) (by simp)
    | unread _ flat => exact absurd (laid.symm.trans flat) (by simp)
    | element _ array below =>
      obtain rfl := Option.some.inj (Except.ok.inj (laid.symm.trans array))
      exact ih plain below

namespace Workspace.Coherent

section Arrays

variable (coherent : workspace.Coherent registry)
  (unbracketed : ∀ name, registry.contains name = true → name.toList.head? ≠ some '[')

include coherent unbracketed

/-- A node with a name that begins like that of an array has an element with the name that the
layout gives it. -/
theorem exists_element (bracket : name.toList.head? = some '[')
    (named : workspace.heap.Names id name) :
    ∃ node element inner, workspace.heap.get? id = some node ∧ node.element? = some element ∧
      layout name = .ok (some inner) ∧ workspace.heap.Names element inner := by
  obtain ⟨node, found, rfl⟩ := named
  obtain ⟨shape, shows, allowed⟩ := coherent.shapes id node found
  cases allowed with
  | pinned told =>
    have free : registry.shape? node.name = none := by
      apply Registry.shape?_eq_none_of_bracket bracket
      intro registered
      exact unbracketed node.name registered bracket
    exact absurd (free.symm.trans told) (by simp)
  | declared _ flat => exact absurd bracket (head_of_layout_flat flat)
  | @array inner _ laid =>
    obtain ⟨element, isArray, below⟩ := shows.exists_element
    exact ⟨node, element, inner, found, Node.element?_eq_outline.trans isArray, laid, below⟩

/-- **A node with the internal name of a type stands for that type**, as long as no marker has the
name of an array. -/
theorem represents (plain : type.HasPlainCore)
    (named : workspace.heap.Names id type.internalName) : workspace.heap.Represents id type := by
  induction type generalizing id with
  | base base =>
    obtain ⟨node, found, same⟩ := named
    obtain ⟨shape, shows, allowed⟩ := coherent.shapes id node found
    have pinned : registry.shape? node.name = some (.primitive base) := by
      rw [same]
      exact Registry.shape?_primitive_iff.2 (BaseType.ofName?_name base)
    cases allowed with
    | pinned told =>
      obtain rfl := Option.some.inj (pinned.symm.trans told)
      have whole : node = .ofPrimitive base := Node.eq_ofPrimitive shows.eq_primitive same
      exact .base base (whole ▸ found)
    | array free => exact absurd (pinned.symm.trans free) (by simp)
    | declared free => exact absurd (pinned.symm.trans free) (by simp)
  | object name =>
    obtain ⟨node, found, same⟩ := named
    obtain rfl : node.name = name := same
    obtain ⟨shape, shows, allowed⟩ := coherent.shapes id node found
    have laid : layout node.name = .ok none := layout_of_plain (plain node.name rfl)
    have flat : shape.element? = none := by
      cases allowed with
      | pinned told => exact Registry.element?_of_shape? told
      | array _ array => exact absurd (laid.symm.trans array) (by simp)
      | declared => rfl
    apply Heap.Represents.object found
    · rw [Node.element?_eq_outline]
      exact shows.element?_eq_none flat
    · intro reference
      rw [Node.isPrimitive_eq_outline, shows.isPrimitive_eq]
      cases allowed with
      | pinned told =>
        cases shape with
        | primitive base =>
          exact absurd (reference.symm.trans (Registry.shape?_primitive_iff.1 told)) (by simp)
        | _ => rfl
      | array => rfl
      | declared => rfl
  | array type ih =>
    have laid : layout (FieldType.array type).internalName = .ok (some type.internalName) :=
      FieldType.layout_array plain
    obtain ⟨node, element, inner, found, isArray, laid', below⟩ :=
      coherent.exists_element unbracketed (head_of_layout laid) named
    obtain rfl := Option.some.inj (Except.ok.inj (laid.symm.trans laid'))
    exact .array found isArray (ih plain below)

/-- **A node with a name that begins like that of an array has the descriptor of an array for its
name.** -/
theorem exists_array (bracket : name.toList.head? = some '[')
    (named : workspace.heap.Names id name) :
    ∃ type : FieldType, type.HasPlainCore ∧ name = (FieldType.array type).descriptor := by
  -- The element has one layer less, so the layers carry the induction.
  induction same : layers name using Nat.strongRecOn generalizing name id with
  | _ depth ih =>
    obtain ⟨node, element, inner, -, -, laid, below⟩ :=
      coherent.exists_element unbracketed bracket named
    have less : layers inner < depth := by
      have deeper := layers_of_layout laid
      omega
    rcases spelling_of_layout laid with ⟨plain | nested, spelt⟩ | ⟨base, named, spelt⟩
    · refine ⟨.object inner, ?_, ?_⟩
      · intro other leaf
        cases leaf
        exact plain
      · apply String.toList_injective
        simp [spelt, arrayDescriptor, plain.noBracket, FieldType.descriptor,
          FieldType.descriptorChars]
    · obtain ⟨type, plain, within⟩ := ih (layers inner) less nested below rfl
      refine ⟨.array type, plain, ?_⟩
      apply String.toList_injective
      simp [spelt, arrayDescriptor, nested]
      simp [within, FieldType.descriptor, FieldType.descriptorChars]
    · refine ⟨.base base, ?_, ?_⟩
      · intro other leaf
        cases leaf
      · apply String.toList_injective
        simp [spelt, named, BaseType.name, FieldType.descriptor, FieldType.descriptorChars]

end Arrays

end Workspace.Coherent

namespace Query

variable {after : Workspace}

/-- A node that is found has the name, and its workspace is coherent. -/
theorem names_of_typeNode (coherent : workspace.Coherent registry)
    (ran : typeNode reader name workspace = .ok id after) :
    after.Coherent registry ∧ after.heap.Names id name := by
  have yields := typeNode_yields coherent reader name
  unfold Yields at yields
  rw [ran] at yields
  exact ⟨yields.1.coherent coherent, yields.2⟩

section Coherent

variable (coherent : workspace.Coherent registry)
  (unbracketed : ∀ name, registry.contains name = true → name.toList.head? ≠ some '[')

include coherent unbracketed

/-- **An array that is found has the descriptor of a type** that its node stands for. -/
theorem exists_type_of_typeNode (bracket : text.toList.head? = some '[')
    (ran : typeNode reader text workspace = .ok id after) :
    ∃ type : FieldType, type.HasPlainCore ∧ text = type.descriptor ∧
      after.heap.Represents id type := by
  obtain ⟨coherentAfter, named⟩ := names_of_typeNode coherent ran
  obtain ⟨element, plain, rfl⟩ := coherentAfter.exists_array unbracketed bracket named
  have plainArray : (FieldType.array element).HasPlainCore := plain
  exact ⟨.array element, plain, rfl, coherentAfter.represents unbracketed plainArray named⟩

/-- **A text that begins like the name of an array is found exactly if it is the descriptor of a
type with a bare core.** -/
theorem exists_typeNode_iff
    (readable : ∀ name, IsPlainName name → ∃ metadata, reader.read name = .ok metadata)
    (bracket : text.toList.head? = some '[') :
    (∃ id after, typeNode reader text workspace = .ok id after) ↔
      ∃ type, FieldType.ofDescriptor text = .ok type ∧ type.HasBareCore := by
  constructor
  · rintro ⟨id, after, ran⟩
    obtain ⟨type, plain, spelt, -⟩ := exists_type_of_typeNode coherent unbracketed bracket ran
    exact ⟨type, FieldType.ofDescriptor_bare_iff.2 ⟨plain, spelt⟩⟩
  · rintro ⟨type, accepted⟩
    obtain ⟨plain, rfl⟩ := FieldType.ofDescriptor_bare_iff.1 accepted
    obtain ⟨element, rfl⟩ := FieldType.exists_array_of_bracket bracket
    have yields := typeNode_yields coherent reader (FieldType.array element).descriptor
    unfold Yields at yields
    cases ran : typeNode reader (FieldType.array element).descriptor workspace with
    | ok id after => exact ⟨id, after, rfl⟩
    | error error after =>
      rw [ran] at yields
      have fails : reader.Fails registry (FieldType.array element).internalName error := yields.2
      exact absurd fails (Reader.not_fails_internalName plain readable)

end Coherent

/-- A reader that has a class for every name. -/
def everyClass : Reader :=
  { read := fun name => .ok (.ofClass name rootName [])
    hasType := fun _ => true
    extent := 0 }

/-- The reader that knows every class reads every name. -/
theorem everyClass_readable (name : String) : ∃ metadata, everyClass.read name = .ok metadata :=
  ⟨.ofClass name rootName [], rfl⟩

/-- No standard marker has the name of an array. -/
theorem jdk_unbracketed (name : String) (registered : Registry.jdk.contains name = true) :
    name.toList.head? ≠ some '[' := by
  obtain ⟨interfaces, found⟩ := Table.contains_iff_get?.1 registered
  have all : ∀ entry ∈ Registry.jdk.table.entries, entry.1.toList.head? ≠ some '[' := by decide
  exact all _ (Table.mem_entries_of_get? found)

/-- **A text that begins like the name of an array is looked up as the descriptor that it is.**
After any history, with a reader that can read every object name and no marker that has the name of
an array, the look-up ends with a node exactly if the text is the descriptor of a type whose
object, if it has one, does not begin like an array itself.  The node stands for that type. -/
theorem typeNode_ofDescriptor (capacity : Nat) {registry : Registry}
    (unbracketed : ∀ name, registry.contains name = true → name.toList.head? ≠ some '[')
    (history : List (Reader × Operation)) {reader : Reader}
    (readable : ∀ name, IsPlainName name → ∃ metadata, reader.read name = .ok metadata)
    {text : String} (bracket : text.toList.head? = some '[') :
    let workspace := ((Workspace.create capacity registry).run history).2
    ((∃ id after, typeNode reader text workspace = .ok id after) ↔
      ∃ type, FieldType.ofDescriptor text = .ok type ∧ type.HasBareCore) ∧
    ∀ id after, typeNode reader text workspace = .ok id after →
      ∀ type, FieldType.ofDescriptor text = .ok type → after.heap.Represents id type := by
  intro workspace
  have coherent : workspace.Coherent registry :=
    (Workspace.coherent_create capacity registry).run history
  constructor
  · exact exists_typeNode_iff coherent unbracketed readable bracket
  · intro id after ran type accepted
    obtain ⟨found, plain, spelt, represents⟩ :=
      exists_type_of_typeNode coherent unbracketed bracket ran
    obtain ⟨same, -⟩ := FieldType.ofDescriptor_bare_iff.2 ⟨plain, spelt⟩
    obtain rfl := Except.ok.inj (accepted.symm.trans same)
    exact represents

/-- Two layers around a class, after the class was looked up under a single one. -/
theorem typeNode_ofDescriptor_nested :
    let workspace := ((Workspace.create 4 .jdk).run [(everyClass, .keep "slot" "[Ldemo/A;")]).2
    ∃ id after, typeNode everyClass "[[Ldemo/A;" workspace = .ok id after ∧
      after.heap.Represents id (.array (.array (.object "demo/A"))) := by
  intro workspace
  have accepted : FieldType.ofDescriptor "[[Ldemo/A;" =
      .ok (.array (.array (.object "demo/A"))) := by decide
  have bare : (FieldType.array (.array (.object "demo/A"))).HasBareCore := by
    intro name leaf
    cases leaf
    decide
  obtain ⟨found, represents⟩ := typeNode_ofDescriptor 4 jdk_unbracketed
    [(everyClass, .keep "slot" "[Ldemo/A;")] (fun name _ => everyClass_readable name)
    (show "[[Ldemo/A;".toList.head? = some '[' by decide)
  obtain ⟨id, after, ran⟩ := found.2 ⟨_, accepted, bare⟩
  exact ⟨id, after, ran, represents id after ran _ accepted⟩

/-- An object that is named like an array is accepted in a descriptor and not found, and one that
is named like a primitive type leads to that type. -/
theorem typeNode_ne_ofDescriptor :
    let workspace := Workspace.create 4 .jdk
    (FieldType.ofDescriptor "[L[I;" = .ok (.array (.object "[I")) ∧
      ¬ ∃ id after, typeNode everyClass "[L[I;" workspace = .ok id after) ∧
    FieldType.ofDescriptor "[LI;" = .ok (.array (.object "I")) ∧
      ∃ id after, typeNode everyClass "[LI;" workspace = .ok id after ∧
        after.heap.Represents id (.array (.base .int)) := by
  intro workspace
  have coherent : workspace.Coherent .jdk := Workspace.coherent_create 4 .jdk
  have readable (name : String) (_ : IsPlainName name) := everyClass_readable name
  have bracketed : FieldType.ofDescriptor "[L[I;" = .ok (.array (.object "[I")) := by decide
  have primitive : FieldType.ofDescriptor "[LI;" = .ok (.array (.object "I")) := by decide
  refine ⟨⟨bracketed, ?_⟩, primitive, ?_⟩
  · intro found
    obtain ⟨type, accepted, bare⟩ :=
      (exists_typeNode_iff coherent jdk_unbracketed readable (by decide)).1 found
    obtain rfl := Except.ok.inj (bracketed.symm.trans accepted)
    exact bare "[I" rfl (by decide)
  · have bare : (FieldType.array (.object "I")).HasBareCore := by
      intro name leaf
      cases leaf
      decide
    obtain ⟨id, after, ran⟩ := (exists_typeNode_iff coherent jdk_unbracketed readable
      (by decide)).2 ⟨_, primitive, bare⟩
    obtain ⟨coherentAfter, named⟩ := names_of_typeNode coherent ran
    obtain ⟨node, element, inner, found, isArray, laid, below⟩ :=
      coherentAfter.exists_element jdk_unbracketed (by decide) named
    obtain rfl : inner = "I" := by
      have same : layout "[LI;" = .ok (some "I") := by decide
      exact Option.some.inj (Except.ok.inj (laid.symm.trans same))
    have plain : (FieldType.base .int).HasPlainCore := by
      intro name leaf
      cases leaf
    have int : after.heap.Represents element (.base .int) :=
      coherentAfter.represents jdk_unbracketed plain below
    exact ⟨id, after, ran, .array found isArray int⟩

end Query

end ClassLattice
