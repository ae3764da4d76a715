import ClassLattice.Proofs.Query.Descriptor

/-!
# Malformed names

A text is malformed if no type can have it for its name: it is empty, or it begins with a bracket
and what stands behind all its brackets describes no element.  A look-up refuses exactly these texts
as malformed.  It refuses them before it has any effect, and blames the text without the brackets
that could be taken off.
-/

set_option autoImplicit false

namespace ClassLattice

/-- What remains of a text behind the brackets in front. -/
def core (text : String) : List Char := text.toList.dropWhile (· == '[')

/-- What may stand behind the brackets of an array: the code of a primitive type, or an object with
a plain name. -/
def IsElement (chars : List Char) : Prop :=
  (∃ base : BaseType, chars = [base.code]) ∨
    ∃ name, IsPlainName name ∧ chars = 'L' :: (name.toList ++ [';'])

/-- No type can have the text for its name. -/
def IsMalformed (text : String) : Prop :=
  text = "" ∨ text.toList.head? = some '[' ∧ ¬ IsElement (core text)

/-- The text that a look-up of a malformed text blames: the innermost array that it announces. -/
def blamedText (text : String) : String :=
  if text = "" then text else String.ofList ('[' :: core text)

section Layout

variable {text inner : String} {reason : Malformation}

/-! ## Malformed texts and the layout of names -/

/-- A bracket in front is no part of the core. -/
theorem core_bracket (rest : List Char) : core (String.ofList ('[' :: rest)) =
    core (String.ofList rest) := by
  simp [core]

/-- A text that begins with no bracket is its own core. -/
theorem core_eq_toList (bare : text.toList.head? ≠ some '[') : core text = text.toList := by
  unfold core
  cases chars : text.toList with
  | nil => rfl
  | cons first rest =>
    have apart : first ≠ '[' := by
      rintro rfl
      exact bare (by simp [chars])
    simp [apart]

/-- A text that begins with no bracket is not malformed, unless it is empty. -/
theorem not_isMalformed_of_bare (nonempty : text ≠ "") (bare : text.toList.head? ≠ some '[') :
    ¬ IsMalformed text := by
  rintro (empty | ⟨bracket, -⟩)
  · exact nonempty empty
  · exact bare bracket

/-- A text that is laid out as no array is not malformed. -/
theorem not_isMalformed_of_flat (laid : layout text = .ok none) : ¬ IsMalformed text := by
  apply not_isMalformed_of_bare
  · rintro rfl
    cases laid
  · exact head_of_layout_flat laid

/-- The brackets in front of an array of an array make no difference. -/
theorem isMalformed_bracket (bracket : inner.toList.head? = some '[') :
    (IsMalformed ("[" ++ inner) ↔ IsMalformed inner) ∧
      blamedText ("[" ++ inner) = blamedText inner := by
  have nonempty : inner ≠ "" := by
    rintro rfl
    cases bracket
  have all : "[" ++ inner = String.ofList ('[' :: inner.toList) := by
    apply String.toList_injective
    simp
  have same : core ("[" ++ inner) = core inner := by
    rw [all, core_bracket, String.ofList_toList]
  have more : "[" ++ inner ≠ "" := by
    intro empty
    have chars := congrArg String.toList empty
    simp at chars
  constructor
  · unfold IsMalformed
    rw [same]
    simp [nonempty, bracket, more]
  · unfold blamedText
    rw [same, if_neg more, if_neg nonempty]

/-- **A text that is laid out as an array is malformed if its element is**, and then the same text
is to blame for both. -/
theorem isMalformed_of_layout (laid : layout text = .ok (some inner)) :
    (IsMalformed text ↔ IsMalformed inner) ∧
      (IsMalformed inner → blamedText text = blamedText inner) := by
  -- An element that is no array is well-formed, and so is its array.
  have innermost (chars : List Char) (bare : chars.head? ≠ some '[') (element : IsElement chars)
      (spelt : text = "[" ++ String.ofList chars) : ¬ IsMalformed text := by
    have same : core text = chars := by
      have all : text = String.ofList ('[' :: chars) := by
        apply String.toList_injective
        simp [spelt]
      rw [all, core_bracket, core_eq_toList (by simpa using bare), String.toList_ofList]
    rintro (empty | ⟨-, wrong⟩)
    · have chars := congrArg String.toList (spelt.symm.trans empty)
      simp at chars
    · exact wrong (same ▸ element)
  rcases spelling_of_layout laid with ⟨plain | nested, spelt⟩ | ⟨base, named, spelt⟩
  · have well : ¬ IsMalformed inner := not_isMalformed_of_flat (layout_of_plain plain)
    have array : ¬ IsMalformed text := by
      apply innermost ('L' :: (inner.toList ++ [';'])) (by simp) (.inr ⟨inner, plain, rfl⟩)
      apply String.toList_injective
      simp [spelt, arrayDescriptor, plain.noBracket]
    exact ⟨⟨fun h => absurd h array, fun h => absurd h well⟩, fun h => absurd h well⟩
  · have spelt : text = "[" ++ inner := by
      rw [spelt, arrayDescriptor, if_pos nested]
    rw [spelt]
    exact ⟨(isMalformed_bracket nested).1, fun _ => (isMalformed_bracket nested).2⟩
  · have bare : inner.toList.head? ≠ some '[' := by
      rw [named]
      cases base <;> decide
    have nonempty : inner ≠ "" := by
      rw [named]
      cases base <;> decide
    have well : ¬ IsMalformed inner := not_isMalformed_of_bare nonempty bare
    have array : ¬ IsMalformed text := by
      apply innermost inner.toList bare (.inl ⟨base, by simp [named, BaseType.name]⟩)
      rw [String.ofList_toList, spelt]
    exact ⟨⟨fun h => absurd h array, fun h => absurd h well⟩, fun h => absurd h well⟩

/-- **A text that has no layout is malformed** and itself to blame. -/
theorem isMalformed_of_error (laid : layout text = .error reason) :
    IsMalformed text ∧ blamedText text = text := by
  rw [← String.ofList_toList (s := text)]
  have laid : layoutOfChars text.toList = .error reason := laid
  generalize text.toList = chars at laid
  -- What stands behind the only bracket is no element.
  have innermost (rest : List Char) (bare : rest.head? ≠ some '[') (wrong : ¬ IsElement rest) :
      IsMalformed (String.ofList ('[' :: rest)) ∧
        blamedText (String.ofList ('[' :: rest)) = String.ofList ('[' :: rest) := by
    have same : core (String.ofList ('[' :: rest)) = rest := by
      rw [core_bracket, core_eq_toList (by simpa using bare), String.toList_ofList]
    constructor
    · refine .inr ⟨by simp, ?_⟩
      rw [same]
      exact wrong
    · unfold blamedText
      rw [same]
      exact ite_self _
  unfold layoutOfChars at laid
  split at laid
  · exact ⟨.inl rfl, rfl⟩
  · exact innermost [] (by simp) (by simp [IsElement])
  · cases laid
  · rename_i rest
    apply innermost _ (by simp)
    rintro (⟨base, code⟩ | ⟨name, plain, spelt⟩)
    · cases base <;> simp [BaseType.code] at code
    · have object := objectElement_eq_ok_iff.2 ⟨plain, (List.cons.inj spelt).2⟩
      simp [object, Except.map] at laid
  · rename_i code bracket _
    split at laid
    · rename_i unknown
      apply innermost _ (by simpa using bracket)
      rintro (⟨base, same⟩ | ⟨name, plain, spelt⟩)
      · obtain rfl := (List.cons.inj same).1
        rw [BaseType.ofCode?_code] at unknown
        cases unknown
      · simp at spelt
    · cases laid
  · rename_i rest _ notArray notObject notCode
    apply innermost
    · intro bracket
      obtain ⟨more, rfl⟩ := List.head?_eq_some_iff.1 bracket
      exact notArray more rfl
    · rintro (⟨base, same⟩ | ⟨name, plain, spelt⟩)
      · exact notCode base.code same
      · exact notObject _ spelt
  · cases laid

/-- A pinned name is not malformed if no registered one is empty or begins like that of an array. -/
theorem Registry.not_isMalformed {registry : Registry} {shape : Shape String}
    (proper : ∀ name, registry.contains name = true →
      name ≠ "" ∧ name.toList.head? ≠ some '[')
    (pinned : registry.shape? text = some shape) : ¬ IsMalformed text := by
  have registered : text ≠ rootName → BaseType.ofName? text = none →
      registry.contains text = true := by
    intro notRoot notBase
    unfold shape? at pinned
    rw [if_neg notRoot, notBase] at pinned
    obtain ⟨interfaces, found, -⟩ := Option.map_eq_some_iff.1 pinned
    exact Table.contains_iff_get?.2 ⟨interfaces, found⟩
  have known : registry.contains text = true ∨ text ≠ "" ∧ text.toList.head? ≠ some '[' := by
    by_cases root : text = rootName
    · rw [root]
      exact .inr (by decide)
    · cases based : BaseType.ofName? text with
      | none => exact .inl (registered root based)
      | some base =>
        rw [← BaseType.name_of_ofName? based]
        exact .inr (by cases base <;> decide)
  obtain ⟨nonempty, bare⟩ := known.elim (proper text) id
  exact not_isMalformed_of_bare nonempty bare

end Layout

/-! ## Looking malformed texts up -/

variable {registry : Registry} {reader : Reader} {workspace : Workspace} {text : String}

/-- A reader that calls no name malformed fails with a malformed one only for a malformed text. -/
theorem Reader.Fails.isMalformed {error : HierarchyError} (fails : reader.Fails registry text error)
    (silent : ∀ name bad reason, reader.read name ≠ .error (.malformed bad reason))
    (malformed : ∃ bad reason, error = .malformed bad reason) : IsMalformed text := by
  induction fails with
  | malformed _ laid => exact (isMalformed_of_error laid).1
  | unread _ _ failed =>
    obtain ⟨bad, reason, rfl⟩ := malformed
    exact absurd failed (silent _ bad reason)
  | element _ laid _ ih => exact (isMalformed_of_layout laid).1.2 (ih malformed)

section Coherent

variable (coherent : workspace.Coherent registry)
  (proper : ∀ name, registry.contains name = true → name ≠ "" ∧ name.toList.head? ≠ some '[')

include coherent proper

/-- **No node has a malformed name.** -/
theorem Workspace.Coherent.not_isMalformed {id : NodeId}
    (named : workspace.heap.Names id text) : ¬ IsMalformed text := by
  -- The element has one layer less, so the layers carry the induction.
  induction same : layers text using Nat.strongRecOn generalizing text id with
  | _ depth ih =>
    obtain ⟨node, found, rfl⟩ := named
    obtain ⟨shape, shows, allowed⟩ := coherent.shapes id node found
    cases allowed with
    | pinned told => exact Registry.not_isMalformed proper told
    | declared _ flat => exact not_isMalformed_of_flat flat
    | @array inner _ laid =>
      obtain ⟨element, -, below⟩ := shows.exists_element
      have less : layers inner < depth := by
        have deeper := layers_of_layout laid
        omega
      intro malformed
      exact ih (layers inner) less below rfl ((isMalformed_of_layout laid).1.1 malformed)

namespace Query

/-- **A malformed text is refused before anything else is done.** -/
theorem typeNode_isMalformed (reader : Reader) (malformed : IsMalformed text) :
    (typeNode reader text).Yields workspace (fun _ _ => False) fun error after =>
      (∃ reason, error = .malformed (blamedText text) reason) ∧ after = workspace := by
  induction same : layers text using Nat.strongRecOn generalizing text with
  | _ depth ih =>
    apply Yields.typeNode coherent
    · intro id after hit
      obtain ⟨looks, named⟩ := looksUp_of_cached coherent reader .everything hit
      exact (looks.coherent coherent).not_isMalformed proper named malformed
    · intro _ _ _
      cases laid : layout text with
      | error reason =>
        have blamed := (isMalformed_of_error laid).2
        exact Yields.throw ⟨⟨reason, by rw [blamed]⟩, rfl⟩
      | ok inner =>
        cases inner with
        | none => exact absurd malformed (not_isMalformed_of_flat laid)
        | some inner =>
          obtain ⟨iff, blamed⟩ := isMalformed_of_layout laid
          have deeper := layers_of_layout laid
          have refused := ih (layers inner) (by omega) (iff.1 malformed) rfl
          rw [← blamed (iff.1 malformed)] at refused
          exact refused.bind (fun _ _ h => h.elim) fun _ _ h => h

end Query

end Coherent

namespace Query

open Workspace

/-- **Malformed names are rejected exactly, and before any effect.**  In any state that an operation
passes through after any history, with no marker whose name is empty or begins like that of an array
and a reader that calls no name malformed, a look-up fails for a malformed name if and only if the
text is malformed.  The workspace stays as it is then, and the text to blame is the innermost array
that was announced. -/
theorem typeNode_malformed_iff (capacity : Nat) {registry : Registry}
    (proper : ∀ name, registry.contains name = true → name ≠ "" ∧ name.toList.head? ≠ some '[')
    (history : List (Reader × Operation)) {asked : Reader}
    (reached : Steps registry asked ((create capacity registry).run history).2 workspace)
    (silent : ∀ name bad reason, reader.read name ≠ .error (.malformed bad reason))
    (text : String) :
    ((∃ bad reason after, typeNode reader text workspace = .error (.malformed bad reason) after) ↔
      IsMalformed text) ∧
    (IsMalformed text → ∃ reason,
      typeNode reader text workspace = .error (.malformed (blamedText text) reason) workspace) := by
  have coherent : workspace.Coherent registry :=
    reached.coherent ((coherent_create capacity registry).run history)
  have refuses : IsMalformed text → ∃ reason, typeNode reader text workspace =
      .error (.malformed (blamedText text) reason) workspace := by
    intro malformed
    have refused := typeNode_isMalformed coherent proper reader malformed
    unfold Yields at refused
    split at refused
    · exact refused.elim
    · rename_i error after ran
      obtain ⟨⟨reason, rfl⟩, rfl⟩ := refused
      exact ⟨reason, ran⟩
  refine ⟨⟨?_, ?_⟩, refuses⟩
  · rintro ⟨bad, reason, after, ran⟩
    have fails := ((typeNode_yields coherent reader text).of_error ran).2
    exact fails.isMalformed silent ⟨bad, reason, rfl⟩
  · intro malformed
    obtain ⟨reason, ran⟩ := refuses malformed
    exact ⟨_, reason, workspace, ran⟩

/-- Two layers around an object without an end, after a class was looked up, with a reader that has
a class for every name. -/
theorem typeNode_malformed_iff_unterminated :
    let workspace := ((create 4 .jdk).run [(everyClass, .keep "slot" "demo/A")]).2
    ∃ reason, typeNode everyClass "[[Ldemo/A" workspace =
      .error (.malformed "[Ldemo/A" reason) workspace := by
  intro workspace
  have proper (name : String) (registered : Registry.jdk.contains name = true) :
      name ≠ "" ∧ name.toList.head? ≠ some '[' := by
    refine ⟨?_, jdk_unbracketed name registered⟩
    rintro rfl
    exact absurd registered (by decide)
  have silent (name bad : String) (reason : Malformation) :
      everyClass.read name ≠ .error (.malformed bad reason) := nofun
  have malformed : IsMalformed "[[Ldemo/A" := by
    refine .inr ⟨by decide, ?_⟩
    have behind : core "[[Ldemo/A" = "Ldemo/A".toList := by decide
    rw [behind]
    rintro (⟨base, code⟩ | ⟨name, -, object⟩)
    · cases base <;> exact absurd code (by decide)
    · have last := congrArg List.getLast? object
      rw [← List.cons_append, List.getLast?_append] at last
      exact absurd last (by simp)
  have blamed : blamedText "[[Ldemo/A" = "[Ldemo/A" := by decide
  have reached : Steps .jdk everyClass workspace workspace := .refl
  rw [← blamed]
  exact (typeNode_malformed_iff 4 proper _ reached silent "[[Ldemo/A").2 malformed

end Query

end ClassLattice
