import ClassLattice.Proofs.Query.Flatten
import ClassLattice.Proofs.Workspace.Turns

/-!
# What two types have in common, in any workspace

In a faithful workspace with sure answers, what two types have in common is what their names have
in common, in one order or the other, and it is kept.  Where no answers are kept yet it is what they
have in common in the order in which they were given.  If it is not found, the error says why.
-/

set_option autoImplicit false

namespace ClassLattice

namespace Workspace

/-- The comparison of names on edges misses nothing when it is found what two names have in
common: no edge to an interface below them is resolved, or neither descends from the other. -/
def Unspoilt (world : Universe) (workspace : Workspace) (a b : String) : Prop :=
  (∀ inner, world.Nests a inner ∨ world.Nests b inner → world.isInterface inner = true →
    workspace.Pristine inner) ∨ world.Finds [] a b false ∧ world.Finds [] b a false

/-- Two names stay unspoilt as long as all that is pristine stays so. -/
theorem Unspoilt.imp {world : Universe} {old new : Workspace} {a b : String}
    (pristine : ∀ inner, old.Pristine inner → new.Pristine inner) (h : old.Unspoilt world a b) :
    new.Unspoilt world a b :=
  h.imp_left fun all inner nested interface => pristine inner (all inner nested interface)

end Workspace

namespace Query

open Workspace

variable {world : Universe} {reader : Reader} {before workspace : Workspace} {limit depth : Nat}
  {a b x y answer : String} {idA idB : NodeId}

/-- What two types have in common was found. -/
structure Met (world : Universe) (reader : Reader) (before : Workspace) (weight : Nat)
    (a b answer : String) (after : Workspace) : Prop where
  proceeds : Proceeds world.registry reader before after
  sure : after.Sure world
  meets : world.Meets a b answer ∨ world.Meets b a answer
  ordered : before.caches.answers = Table.empty → world.Meets a b answer
  /-- New answers are kept only for pairs with few layers. -/
  few : ∀ p q found, after.caches.answers.answer? p q = some found →
    before.caches.answers.answer? p q = some found ∨ layers p + layers q < weight

/-- What two types have in common was not found. -/
structure Unmet (world : Universe) (reader : Reader) (before : Workspace) (limit depth : Nat)
    (a b : String) (error : HierarchyError) (after : Workspace) : Prop where
  proceeds : Proceeds world.registry reader before after
  sure : after.Sure world
  blame : world.BlamesFor reader limit depth a b error
  missing : reader.Serves world → world.DeepFor limit depth a b ∨
    (before.Unspoilt world a b → ∀ answer, ¬ world.Meets a b answer)

/-- The specification of finding what two types have in common. -/
abbrev CommonYields (world : Universe) (reader : Reader) (limit depth : Nat)
    (find : String → String → Query String) : Prop :=
  ∀ a b before, before.Faithful world → before.Sure world →
    (find a b).Yields before (fun answer after =>
        Met world reader before (layers a + layers b + 1) a b answer after ∧
          after.caches.answers.answer? a b = some answer)
      (Unmet world reader before limit depth a b)

/-- The element of an array of references is that of its name. -/
theorem referenceElement_yields (faithful : workspace.Faithful world)
    (has : workspace.Has idA a) :
    (referenceElement idA).Yields workspace
      (fun found after => after = workspace ∧
        Option.Rel workspace.Has found (world.referenceElement a)) fun _ _ => False := by
  obtain ⟨⟨node, found, rfl⟩, anchored⟩ := has
  obtain ⟨shape, shape?, shows⟩ := faithful.shape found
  unfold referenceElement
  refine Yields.node_bind found ?_
  rw [Heap.Shows] at shows
  rw [Node.element?_eq_outline]
  generalize outline : node.outline = known at shows
  cases shows with
  | @array element inner named =>
    have refers : workspace.heap.Refers idA element := ⟨node, found, Node.mem_references_iff.2
      (.inl (by rw [Node.element?_eq_outline, outline]; rfl))⟩
    have has : workspace.Has element inner := ⟨named, anchored.tail refers⟩
    obtain ⟨nodeElement, foundElement, rfl⟩ := named
    obtain ⟨shapeElement, shapeElement?, showsElement⟩ := faithful.shape foundElement
    refine Yields.node_bind foundElement ?_
    rw [Heap.Shows] at showsElement
    rw [Node.isPrimitive_eq_outline]
    have byName : world.referenceElement node.name =
        if nodeElement.outline.isPrimitive then none else some nodeElement.name := by
      simp only [Universe.referenceElement, shape?, shapeElement?]
      generalize nodeElement.outline = outline at showsElement
      cases showsElement <;> rfl
    rw [byName]
    split
    · exact Yields.pure ⟨rfl, .none⟩
    · exact Yields.pure ⟨rfl, .some has⟩
  | _ =>
    refine Yields.pure ⟨rfl, ?_⟩
    simp only [Universe.referenceElement, shape?]
    exact .none

/-- **The names of all ancestors are those of the flattened list of the name**, or it is not listed.
-/
theorem ancestors_yields (within : reader.Within world) (limit : Nat)
    (faithful : workspace.Faithful world) (has : workspace.Has idA a) :
    Yields (do (← flatten reader limit idA).mapM nameOf) workspace
      (fun names after => LooksUp world.registry reader .everything workspace after ∧
        world.Lists a names)
      (Unlisted world reader workspace limit a) := by
  refine (flatten_yields within limit faithful has).bind (fun found after h => ?_) fun _ _ h => h
  obtain ⟨names, listed, related⟩ := h.answer
  refine (mapM_nameOf_yields related).imp ?_ fun _ _ h => h.elim
  rintro found last ⟨rfl, rfl⟩
  exact ⟨h.looksUp, limit, listed⟩

/-- The first shared ancestor is the first of one list that the other one has. -/
theorem sharedAncestor_yields (within : reader.Within world) (limit : Nat)
    (faithful : workspace.Faithful world) (hasA : workspace.Has idA a)
    (hasB : workspace.Has idB b) :
    (sharedAncestor reader limit idA idB).Yields workspace
      (fun answer after => LooksUp world.registry reader .everything workspace after ∧
        ∃ above aboveOther, world.Lists a above ∧ world.Lists b aboveOther ∧
          answer = (firstShared above aboveOther).getD rootName)
      (fun error after => LooksUp world.registry reader .everything workspace after ∧
        ∃ x, (x = a ∨ x = b) ∧ world.Blames reader limit [] x error ∧
          (reader.Serves world → world.Deep limit [] x ∨ ∀ names, ¬ world.Lists x names)) := by
  have cause {x last error} {after : Workspace} (one : x = a ∨ x = b)
      (h : Unlisted world reader last limit x error after) :
      ∃ x, (x = a ∨ x = b) ∧ world.Blames reader limit [] x error ∧
        (reader.Serves world → world.Deep limit [] x ∨ ∀ names, ¬ world.Lists x names) := by
    refine ⟨x, one, h.blame, fun serves => (h.missing serves).imp_right fun missing => ?_⟩
    rintro names ⟨more, listed⟩
    rw [missing more] at listed
    cases listed
  unfold sharedAncestor
  rw [← bind_assoc]
  refine (ancestors_yields within limit faithful hasA).bind (fun above after h => ?_)
    fun error after h => ⟨h.looksUp, cause (.inl rfl) h⟩
  obtain ⟨looks, listed⟩ := h
  rw [← bind_assoc]
  refine (ancestors_yields within limit (looks.faithful within faithful)
    (hasB.persists (looks.persists faithful.coherent))).bind (fun aboveOther last h => ?_)
    fun error last h => ⟨looks.trans h.looksUp, cause (.inr rfl) h⟩
  exact Yields.pure ⟨looks.trans h.1, above, aboveOther, listed, h.2, rfl⟩

/-- What two types have in common is found if names were looked up only and the types meet. -/
theorem Met.of_looksUp {after : Workspace} {weight : Nat} (sure : workspace.Sure world)
    (looks : LooksUp world.registry reader .everything workspace after)
    (meets : world.Meets a b answer) : Met world reader workspace weight a b answer after where
  proceeds := looks.proceeds
  sure := sure.looksUp looks
  meets := .inl meets
  ordered := fun _ => meets
  few := fun _ _ _ kept => .inl (looks.answers ▸ kept)

/-- What two types have in common is not found if names were looked up only and there is something
to blame. -/
theorem Unmet.of_looksUp {error : HierarchyError} {after : Workspace} (sure : workspace.Sure world)
    (looks : LooksUp world.registry reader .everything workspace after)
    (blame : world.BlamesFor reader limit depth a b error)
    (missing : reader.Serves world → world.DeepFor limit depth a b ∨
      (workspace.Unspoilt world a b → ∀ answer, ¬ world.Meets a b answer)) :
    Unmet world reader workspace limit depth a b error after :=
  ⟨looks.proceeds, sure.looksUp looks, blame, missing⟩

/-- What the elements have in common is what arrays of them have in common. -/
theorem elements_common_yields {ofElements : String → String → Query String}
    (finds : CommonYields world reader limit depth ofElements)
    (faithful : workspace.Faithful world) (sure : workspace.Sure world)
    (hasA : workspace.Has idA a) (hasB : workspace.Has idB b)
    (notUp : world.Finds [] a b false) (notDown : world.Finds [] b a false)
    (first : world.referenceElement a = some x) (second : world.referenceElement b = some y) :
    (arrayDescriptor <$> ofElements x y).Yields workspace
      (Met world reader workspace (layers a + layers b) a b)
      (Unmet world reader workspace limit (depth + 1) a b) := by
  have shapeA := Universe.shape?_of_referenceElement first
  have shapeB := Universe.shape?_of_referenceElement second
  have resolvesA := faithful.resolves hasA.1
  have resolvesB := faithful.resolves hasB.1
  have fewer : layers x + layers y + 1 < layers a + layers b := by
    have inA := layers_of_layout (Universe.shape?_array_iff.1 shapeA).2
    have inB := layers_of_layout (Universe.shape?_array_iff.1 shapeB).2
    omega
  have ordered {inner} (h : world.Meets x y inner) : world.Meets a b (arrayDescriptor inner) :=
    (Universe.meets_iff_unrelated resolvesA resolvesB notUp notDown).2 (.elements first second h)
  have reversed {inner} (h : world.Meets y x inner) : world.Meets b a (arrayDescriptor inner) :=
    (Universe.meets_iff_unrelated resolvesB resolvesA notDown notUp).2 (.elements second first h)
  refine Yields.map ((finds x y workspace faithful sure).imp (fun inner after h => ?_)
    fun error after h => ?_)
  · obtain ⟨met, -⟩ := h
    refine ⟨met.proceeds, met.sure, met.meets.imp ordered reversed,
      fun empty => ordered (met.ordered empty), fun p q found kept => ?_⟩
    exact (met.few p q found kept).imp_right fun less => by omega
  · refine ⟨h.proceeds, h.sure, .elements shapeA shapeB h.blame,
      fun serves => (h.missing serves).imp ?_ ?_⟩
    · rintro (⟨z, nested | nested, deep⟩ | deep)
      · exact .inl ⟨z, .inl (.element shapeA nested), deep⟩
      · exact .inl ⟨z, .inr (.element shapeB nested), deep⟩
      · exact .inr (.element shapeA deep)
    · intro missing _ answer meets
      have unspoilt : workspace.Unspoilt world x y :=
        .inr ⟨notUp.elements shapeA shapeB, notDown.elements shapeB shapeA⟩
      have unrelated := (Universe.meets_iff_unrelated resolvesA resolvesB notUp notDown).1 meets
      cases unrelated with
      | @elements x' y' inner first' second' inside =>
        obtain rfl := Option.some.inj (first.symm.trans first')
        obtain rfl := Option.some.inj (second.symm.trans second')
        exact missing unspoilt inner inside
      | ancestors flat =>
        rw [first, second] at flat
        rcases flat with none | none <;> cases none

/-- What unrelated types have in common is that of their elements or a shared ancestor. -/
theorem unrelated_yields (within : reader.Within world)
    {ofElements : String → String → Query String}
    (finds : CommonYields world reader limit depth ofElements)
    (faithful : workspace.Faithful world) (sure : workspace.Sure world)
    (hasA : workspace.Has idA a) (hasB : workspace.Has idB b)
    (notUp : world.Finds [] a b false) (notDown : world.Finds [] b a false) :
    Yields (do
        match ← referenceElement idA, ← referenceElement idB with
        | some x, some y => return arrayDescriptor (← ofElements (← nameOf x) (← nameOf y))
        | _, _ => sharedAncestor reader limit idA idB) workspace
      (Met world reader workspace (layers a + layers b) a b)
      (Unmet world reader workspace limit (depth + 1) a b) := by
  have iff (answer : String) : world.Meets a b answer ↔ world.Unrelated a b answer :=
    Universe.meets_iff_unrelated (faithful.resolves hasA.1) (faithful.resolves hasB.1) notUp
      notDown
  have ancestors (flat : world.referenceElement a = none ∨ world.referenceElement b = none) :
      (sharedAncestor reader limit idA idB).Yields workspace
        (Met world reader workspace (layers a + layers b) a b)
        (Unmet world reader workspace limit (depth + 1) a b) := by
    refine (sharedAncestor_yields within limit faithful hasA hasB).imp ?_ fun error after h => ?_
    · rintro answer after ⟨looks, above, aboveOther, listed, listed', rfl⟩
      exact .of_looksUp sure looks ((iff _).2 (.ancestors flat listed listed'))
    · obtain ⟨looks, x, one, blame, ended⟩ := h
      refine .of_looksUp sure looks (.walk one blame) fun serves => ?_
      have nested : world.Nests a x ∨ world.Nests b x := by
        rcases one with rfl | rfl
        · exact .inl (.self x)
        · exact .inr (.self x)
      refine (ended serves).imp (fun deep => .inl ⟨x, nested, deep⟩) fun missing _ answer meets => ?_
      cases (iff answer).1 meets with
      | elements first second =>
        rcases flat with none | none
        · rw [first] at none
          cases none
        · rw [second] at none
          cases none
      | ancestors _ first second =>
        rcases one with rfl | rfl
        · exact missing _ first
        · exact missing _ second
  refine (referenceElement_yields faithful hasA).bind ?_ fun _ _ h => h.elim
  rintro first after ⟨rfl, relatedA⟩
  refine (referenceElement_yields faithful hasB).bind ?_ fun _ _ h => h.elim
  rintro second after ⟨rfl, relatedB⟩
  generalize elementA : world.referenceElement a = elementA at relatedA
  generalize elementB : world.referenceElement b = elementB at relatedB
  cases relatedA with
  | none => exact ancestors (.inl elementA)
  | @some nodeA x hasX =>
    cases relatedB with
    | none => exact ancestors (.inr elementB)
    | @some nodeB y hasY =>
      obtain ⟨⟨thisX, foundX, rfl⟩, -⟩ := hasX
      obtain ⟨⟨thisY, foundY, rfl⟩, -⟩ := hasY
      refine Yields.nameOf_bind foundX (Yields.nameOf_bind foundY ?_)
      exact elements_common_yields finds faithful sure hasA hasB notUp notDown elementA elementB

/-- **Two nodes meet in what their names have in common.** -/
theorem meet_yields (within : reader.Within world)
    {ofElements : String → String → Query String}
    (finds : CommonYields world reader limit depth ofElements)
    (faithful : workspace.Faithful world) (sure : workspace.Sure world)
    (hasA : workspace.Has idA a) (hasB : workspace.Has idB b) :
    (meet reader limit ofElements idA idB).Yields workspace
      (Met world reader workspace (layers a + layers b) a b)
      (Unmet world reader workspace limit (depth + 1) a b) := by
  have resolvesA := faithful.resolves hasA.1
  have resolvesB := faithful.resolves hasB.1
  have settled : workspace.Settled [] := fun _ member => (List.not_mem_nil member).elim
  unfold meet isSubclassOf
  refine (reaches_yields within limit idA a workspace ⟨faithful, hasB, settled⟩ hasA).bind
    (fun up after first => ?_) fun error after h => ?_
  · have persists := first.looksUp.persists faithful.coherent
    have faithful' := first.looksUp.faithful within faithful
    have hasA' := hasA.persists persists
    have hasB' := hasB.persists persists
    cases up with
    | true =>
      obtain ⟨⟨node, found, rfl⟩, -⟩ := hasB'
      refine Yields.nameOf found (.of_looksUp sure first.looksUp ?_)
      exact Universe.meets_iff.2 ⟨resolvesA, resolvesB, .inl ⟨⟨limit, first.answer⟩, rfl⟩⟩
    | false =>
      have notUp : world.Finds [] a b false := ⟨limit, first.answer⟩
      refine (reaches_yields within limit idB b after
        ⟨faithful', hasA', settled.persists persists⟩ hasB').bind
        (fun down last second => ?_) fun error last h => ?_
      · have looks := first.looksUp.trans second.looksUp
        have persists' := second.looksUp.persists faithful'.coherent
        cases down with
        | true =>
          obtain ⟨⟨node, found, rfl⟩, -⟩ := hasA'.persists persists'
          refine Yields.nameOf found (.of_looksUp sure looks ?_)
          exact Universe.meets_iff.2 ⟨resolvesA, resolvesB,
            .inr ⟨notUp, .inl ⟨⟨limit, second.answer⟩, rfl⟩⟩⟩
        | false =>
          have notDown : world.Finds [] b a false := ⟨limit, second.answer⟩
          have same := LooksUp.answers looks
          refine (unrelated_yields within finds (second.looksUp.faithful within faithful')
            (sure.looksUp looks) (hasA'.persists persists') (hasB'.persists persists') notUp
            notDown).imp (fun answer final met => ?_) fun error final unmet => ?_
          · exact ⟨(LooksUp.proceeds looks).trans met.proceeds, met.sure, met.meets,
              fun empty => met.ordered (same.trans empty),
              fun p q found kept => (met.few p q found kept).imp_left fun h => same ▸ h⟩
          · refine ⟨(LooksUp.proceeds looks).trans unmet.proceeds, unmet.sure, unmet.blame,
              fun serves => ?_⟩
            exact (unmet.missing serves).imp_right fun missing _ =>
              missing (.inr ⟨notUp, notDown⟩)
      · refine .of_looksUp sure (first.looksUp.trans h.looksUp) (.walk (.inr rfl) h.blame)
          fun serves => ?_
        refine (h.missed serves).imp (fun deep => .inl ⟨b, .inr (.self b), deep⟩) ?_
        rintro missed unspoilt answer
        refine Universe.not_meets_of_second notUp fun found finds => ?_
        obtain ⟨rfl, inner, nested, interface, spoilt⟩ := missed found finds
        rcases unspoilt with pristine | ⟨-, notDown⟩
        · exact spoilt (first.pristine rfl inner ⟨interface, .inr (.inr nested)⟩
            (pristine inner (.inl nested) interface))
        · exact absurd (notDown.unique finds) (by simp)
  · refine .of_looksUp sure h.looksUp (.walk (.inl rfl) h.blame) fun serves => ?_
    refine (h.missed serves).imp (fun deep => .inl ⟨a, .inl (.self a), deep⟩) ?_
    rintro missed unspoilt answer
    refine Universe.not_meets_of_first fun found finds => ?_
    obtain ⟨rfl, inner, nested, interface, spoilt⟩ := missed found finds
    rcases unspoilt with pristine | ⟨notUp, -⟩
    · exact spoilt (pristine inner (.inr nested) interface)
    · exact absurd (notUp.unique finds) (by simp)

/-- To keep an answer keeps what was found true, and gives the answer that is kept. -/
theorem keepAnswer_yields {after : Workspace}
    (met : Met world reader before (layers a + layers b) a b answer after) :
    (keepAnswer a b answer).Yields after
      (fun answer last => Met world reader before (layers a + layers b + 1) a b answer last ∧
        last.caches.answers.answer? a b = some answer) fun _ _ => False := by
  have sure := met.sure.keeping met.meets
  have kept : (after.keeping a b answer).caches.answers.answer? a b =
      some (after.caches.answers.settle a b answer).1 := PairMemo.answer?_settle
  refine ⟨⟨met.proceeds.trans (.move (.keep after a b answer)), sure, sure a b _ kept,
    fun empty => ?_, fun p q found h => ?_⟩, kept⟩
  · -- An answer kept for this pair meanwhile has too many layers to come from the elements.
    rcases PairMemo.of_answer?_settle kept with before | ⟨-, same⟩
    · rcases met.few a b _ before with absent | less
      · rw [empty] at absent
        cases absent
      · omega
    · show world.Meets a b (after.caches.answers.settle a b answer).1
      rw [same]
      exact met.ordered empty
  · rcases PairMemo.of_answer?_settle h with before | ⟨⟨rfl, rfl⟩ | ⟨rfl, rfl⟩, -⟩
    · exact (met.few p q found before).imp_right fun less => by omega
    · exact .inr (Nat.lt_succ_self _)
    · exact .inr (by omega)

/-- An answer that is known is taken from the workspace as it is. -/
theorem Yields.knownAnswer_bind {α : Type} {next : Option String → Query α}
    {ok : α → Workspace → Prop} {failed : HierarchyError → Workspace → Prop}
    (h : (next (workspace.caches.answers.answer? a b)).Yields workspace ok failed) :
    (knownAnswer a b >>= next).Yields workspace ok failed := h

/-- **What two types have in common in a faithful workspace** with sure answers. -/
theorem common_yields (within : reader.Within world) (limit depth : Nat) :
    CommonYields world reader limit depth (common reader limit depth) := by
  induction depth with
  | zero =>
    intro a b before faithful sure
    unfold common
    exact Yields.throw ⟨.refl before, sure, .spent a b, fun _ => .inl (.inr (.spent [] a))⟩
  | succ depth ih =>
    intro a b before faithful sure
    unfold common
    refine Yields.knownAnswer_bind ?_
    -- Where nothing is kept yet there is no hit, so the order in which the pair is given decides.
    cases known : before.caches.answers.answer? a b with
    | some answer =>
      refine Yields.pure ⟨⟨.refl before, sure, sure a b answer known, fun empty => ?_,
        fun _ _ _ kept => .inl kept⟩, known⟩
      rw [empty] at known
      cases known
    | none =>
      refine (typeNode_yields faithful.coherent reader a).bind (fun idA after h => ?_)
        fun error after h => ?_
      · obtain ⟨looks, nodeA, foundA, rfl⟩ := h
        have faithful' := looks.faithful within faithful
        have held : (after.hold idA).Faithful world :=
          ⟨faithful'.coherent.hold foundA, faithful'.told⟩
        have sureAfter : after.Sure world := sure.looksUp looks
        have sureHeld : (after.hold idA).Sure world := sureAfter
        refine Yields.holding ?_
        refine (typeNode_yields held.coherent reader b).bind (fun idB last h => ?_)
          fun error last h => ?_
        · obtain ⟨looks', nodeB, foundB, rfl⟩ := h
          have faithful'' := looks'.faithful within held
          have heldBoth : (last.hold idB).Faithful world :=
            ⟨faithful''.coherent.hold foundB, faithful''.told⟩
          have hasA : (last.hold idB).Has idA nodeA.name := by
            have has : (after.hold idA).Has idA nodeA.name := ⟨⟨nodeA, foundA, rfl⟩, anchored_hold⟩
            have later := has.persists (looks'.persists held.coherent)
            exact ⟨later.1, later.2.hold⟩
          have hasB : (last.hold idB).Has idB nodeB.name := ⟨⟨nodeB, foundB, rfl⟩, anchored_hold⟩
          have sure' : last.Sure world := sureHeld.looksUp looks'
          have same : last.caches.answers = before.caches.answers :=
            looks'.answers.trans looks.answers
          refine Yields.holding ((meet_yields within ih heldBoth sure' hasA hasB).bind
            (fun answer final met => (keepAnswer_yields met).imp (fun kept final' h => ?_)
              fun _ _ h => h.elim) fun error final unmet => ?_)
          · obtain ⟨met, kept⟩ := h
            refine ⟨⟨?_, met.sure, met.meets, fun empty => met.ordered (same.trans empty),
              fun p q found h => ?_⟩, kept⟩
            · exact looks.proceeds.trans (.holding foundA (looks'.proceeds.trans
                (.holding foundB met.proceeds)))
            · exact (met.few p q found h).imp_left fun h => same ▸ h
          · refine ⟨looks.proceeds.trans (.holding foundA (looks'.proceeds.trans
              (.holding foundB unmet.proceeds))), unmet.sure, unmet.blame, fun serves => ?_⟩
            refine (unmet.missing serves).imp_right fun missing unspoilt =>
              missing (unspoilt.imp fun inner pristine => ?_)
            have first : (after.hold idA).Pristine inner :=
              looks.pristine (fun _ absurd => absurd.elim) pristine
            have second : last.Pristine inner :=
              looks'.pristine (fun _ absurd => absurd.elim) first
            exact second
        · have sureLast : last.Sure world := sureHeld.looksUp h.1
          refine ⟨looks.proceeds.trans (.holding foundA h.1.proceeds), sureLast,
            .unread (.inr rfl) h.2, fun serves => .inr fun _ answer meets => ?_⟩
          have lost := serves.not_resolves h.2
          rw [(Universe.meets_iff.1 meets).2.1] at lost
          cases lost
      · refine .of_looksUp sure (h.1.widen (Scope.within_everything _)) (.unread (.inl rfl) h.2)
          fun serves => .inr fun _ answer meets => ?_
        have lost := serves.not_resolves h.2
        rw [(Universe.meets_iff.1 meets).1] at lost
        cases lost

end Query

end ClassLattice
