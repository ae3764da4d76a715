import ClassLattice.Proofs.FieldType.InternalName
import ClassLattice.Proofs.Query.Descriptor
import ClassLattice.Proofs.Query.Flatten
import ClassLattice.Proofs.Workspace.Provenance

/-!
# Queries that stay among names of types

Where readers and markers give legible names to the supertypes of legible names, whatever a query
meets above a legible type is the name of a type again.  An array that is found has the descriptor
of a type for its name, whoever asked for it.  So what two types have in common is the name of a
type, whether it is one of the two, one of their ancestors, the descriptor of an array or an answer
that was kept.
-/

set_option autoImplicit false

namespace ClassLattice

/-- A name that is legible or begins like that of an array. -/
def IsOrderly (name : String) : Prop := name.toList.head? = some '[' ∨ IsLegibleName name

/-- The name of the root is orderly. -/
theorem isOrderly_rootName : IsOrderly rootName := .inr ⟨by decide, by decide⟩

/-- The internal name of a legible type is orderly. -/
theorem FieldType.isOrderly_internalName {type : FieldType} (legible : type.IsLegible) :
    IsOrderly type.internalName := by
  cases type with
  | base base => exact .inr base.isLegibleName
  | object name => exact .inr (isLegible_object_iff.1 legible)
  | array element => exact .inl element.head_array

/-- The supertypes that a reader has for a legible name have legible names. -/
def Reader.IsLegible (reader : Reader) : Prop :=
  ∀ name metadata, IsLegibleName name → reader.read name = .ok metadata →
    ∀ parent ∈ metadata.superTypeNames, IsLegibleName parent

/-- A reader over types in memory whose supertypes all have legible names. -/
theorem MetadataMap.isLegible_reader {types : MetadataMap}
    (h : ∀ metadata ∈ types.values, ∀ parent ∈ metadata.superTypeNames, IsLegibleName parent) :
    types.reader.IsLegible := by
  intro name metadata _ answer parent member
  have answer : types.read name = .ok metadata := answer
  unfold MetadataMap.read at answer
  split at answer
  · rename_i found stored
    obtain rfl := Except.ok.inj answer
    exact h found (Table.mem_values_of_get? stored) parent member
  · cases answer

/-- No marker has a name that begins like that of an array, and what a marker with a legible name
extends has a legible name. -/
structure Registry.IsLegible (registry : Registry) : Prop where
  bare : ∀ name, registry.contains name = true → name.toList.head? ≠ some '['
  interfaces : ∀ name interfaces, IsLegibleName name →
    registry.table.get? name = some interfaces → ∀ parent ∈ interfaces, IsLegibleName parent

namespace Workspace

variable {registry : Registry} {reader : Reader} {scope : Scope} {old new workspace : Workspace}
  {id : NodeId} {node : Node} {name parent : String}

/-- A workspace that was filled by legible readers, in which every answer for a pair of orderly
names is the name of a type. -/
structure Orderly (registry : Registry) (workspace : Workspace) : Prop where
  legible : registry.IsLegible
  coherent : workspace.Coherent registry
  stems : workspace.StemsFrom registry Reader.IsLegible
  answers : ∀ a b answer, workspace.caches.answers.answer? a b = some answer →
    IsOrderly a → IsOrderly b → IsTypeName answer

namespace Orderly

/-- Steps with a legible reader that keep no answer keep a workspace orderly. -/
theorem steps (orderly : old.Orderly registry) (legible : reader.IsLegible)
    (h : Steps registry reader old new) (same : new.caches.answers = old.caches.answers) :
    new.Orderly registry where
  legible := orderly.legible
  coherent := h.coherent orderly.coherent
  stems := orderly.stems.steps legible h
  answers := by
    rw [same]
    exact orderly.answers

/-- Look-ups by a legible reader keep a workspace orderly. -/
theorem looksUp (orderly : old.Orderly registry) (legible : reader.IsLegible)
    (h : LooksUp registry reader scope old new) : new.Orderly registry :=
  orderly.steps legible h.proceeds.steps h.answers

/-- **A node with an orderly name has the name of a type.** -/
theorem isTypeName (orderly : workspace.Orderly registry)
    (named : workspace.heap.Names id name) (h : IsOrderly name) : IsTypeName name := by
  by_cases bracket : name.toList.head? = some '['
  · obtain ⟨type, plain, rfl⟩ :=
      orderly.coherent.exists_array orderly.legible.bare bracket named
    exact isTypeName_descriptor (FieldType.hasPlainCore_iff.1 plain).1
  · exact (isTypeName_iff_of_bare bracket).2 (h.resolve_left bracket)

/-- **The supertypes of a node with an orderly name have orderly names.** -/
theorem supertype (orderly : workspace.Orderly registry)
    (found : workspace.heap.get? id = some node) (h : IsOrderly node.name)
    (listed : node.outline.superName = some parent ∨ parent ∈ node.outline.interfaceNames) :
    IsOrderly parent := by
  obtain ⟨shape, shows, allowed⟩ := orderly.coherent.shapes id node found
  have stems := orderly.stems id node found
  rw [Heap.Shows] at shows
  generalize node.outline = outline at shows listed stems
  cases shows with
  | root => simp [Shape.superName, Shape.interfaceNames] at listed
  | primitive base => simp [Shape.superName, Shape.interfaceNames] at listed
  | array named =>
    obtain same | none := listed
    · obtain rfl := Option.some.inj same
      exact isOrderly_rootName
    · exact absurd none List.not_mem_nil
  | declared declaration =>
    generalize node.name = name at h stems allowed
    cases allowed with
    | pinned told =>
      obtain ⟨interfaces, registered, rfl⟩ := Registry.of_shape?_declared told
      have bare := orderly.legible.bare name (Table.contains_iff_get?.2 ⟨interfaces, registered⟩)
      have member : parent ∈ interfaces := by
        rcases listed with extended | member
        · cases extended
        · exact member
      exact .inr (orderly.legible.interfaces name interfaces (h.resolve_left bare) registered
        parent member)
    | declared free plain _ =>
      obtain ⟨reader, metadata, legible, answer, same⟩ := stems free plain
      obtain rfl := Shape.declared.inj same
      have member : parent ∈ metadata.superTypeNames := by
        unfold TypeMetadata.superTypeNames
        rw [List.mem_append, Option.mem_toList]
        exact listed
      exact .inr (legible name metadata (h.resolve_left (head_of_layout_flat plain)) answer parent
        member)

/-- To hold a node keeps a workspace orderly. -/
theorem hold (orderly : workspace.Orderly registry) (found : workspace.heap.get? id = some node) :
    (workspace.hold id).Orderly registry :=
  ⟨orderly.legible, orderly.coherent.hold found, orderly.stems, orderly.answers⟩

/-- To let go of a node keeps a workspace orderly. -/
theorem letGo (orderly : workspace.Orderly registry) : (workspace.letGo id).Orderly registry :=
  ⟨orderly.legible, orderly.coherent.letGo,
    fun other node found => orderly.stems other node (Heap.get?_of_get?_reclaim found),
    orderly.answers⟩

/-- An answer that is the name of a type is kept. -/
theorem keeping {a b answer : String} (orderly : workspace.Orderly registry)
    (h : IsOrderly a → IsOrderly b → IsTypeName answer) :
    (workspace.keeping a b answer).Orderly registry where
  legible := orderly.legible
  coherent := orderly.coherent.keeping a b answer
  stems := orderly.stems
  answers := by
    intro p q found kept orderlyP orderlyQ
    rcases PairMemo.of_answer?_settle kept with before | ⟨⟨rfl, rfl⟩ | ⟨rfl, rfl⟩, rfl⟩
    · exact orderly.answers p q found before orderlyP orderlyQ
    · exact h orderlyP orderlyQ
    · exact h orderlyQ orderlyP

end Orderly

/-- A node is anchored and has an orderly name. -/
def HasOrderly (workspace : Workspace) (id : NodeId) : Prop :=
  ∃ name, workspace.Has id name ∧ IsOrderly name

/-- A node in use under an orderly name stays so. -/
theorem HasOrderly.persists (h : old.HasOrderly id) (persists : Persists old new) :
    new.HasOrderly id := by
  obtain ⟨name, has, orderly⟩ := h
  exact ⟨name, has.persists persists, orderly⟩

/-- The ancestors met so far are anchored and have orderly names. -/
structure MetOrderly (workspace : Workspace) (ancestors : Ancestors) : Prop where
  classes : ∀ id ∈ ancestors.classes, workspace.HasOrderly id
  interfaces : ∀ ranked ∈ ancestors.interfaces, workspace.HasOrderly ranked.node

namespace MetOrderly

variable {ancestors : Ancestors}

/-- Nothing that was collected is orderly. -/
theorem empty (workspace : Workspace) : workspace.MetOrderly {} :=
  ⟨fun _ member => absurd member List.not_mem_nil, fun _ member => absurd member List.not_mem_nil⟩

/-- What was collected stays orderly. -/
theorem persists (met : old.MetOrderly ancestors) (persists : Persists old new) :
    new.MetOrderly ancestors :=
  ⟨fun id member => (met.classes id member).persists persists,
    fun ranked member => (met.interfaces ranked member).persists persists⟩

/-- An orderly class may be added to what was collected. -/
theorem addClass (met : workspace.MetOrderly ancestors) (has : workspace.HasOrderly id) :
    workspace.MetOrderly (ancestors.addClass id) :=
  ⟨List.forall_mem_cons.2 ⟨has, met.classes⟩, met.interfaces⟩

/-- An orderly interface may be added to what was collected. -/
theorem addInterface {ranked : RankedInterface} (met : workspace.MetOrderly ancestors)
    (has : workspace.HasOrderly ranked.node) :
    workspace.MetOrderly (ancestors.addInterface ranked) := by
  unfold Ancestors.addInterface
  split
  · exact met
  · exact ⟨met.classes, List.forall_mem_cons.2 ⟨has, met.interfaces⟩⟩

/-- All that was collected is in use under orderly names. -/
theorem toList (met : workspace.MetOrderly ancestors) :
    ∀ id ∈ ancestors.toList, workspace.HasOrderly id := by
  intro id member
  rcases List.mem_append.1 member with chain | sorted
  · exact met.classes id (List.mem_reverse.1 chain)
  · obtain ⟨ranked, listed, rfl⟩ := List.mem_map.1 sorted
    exact met.interfaces ranked (List.mem_reverse.1 (List.mem_mergeSort.1 listed))

end MetOrderly

end Workspace

namespace Query

open Workspace

variable {α β : Type} {registry : Registry} {reader : Reader} {workspace : Workspace}
  {query : Query α} {next : α → Query β} {ok : α → Workspace → Prop} {ok' : β → Workspace → Prop}
  {id : NodeId} {x : String}

/-- Exploring keeps a workspace orderly. -/
theorem Explores.orderly (h : Explores reader query) (legible : reader.IsLegible)
    (orderly : workspace.Orderly registry) :
    query.Yields workspace (fun _ after => after.Orderly registry)
      fun _ after => after.Orderly registry :=
  (h.yields orderly.coherent).imp (fun _ _ looks => orderly.looksUp legible looks)
    fun _ _ looks => orderly.looksUp legible looks

/-- What follows an exploration starts from an orderly workspace in which all that was anchored
is still. -/
theorem Yields.bind_orderly (legible : reader.IsLegible) (explores : Explores reader query)
    (orderly : workspace.Orderly registry) (h : query.Yields workspace ok fun _ _ => True)
    (rest : ∀ value after, Persists workspace after → after.Orderly registry → ok value after →
      (next value).Yields after ok' fun _ _ => True) :
    (query >>= next).Yields workspace ok' fun _ _ => True := by
  refine ((explores.yields orderly.coherent).and h).bind (fun value after h => ?_)
    fun _ _ _ => trivial
  obtain ⟨looks, holds⟩ := h
  exact rest value after (looks.persists orderly.coherent) (orderly.looksUp legible looks) holds

/-! ## Edges -/

/-- **The superclass of a node with an orderly name** has one too. -/
theorem superclass_orderly (orderly : workspace.Orderly registry) (has : workspace.HasOrderly id) :
    (superclass reader id).Yields workspace
      (fun parent after => ∀ target, parent = some target → after.HasOrderly target)
      fun _ _ => True := by
  obtain ⟨_, ⟨⟨node, found, rfl⟩, anchored⟩, named⟩ := has
  refine (superclass_yields orderly.coherent reader anchored found).imp (fun parent after h => ?_)
    fun _ _ _ => trivial
  obtain ⟨-, related, -⟩ := h
  rintro target rfl
  generalize superName : node.outline.superName = declared at related
  cases related with
  | @some _ p has => exact ⟨p, has, orderly.supertype found named (.inl superName)⟩

/-- **The interfaces of a node with an orderly name** have such names. -/
theorem interfaces_orderly (orderly : workspace.Orderly registry) (has : workspace.HasOrderly id) :
    (interfaces reader id).Yields workspace
      (fun targets after => ∀ target ∈ targets, after.HasOrderly target) fun _ _ => True := by
  obtain ⟨_, ⟨⟨node, found, rfl⟩, anchored⟩, named⟩ := has
  refine (interfaces_yields orderly.coherent reader anchored found).imp (fun targets after h => ?_)
    fun _ _ _ => trivial
  obtain ⟨-, related⟩ := h
  intro target member
  obtain ⟨p, listed, has⟩ := related.exists_right member
  exact ⟨p, has, orderly.supertype found named (.inr listed)⟩

/-! ## The list of ancestors -/

/-- A walk gathers nodes with orderly names. -/
abbrev GathersOrderly (registry : Registry) (walk : NodeId → Ancestors → Query (Nat × Ancestors)) :
    Prop :=
  ∀ id ancestors workspace, workspace.Orderly registry → workspace.HasOrderly id →
    workspace.MetOrderly ancestors →
      (walk id ancestors).Yields workspace (fun found after => after.MetOrderly found.2)
        fun _ _ => True

variable {chain beside : NodeId → Ancestors → Query (Nat × Ancestors)} {ancestors : Ancestors}

/-- **A sum over targets keeps a workspace and what was collected orderly.** -/
theorem foldlM_orderly (legible : reader.IsLegible)
    (explores : ∀ id ancestors, Explores reader (beside id ancestors))
    (walks : GathersOrderly registry beside) (orderly : workspace.Orderly registry)
    (targets : List NodeId) (each : ∀ target ∈ targets, workspace.HasOrderly target)
    (start : Nat × Ancestors) (met : workspace.MetOrderly start.2) :
    (targets.foldlM (fun (strength, met) parent => do
        let (more, met) ← beside parent met
        return (addStrength strength more, met)) start).Yields workspace
      (fun found after => after.MetOrderly found.2) fun _ _ => True := by
  induction targets generalizing workspace start with
  | nil => exact Yields.pure met
  | cons target rest ih =>
    rw [List.foldlM_cons]
    have step : Explores reader (do
        let (more, met) ← beside target start.2
        return (addStrength start.1 more, met)) :=
      (explores target start.2).bind fun found => .pure _
    have gathered : Yields (do
        let (more, met) ← beside target start.2
        return (addStrength start.1 more, met)) workspace
        (fun found after => after.MetOrderly found.2) fun _ _ => True :=
      (walks target start.2 workspace orderly (each target List.mem_cons_self) met).bind
        (fun _ _ h => Yields.pure h) fun _ _ h => h
    refine gathered.bind_orderly legible step orderly fun found after persists orderly' met' => ?_
    apply ih orderly' _ found met'
    intro other member
    exact (each other (List.mem_cons_of_mem _ member)).persists persists

/-- To collect what is beside a type keeps all orderly. -/
theorem collectBeside_orderly (legible : reader.IsLegible)
    (explores : ∀ id ancestors, Explores reader (beside id ancestors))
    (walks : GathersOrderly registry beside) (orderly : workspace.Orderly registry)
    (has : workspace.HasOrderly id) (met : workspace.MetOrderly ancestors) (this : Node)
    (depth : Nat) :
    (collectBeside reader beside id this depth ancestors).Yields workspace
      (fun found after => after.MetOrderly found.2) fun _ _ => True := by
  unfold collectBeside
  refine (interfaces_orderly orderly has).bind_orderly legible (.interfaces id) orderly
    fun targets mid persists orderly' each => ?_
  have each' : ∀ target ∈ targets.reverse, mid.HasOrderly target := by
    intro target member
    exact each target (List.mem_reverse.1 member)
  refine (foldlM_orderly legible explores walks orderly' targets.reverse each' _
    (met.persists persists)).bind_orderly legible
    (.foldlM (fun (value : Nat × Ancestors) parent =>
      (explores parent value.2).bind fun found => .pure _) _) orderly'
    fun found after persists' _ gathered => ?_
  dsimp only
  split
  · exact Yields.pure (gathered.addInterface ((has.persists persists).persists persists'))
  · exact Yields.pure gathered

/-- To collect what is above a type keeps all orderly. -/
theorem collectAbove_orderly (legible : reader.IsLegible)
    (explores : ∀ id ancestors, Explores reader (chain id ancestors))
    (explores' : ∀ id ancestors, Explores reader (beside id ancestors))
    (chains : GathersOrderly registry chain) (besides : GathersOrderly registry beside)
    (orderly : workspace.Orderly registry) (has : workspace.HasOrderly id)
    (met : workspace.MetOrderly ancestors) (this : Node) (depth : Nat) :
    (collectAbove reader chain beside id this depth ancestors).Yields workspace
      (fun found after => after.MetOrderly found.2) fun _ _ => True := by
  unfold collectAbove
  refine (superclass_orderly orderly has).bind_orderly legible (.superclass id) orderly
    fun parent mid persists orderly' related => ?_
  have has' := has.persists persists
  have met' := met.persists persists
  cases parent with
  | none => exact collectBeside_orderly legible explores' besides orderly' has' met' this depth
  | some parent =>
    have gathered := chains parent ancestors mid orderly' (related parent rfl) met'
    have above : (Prod.snd <$> chain parent ancestors).Yields mid
        (fun withChain after => after.MetOrderly withChain) fun _ _ => True := Yields.map gathered
    refine above.bind_orderly legible ((explores parent ancestors).map Prod.snd) orderly'
      fun withChain last persists' orderly'' met'' => ?_
    exact collectBeside_orderly legible explores' besides orderly'' (has'.persists persists') met''
      this depth

/-- **The walk over all ancestors gathers nodes with orderly names.** -/
theorem collect_orderly (legible : reader.IsLegible) (limit : Nat) (path : List String)
    (onChain : Bool) (depth : Nat) :
    GathersOrderly registry (collect reader limit path onChain depth) := by
  induction limit generalizing path onChain depth with
  | zero =>
    intro id ancestors workspace orderly has met
    obtain ⟨_, ⟨⟨node, found, rfl⟩, -⟩, -⟩ := has
    exact Yields.nameOf_bind found (Yields.throw trivial)
  | succ limit ih =>
    intro id ancestors workspace orderly has met
    have here := has
    obtain ⟨_, ⟨⟨this, found, rfl⟩, -⟩, -⟩ := has
    unfold collect
    refine Yields.node_bind found ?_
    have above : Yields (if path.contains this.name then throw (.cyclic this.name)
        else collectAbove reader (collect reader limit (this.name :: path) onChain (depth + 1))
          (collect reader limit (this.name :: path) false (depth + 1)) id this depth
          (if onChain && !this.isInterface then ancestors.addClass id else ancestors)) workspace
        (fun found after => after.MetOrderly found.2) fun _ _ => True := by
      split
      · exact Yields.throw trivial
      · apply collectAbove_orderly legible (.collect limit _ _ _) (.collect limit _ _ _) (ih _ _ _)
          (ih _ _ _) orderly here
        split
        · exact met.addClass here
        · exact met
    obtain ⟨name, kind⟩ := this
    cases kind with
    | declared supertypes => exact above
    | special supertypes => exact above
    | _ => exact Yields.pure met

/-- **All ancestors of a type with an orderly name** have such names. -/
theorem flatten_orderly (legible : reader.IsLegible) (limit : Nat)
    (orderly : workspace.Orderly registry) (has : workspace.HasOrderly id) :
    (flatten reader limit id).Yields workspace
      (fun found after => ∀ other ∈ found, after.HasOrderly other) fun _ _ => True := by
  have here := has
  obtain ⟨_, ⟨⟨this, found, rfl⟩, -⟩, -⟩ := has
  have root : workspace.HasOrderly workspace.store.root :=
    ⟨rootName, orderly.coherent.has_root, isOrderly_rootName⟩
  have listed : Yields (do
      let (_, ancestors) ← collect reader limit [] true 0 id {}
      return ancestors.toList ++ [workspace.store.root]) workspace
      (fun found after => ∀ other ∈ found, after.HasOrderly other) fun _ _ => True := by
    refine (collect_orderly legible limit [] true 0 id {} workspace orderly here
      (.empty workspace)).bind_orderly legible (.collect limit _ _ _ _ _) orderly
      fun found after persists _ met => ?_
    refine Yields.pure fun other member => ?_
    rcases List.mem_append.1 member with above | last
    · exact met.toList other above
    · obtain rfl := List.mem_singleton.1 last
      exact root.persists persists
  unfold flatten
  refine Yields.get_bind (Yields.node_bind found ?_)
  obtain ⟨name, kind⟩ := this
  cases kind with
  | declared supertypes => exact listed
  | special supertypes => exact listed
  | array element =>
    refine Yields.pure (List.forall_mem_cons.2 ⟨here, ?_⟩)
    exact List.forall_mem_singleton.2 root
  | _ => exact Yields.pure (List.forall_mem_singleton.2 here)

/-! ## What two types have in common -/

/-- The names of nodes with orderly names are names of types. -/
theorem mapM_nameOf_orderly (orderly : workspace.Orderly registry) (ids : List NodeId)
    (each : ∀ id ∈ ids, workspace.HasOrderly id) :
    (ids.mapM nameOf).Yields workspace (fun names _ => ∀ name ∈ names, IsTypeName name)
      fun _ _ => True := by
  induction ids with
  | nil => exact Yields.pure fun name member => absurd member List.not_mem_nil
  | cons id rest ih =>
    obtain ⟨_, ⟨named, -⟩, orderlyName⟩ := each id List.mem_cons_self
    have head := orderly.isTypeName named orderlyName
    obtain ⟨this, found, rfl⟩ := named
    rw [List.mapM_cons]
    refine Yields.nameOf_bind found ?_
    refine (ih fun other member => each other (List.mem_cons_of_mem _ member)).bind
      (fun names after all => Yields.pure ?_) fun _ _ h => h
    exact List.forall_mem_cons.2 ⟨head, all⟩

/-- **The ancestor that two types share** is the name of a type if what is above the first is
orderly. -/
theorem sharedAncestor_orderly (legible : reader.IsLegible) (limit : Nat) {a : NodeId} (b : NodeId)
    (orderly : workspace.Orderly registry) (has : workspace.HasOrderly a) :
    (sharedAncestor reader limit a b).Yields workspace (fun answer _ => IsTypeName answer)
      fun _ _ => True := by
  unfold sharedAncestor
  refine (flatten_orderly legible limit orderly has).bind_orderly legible (.flatten limit a) orderly
    fun ids mid _ orderly' each => ?_
  refine (mapM_nameOf_orderly orderly' ids each).bind_orderly legible (.mapM .nameOf) orderly'
    fun above last _ orderly'' named => ?_
  refine ((Explores.flatten limit b).orderly legible orderly'').bind
    (fun idsOther next orderly₃ => ?_) fun _ _ _ => trivial
  refine ((Explores.mapM .nameOf).orderly legible orderly₃).bind
    (fun aboveOther final _ => Yields.pure ?_) fun _ _ _ => trivial
  unfold firstShared
  cases shared : above.find? aboveOther.contains with
  | none => exact isTypeName_rootName
  | some name => exact named name (List.mem_of_find?_eq_some shared)

/-- **The element of an array has an orderly name**, whoever asked for the array. -/
theorem referenceElement_orderly (orderly : workspace.Orderly registry)
    (has : workspace.Has id x) :
    (referenceElement id).Yields workspace
      (fun found after => after = workspace ∧ ∀ element, found = some element →
        workspace.HasOrderly element) fun _ _ => False := by
  refine (referenceElement_anchors orderly.coherent has).imp (fun found after h => ?_)
    fun _ _ absurd => absurd
  refine ⟨h.1, fun element same => ?_⟩
  obtain ⟨inner, hasInner, -, laid⟩ := h.2 element same
  refine ⟨inner, hasInner, ?_⟩
  rcases spelling_of_layout laid with ⟨plain | nested, -⟩ | ⟨base, rfl, -⟩
  · exact .inr ⟨plain.nonempty, plain.noSemicolon⟩
  · exact .inl nested
  · exact .inr base.isLegibleName

/-- A search keeps workspaces orderly, and finds the name of a type for two orderly names. -/
abbrev FindsTypeNames (registry : Registry) (find : String → String → Query String) : Prop :=
  ∀ a b workspace, workspace.Orderly registry →
    (find a b).Yields workspace
      (fun answer after =>
        after.Orderly registry ∧ (IsOrderly a → IsOrderly b → IsTypeName answer))
      fun _ after => after.Orderly registry

/-- **Orderly nodes meet in the name of a type.** -/
theorem meet_orderly (legible : reader.IsLegible) (limit : Nat)
    {ofElements : String → String → Query String} (finds : FindsTypeNames registry ofElements)
    {a b : String} {idA idB : NodeId} (orderly : workspace.Orderly registry)
    (hasA : workspace.Has idA a) (hasB : workspace.Has idB b) :
    (meet reader limit ofElements idA idB).Yields workspace
      (fun answer after =>
        after.Orderly registry ∧ (IsOrderly a → IsOrderly b → IsTypeName answer))
      fun _ after => after.Orderly registry := by
  unfold meet isSubclassOf
  refine ((Explores.reaches limit [] idA idB).yields orderly.coherent).bind
    (fun up mid looks => ?_) fun _ _ looks => orderly.looksUp legible looks
  have orderly₁ := orderly.looksUp legible looks
  have hasA₁ := hasA.persists (looks.persists orderly.coherent)
  have hasB₁ := hasB.persists (looks.persists orderly.coherent)
  split
  · obtain ⟨named, -⟩ := hasB₁
    have found : IsOrderly b → IsTypeName b := orderly₁.isTypeName named
    obtain ⟨this, alive, rfl⟩ := named
    exact Yields.nameOf alive ⟨orderly₁, fun _ => found⟩
  refine ((Explores.reaches limit [] idB idA).yields orderly₁.coherent).bind
    (fun down last looks' => ?_) fun _ _ looks' => orderly₁.looksUp legible looks'
  have orderly₂ := orderly₁.looksUp legible looks'
  have hasA₂ := hasA₁.persists (looks'.persists orderly₁.coherent)
  have hasB₂ := hasB₁.persists (looks'.persists orderly₁.coherent)
  split
  · obtain ⟨named, -⟩ := hasA₂
    have found : IsOrderly a → IsTypeName a := orderly₂.isTypeName named
    obtain ⟨this, alive, rfl⟩ := named
    exact Yields.nameOf alive ⟨orderly₂, fun orderlyA _ => found orderlyA⟩
  refine (referenceElement_orderly orderly₂ hasA₂).bind ?_ fun _ _ absurd => absurd.elim
  rintro first _ ⟨rfl, ofA⟩
  refine (referenceElement_orderly orderly₂ hasB₂).bind ?_ fun _ _ absurd => absurd.elim
  rintro second _ ⟨rfl, ofB⟩
  split
  · rename_i x y
    obtain ⟨_, ⟨⟨nodeA, foundA, rfl⟩, -⟩, orderlyA⟩ := ofA x rfl
    obtain ⟨_, ⟨⟨nodeB, foundB, rfl⟩, -⟩, orderlyB⟩ := ofB y rfl
    refine Yields.nameOf_bind foundA (Yields.nameOf_bind foundB ?_)
    refine (finds nodeA.name nodeB.name _ orderly₂).bind (fun answer after h => ?_) fun _ _ h => h
    obtain ⟨orderly', found⟩ := h
    exact Yields.pure ⟨orderly', fun _ _ => isTypeName_arrayDescriptor (found orderlyA orderlyB)⟩
  · have keeps := (Explores.sharedAncestor limit idA idB).orderly legible orderly₂
    by_cases orderlyA : IsOrderly a
    · have found := sharedAncestor_orderly legible limit idB orderly₂ ⟨a, hasA₂, orderlyA⟩
      exact (keeps.and found).imp (fun _ _ h => ⟨h.1, fun _ _ => h.2⟩) fun _ _ h => h.1
    · exact keeps.imp (fun _ _ h => ⟨h, fun orderlyA' => absurd orderlyA' orderlyA⟩) fun _ _ h => h

/-- To keep an answer keeps a workspace orderly, and an answer for orderly names the name of a type.
-/
theorem keepAnswer_orderly {a b answer : String} (orderly : workspace.Orderly registry)
    (h : IsOrderly a → IsOrderly b → IsTypeName answer) :
    (keepAnswer a b answer).Yields workspace
      (fun kept after =>
        after.Orderly registry ∧ (IsOrderly a → IsOrderly b → IsTypeName kept))
      fun _ _ => False := by
  have orderly' := orderly.keeping h
  exact ⟨orderly', orderly'.answers a b _ PairMemo.answer?_settle⟩

/-- **What two types with orderly names have in common** has the name of a type. -/
theorem common_orderly (legible : reader.IsLegible) (limit layers : Nat) :
    FindsTypeNames registry (common reader limit layers) := by
  induction layers with
  | zero => exact fun a b workspace orderly => Yields.throw orderly
  | succ layers ih =>
    intro a b workspace orderly
    unfold common
    refine Yields.knownAnswer_bind ?_
    cases known : workspace.caches.answers.answer? a b with
    | some answer => exact Yields.pure ⟨orderly, orderly.answers a b answer known⟩
    | none =>
      refine (typeNode_yields orderly.coherent reader a).bind (fun idA mid h => ?_)
        fun _ _ h => orderly.looksUp legible h.1
      obtain ⟨looks, nodeA, foundA, namedA⟩ := h
      have held := (orderly.looksUp legible looks).hold foundA
      have hasA : (mid.hold idA).Has idA a := ⟨⟨nodeA, foundA, namedA⟩, anchored_hold⟩
      refine Yields.holding ?_
      refine (typeNode_yields held.coherent reader b).bind (fun idB last h => ?_)
        fun _ _ h => (held.looksUp legible h.1).letGo
      obtain ⟨looks', nodeB, foundB, namedB⟩ := h
      have heldBoth := (held.looksUp legible looks').hold foundB
      have hasB : (last.hold idB).Has idB b := ⟨⟨nodeB, foundB, namedB⟩, anchored_hold⟩
      have still := hasA.persists (looks'.persists held.coherent)
      refine Yields.holding ?_
      refine (meet_orderly legible limit ih heldBoth ⟨still.1, still.2.hold⟩ hasB).bind
        (fun answer final h => ?_) fun _ _ h => h.letGo.letGo
      exact (keepAnswer_orderly h.1 h.2).imp (fun _ _ h => ⟨h.1.letGo.letGo, h.2⟩)
        fun _ _ absurd => absurd.elim

/-- **What two orderly names have in common is the name of a type.** -/
theorem commonSuperclass_orderly (legible : reader.IsLegible) :
    FindsTypeNames registry (commonSuperclass reader) :=
  fun a b workspace orderly => Yields.get_bind (common_orderly legible _ _ a b workspace orderly)

end Query

end ClassLattice
