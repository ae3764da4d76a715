import ClassLattice.Proofs.Query.Edges
import ClassLattice.Proofs.Workspace.Steps

/-!
# Who owns what was read

The caches may drop a node at any time, and then its name is read again.  Nothing is read again for
as long as the nodes of the names that were read are anchored: a reader is asked only for names
without a node, and anchored nodes stay.  What was asked for in one part of a query and is owned at
its end is therefore not asked for in the next.
-/

set_option autoImplicit false

namespace ClassLattice

/-- A name that the look-up of a name goes on to: the name itself, or the name of an element below
it, as long as the arrays around that are not pinned. -/
inductive Registry.LooksInto (registry : Registry) : String → String → Prop
  | self (name : String) : LooksInto registry name name
  | element {name element inner : String} (free : registry.shape? name = none)
      (laid : layout name = .ok (some element)) (h : LooksInto registry element inner) :
      LooksInto registry name inner

namespace Workspace

variable {registry : Registry} {reader : Reader} {old mid new workspace : Workspace} {id : NodeId}
  {name inner : String} {asked names : List String}

/-- What holds a node holds the nodes of the elements below it. -/
theorem Coherent.exists_has (coherent : workspace.Coherent registry) (has : workspace.Has id name)
    (into : registry.LooksInto name inner) : ∃ x, workspace.Has x inner := by
  induction into generalizing id with
  | self => exact ⟨id, has⟩
  | element free laid _ ih =>
    obtain ⟨⟨node, found, rfl⟩, anchored⟩ := has
    obtain ⟨shape, shows, allowed⟩ := coherent.shapes id node found
    cases allowed with
    | pinned told => exact absurd (free.symm.trans told) (by simp)
    | declared _ flat => exact absurd (flat.symm.trans laid) (by simp)
    | array _ laid' =>
      obtain rfl := Option.some.inj (Except.ok.inj (laid'.symm.trans laid))
      obtain ⟨element, isArray, named⟩ := shows.exists_element
      have refers : workspace.heap.Refers id element :=
        ⟨node, found, Node.mem_references_iff.2 (.inl (Node.element?_eq_outline.trans isArray))⟩
      exact ih ⟨named, anchored.tail refers⟩

/-- The names that were asked of a reader between two states, in order. -/
def Asked (old new : Workspace) (asked : List String) : Prop :=
  new.reads.toList = old.reads.toList ++ asked

/-- Nothing was asked twice between two states. -/
def Once (old new : Workspace) : Prop := ∃ asked, Asked old new asked ∧ asked.Nodup

/-- Nothing was asked twice between two states, and all that was asked for is the name of an
anchored node in the end. -/
def Owns (old new : Workspace) : Prop :=
  ∃ asked, Asked old new asked ∧ asked.Nodup ∧ ∀ name ∈ asked, ∃ id, new.Has id name

/-- Nothing was asked twice between two states, and only what the look-up of some names goes on
to. -/
def AsksInto (registry : Registry) (names : List String) (old new : Workspace) : Prop :=
  ∃ asked, Asked old new asked ∧ asked.Nodup ∧
    ∀ inner ∈ asked, ∃ name ∈ names, registry.LooksInto name inner

/-- Nothing was asked where no reading was noted. -/
theorem asked_nil (same : new.reads = old.reads) : Asked old new [] := by
  rw [Asked, same, List.append_nil]

/-- What was asked is told by the readings that were noted. -/
theorem Asked.of_reads (h : Asked old mid asked) (same : new.reads = mid.reads) :
    Asked old new asked := by
  rw [Asked, same]
  exact h

/-- What was asked first and what was asked later were asked one after the other. -/
theorem Asked.trans {later : List String} (first : Asked old mid asked)
    (second : Asked mid new later) : Asked old new (asked ++ later) := by
  rw [Asked, second, first, List.append_assoc]

/-- What is owned was asked once. -/
theorem Owns.once (owns : Owns old new) : Once old new := by
  obtain ⟨asked, reads, nodup, -⟩ := owns
  exact ⟨asked, reads, nodup⟩

/-- Where no reading was noted all is owned. -/
theorem owns_of_reads (same : new.reads = old.reads) : Owns old new :=
  ⟨[], asked_nil same, List.nodup_nil, fun _ member => (List.not_mem_nil member).elim⟩

/-- What look-ups of some names ask for is asked once. -/
theorem AsksInto.once (h : AsksInto registry names old new) : Once old new := by
  obtain ⟨asked, reads, nodup, -⟩ := h
  exact ⟨asked, reads, nodup⟩

/-- Where no reading was noted, look-ups asked for nothing. -/
theorem asksInto_of_reads (same : new.reads = old.reads) : AsksInto registry names old new :=
  ⟨[], asked_nil same, List.nodup_nil, fun _ member => (List.not_mem_nil member).elim⟩

/-- **What was asked is owned once the names that were looked up are anchored.** -/
theorem AsksInto.owns (h : AsksInto registry names old new) (coherent : new.Coherent registry)
    (has : ∀ name ∈ names, ∃ id, new.Has id name) : Owns old new := by
  obtain ⟨asked, reads, nodup, into⟩ := h
  refine ⟨asked, reads, nodup, fun inner member => ?_⟩
  obtain ⟨name, listed, into⟩ := into inner member
  obtain ⟨id, has⟩ := has name listed
  exact coherent.exists_has has into

/-! ## Putting parts together -/

/-- The reader is not asked for the name of an anchored node. -/
theorem Proceeds.not_mem_asked (h : Proceeds registry reader mid new)
    (coherent : mid.Coherent registry) (has : mid.Has id name) (later : Asked mid new asked) :
    name ∉ asked := by
  have after := has.persists (h.persists coherent)
  have count := h.steps.count_reads has.1 after.1
  rw [later, List.count_append] at count
  exact List.count_eq_zero.1 (by omega)

/-- **What is owned is not asked again**, so that what is asked later is new. -/
theorem Owns.nodup_append {later : List String} (h : Proceeds registry reader mid new)
    (coherent : mid.Coherent registry) (nodup : asked.Nodup)
    (owned : ∀ name ∈ asked, ∃ id, mid.Has id name) (reads : Asked mid new later)
    (nodup' : later.Nodup) : (asked ++ later).Nodup := by
  refine List.nodup_append.2 ⟨nodup, nodup', ?_⟩
  rintro name before _ after rfl
  obtain ⟨id, has⟩ := owned name before
  exact h.not_mem_asked coherent has reads after

/-- **What is owned is not asked for again.** -/
theorem Owns.once_trans (owns : Owns old mid) (h : Proceeds registry reader mid new)
    (coherent : mid.Coherent registry) (once : Once mid new) : Once old new := by
  obtain ⟨asked, reads, nodup, owned⟩ := owns
  obtain ⟨later, reads', nodup'⟩ := once
  exact ⟨asked ++ later, reads.trans reads',
    Owns.nodup_append h coherent nodup owned reads' nodup'⟩

/-- **What is owned stays owned.** -/
theorem Owns.trans (owns : Owns old mid) (h : Proceeds registry reader mid new)
    (coherent : mid.Coherent registry) (owns' : Owns mid new) : Owns old new := by
  obtain ⟨asked, reads, nodup, owned⟩ := owns
  obtain ⟨later, reads', nodup', owned'⟩ := owns'
  refine ⟨asked ++ later, reads.trans reads',
    Owns.nodup_append h coherent nodup owned reads' nodup', fun name member => ?_⟩
  rcases List.mem_append.1 member with before | here
  · obtain ⟨id, has⟩ := owned name before
    exact ⟨id, has.persists (h.persists coherent)⟩
  · exact owned' name here

end Workspace

end ClassLattice
