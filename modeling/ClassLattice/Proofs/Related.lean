import Mathlib.Data.List.Forall2

/-!
# Lists that are related element by element

Members of two lists whose elements correspond to one another in order.
-/

set_option autoImplicit false

namespace List.Forall₂

variable {α β : Type} {related : α → β → Prop} {first : List α} {second : List β}

/-- Every member of the first list is related to one of the second. -/
theorem exists_right (h : Forall₂ related first second) {x : α} (member : x ∈ first) :
    ∃ y ∈ second, related x y := by
  induction h with
  | nil => cases member
  | @cons a b _ _ here _ ih =>
    rcases List.mem_cons.1 member with rfl | later
    · exact ⟨b, List.mem_cons_self, here⟩
    · obtain ⟨y, member, partner⟩ := ih later
      exact ⟨y, List.mem_cons_of_mem _ member, partner⟩

/-- Every member of the second list has one of the first related to it. -/
theorem exists_left (h : Forall₂ related first second) {y : β} (member : y ∈ second) :
    ∃ x ∈ first, related x y := by
  obtain ⟨x, member, partner⟩ := h.flip.exists_right member
  exact ⟨x, member, partner⟩

/-- A relation between members may be replaced by one that follows from it. -/
theorem imp_of_mem {other : α → β → Prop} (h : Forall₂ related first second)
    (imp : ∀ x ∈ first, ∀ y, related x y → other x y) : Forall₂ other first second := by
  induction h with
  | nil => exact .nil
  | @cons a b _ _ here _ ih =>
    exact .cons (imp a List.mem_cons_self b here)
      (ih fun x member => imp x (List.mem_cons_of_mem _ member))

end List.Forall₂
