import ClassLattice.Config.LogFilter
import Mathlib.Data.List.Pairwise

/-!
# What a log filter says about a target

A filter is read directive by directive, and each one takes the place of the one for the same target.
So there is one directive for a target at most, which is the last one that was written for it.
-/

set_option autoImplicit false

namespace ClassLattice.LogFilter

variable {filter : LogFilter}

/-- The directive for a target, or for everything. -/
def for? (filter : LogFilter) (target : Option String) : Option LogDirective :=
  filter.find? fun directive => directive.target = target

/-- What is added is found for its own target, and all others have what they had. -/
theorem for?_add (filter : LogFilter) (directive : LogDirective) (target : Option String) :
    (filter.add directive).for? target =
      if directive.target = target then some directive else filter.for? target := by
  have rest : for? (List.filter (fun other => other.target ≠ directive.target) filter) target =
      if directive.target = target then none else filter.for? target := by
    rw [for?, List.find?_filter]
    split
    · rename_i same
      rw [List.find?_eq_none]
      intro other _
      simp [same]
    · rename_i apart
      refine congrArg (List.find? · filter) (funext fun other => ?_)
      by_cases this : other.target = target
      · simp [this, Ne.symm apart]
      · simp [this]
  have parts : (filter.add directive).for? target =
      (for? (List.filter (fun other => other.target ≠ directive.target) filter) target).or
        (if directive.target = target then some directive else none) := by
    rw [add, for?, List.find?_append, List.find?_singleton]
    simp [for?]
  rw [parts, rest]
  by_cases same : directive.target = target <;> simp [same]

/-- **Of several directives for one target the last counts.** -/
theorem for?_foldl_add (directives : List LogDirective) (filter : LogFilter)
    (target : Option String) :
    (directives.foldl add filter).for? target =
      (directives.reverse.find? fun directive => directive.target = target).or
        (filter.for? target) := by
  induction directives generalizing filter with
  | nil => rfl
  | cons directive rest ih =>
    rw [List.foldl_cons, ih, for?_add, List.reverse_cons, List.find?_append, Option.or_assoc]
    by_cases same : directive.target = target <;> simp [same]

/-- What is added shares its target with no other directive. -/
theorem pairwise_add (apart : filter.Pairwise fun a b => a.target ≠ b.target)
    (directive : LogDirective) : (filter.add directive).Pairwise fun a b => a.target ≠ b.target := by
  unfold add
  rw [List.pairwise_append]
  refine ⟨apart.filter _, List.pairwise_singleton _ _, ?_⟩
  intro other kept last isLast
  rw [List.mem_singleton.1 isLast]
  simpa using (List.mem_filter.1 kept).2

/-- **A filter that is read has one directive for a target at most**, the last of those that stand in
the text between commas. -/
theorem of_ofText? {text : String} (read : ofText? text = some filter) :
    (filter.Pairwise fun a b => a.target ≠ b.target) ∧
      ∃ directives, ((text.splitOn ",").filter (· ≠ "")).mapM LogDirective.ofText? =
          some directives ∧
        ∀ target, filter.for? target =
          directives.reverse.find? fun directive => directive.target = target := by
  obtain ⟨directives, all, same⟩ := Option.bind_eq_some_iff.1 read
  cases same
  refine ⟨?_, directives, all, fun target => ?_⟩
  · exact List.foldlRecOn directives add List.Pairwise.nil
      fun filter apart directive _ => pairwise_add apart directive
  · rw [for?_foldl_add]
    exact Option.or_none

end ClassLattice.LogFilter
