import ClassLattice.Proofs.Universe.Walks
import ClassLattice.Proofs.Workspace.Faithful

/-!
# Why a walk fails

A walk up a hierarchy fails for one of three causes, each with an error of its own: it is out of
depth, it meets a type that it is in the middle of, or a supertype cannot be looked up.  Which of
them it is, and for which type, is said by the place where the walk stopped.
-/

set_option autoImplicit false

namespace ClassLattice.Universe

variable {world : Universe} {reader : Reader} {depth limit : Nat} {path : List String}
  {name a b x : String} {error : HierarchyError}

/-- A walk from a name can fail with an error.  `depth` is how deep it may go, and `path` holds the
types that it is in the middle of. -/
inductive Blames (world : Universe) (reader : Reader) :
    Nat → List String → String → HierarchyError → Prop
  | spent (path : List String) (name : String) : Blames world reader 0 path name (.tooDeep name)
  | cyclic {depth : Nat} {path : List String} {name : String} (seen : name ∈ path) :
      Blames world reader (depth + 1) path name (.cyclic name)
  | unread {depth : Nat} {path : List String} {name parent : String} {error : HierarchyError}
      (h : world.Extends name parent) (fails : reader.Fails world.registry parent error) :
      Blames world reader (depth + 1) path name error
  | element {depth : Nat} {path : List String} {name element : String} {error : HierarchyError}
      (h : world.shape? name = some (.array element))
      (below : Blames world reader depth path element error) :
      Blames world reader (depth + 1) path name error
  | above {depth : Nat} {path : List String} {name parent : String} {error : HierarchyError}
      (h : world.Extends name parent) (new : name ∉ path)
      (next : Blames world reader depth (name :: path) parent error) :
      Blames world reader (depth + 1) path name error

/-- Finding what two names have in common can fail with an error.  `limit` bounds the walks from the
names, and the other number how many array layers may be taken off. -/
inductive BlamesFor (world : Universe) (reader : Reader) (limit : Nat) :
    Nat → String → String → HierarchyError → Prop
  | spent (a b : String) : BlamesFor world reader limit 0 a b (.tooDeep a)
  | unread {layers : Nat} {a b x : String} {error : HierarchyError} (one : x = a ∨ x = b)
      (fails : reader.Fails world.registry x error) :
      BlamesFor world reader limit (layers + 1) a b error
  | walk {layers : Nat} {a b x : String} {error : HierarchyError} (one : x = a ∨ x = b)
      (blames : world.Blames reader limit [] x error) :
      BlamesFor world reader limit (layers + 1) a b error
  | elements {layers : Nat} {a b x y : String} {error : HierarchyError}
      (first : world.shape? a = some (.array x)) (second : world.shape? b = some (.array y))
      (below : BlamesFor world reader limit layers x y error) :
      BlamesFor world reader limit (layers + 1) a b error

/-- With a reader that serves the universe a walk fails for want of depth or at an obstacle. -/
theorem Blames.deep_or_obstructed (h : world.Blames reader depth path name error)
    (serves : reader.Serves world) : world.Deep depth path name ∨ world.Obstructed path name := by
  induction h with
  | spent path name => exact .inl (.spent path name)
  | cyclic seen => exact .inr (.cyclic seen)
  | unread extended fails => exact .inr (.missing extended (serves.not_resolves fails))
  | element shape _ ih => exact ih.imp (.element shape) (.element shape)
  | above extended new _ ih => exact ih.imp (.above extended new) (.above extended)

/-- A walk from a name can fail with an error, and not for want of depth. -/
def Stalls (world : Universe) (reader : Reader) (name : String) (error : HierarchyError) : Prop :=
  ∃ depth, world.Blames reader depth [] name error ∧ ¬ world.Deep depth [] name

/-- Where the reader serves the universe, a walk stalls at names only that are obstructed. -/
theorem Stalls.obstructed (h : world.Stalls reader name error) (serves : reader.Serves world) :
    world.Obstructed [] name := by
  obtain ⟨depth, blames, shallow⟩ := h
  exact (blames.deep_or_obstructed serves).resolve_left shallow

/-- Where the reader serves the universe, what is to blame is depth or a bar. -/
theorem BlamesFor.deepFor_or_barred {layers : Nat}
    (h : world.BlamesFor reader limit layers a b error) (serves : reader.Serves world) :
    world.DeepFor limit layers a b ∨ world.Barred a b := by
  have nested {a b x : String} (one : x = a ∨ x = b) : world.Nests a x ∨ world.Nests b x := by
    rcases one with rfl | rfl
    · exact .inl (.self x)
    · exact .inr (.self x)
  induction h with
  | spent a b => exact .inl (.inr (.spent [] a))
  | unread one fails =>
    have lost := serves.not_resolves fails
    rcases one with rfl | rfl
    · exact .inr (.inl lost)
    · exact .inr (.inr (.inl lost))
  | @walk layers a b x error one blames =>
    exact (blames.deep_or_obstructed serves).imp (fun deep => .inl ⟨x, nested one, deep⟩)
      fun obstructed => .inr (.inr ⟨x, nested one, obstructed⟩)
  | elements first second _ ih =>
    rcases ih with
      (⟨z, nested | nested, deep⟩ | deep) | lost | lost | ⟨z, nested | nested, obstructed⟩
    · exact .inl (.inl ⟨z, .inl (.element first nested), deep⟩)
    · exact .inl (.inl ⟨z, .inr (.element second nested), deep⟩)
    · exact .inl (.inr (.element first deep))
    · exact .inr (.inl (by rw [resolves_array first]; exact lost))
    · exact .inr (.inr (.inl (by rw [resolves_array second]; exact lost)))
    · exact .inr (.inr (.inr ⟨z, .inl (.element first nested), obstructed⟩))
    · exact .inr (.inr (.inr ⟨z, .inr (.element second nested), obstructed⟩))

end ClassLattice.Universe
