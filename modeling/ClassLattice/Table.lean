/-!
# Tables

A table is a finite map that keeps its entries in the order in which their keys first came in.
Writing to a key that is present replaces the value where it stands; a new key goes to the end.
The key type brings its own notion of sameness, so the keys may be names or unordered pairs.
-/

set_option autoImplicit false

namespace ClassLattice

/-- A finite map from keys of type `κ` to values of type `ω`, in order of first insertion. -/
structure Table (κ ω : Type) where
  /-- The keys with their values, each key once. -/
  entries : List (κ × ω) := []
  deriving DecidableEq

namespace Table

variable {κ ω : Type}

/-- The table without keys. -/
def empty : Table κ ω := {}

/-- The number of keys. -/
def size (table : Table κ ω) : Nat := table.entries.length

/-- Whether there are no keys. -/
def isEmpty (table : Table κ ω) : Bool := table.entries.isEmpty

/-- The values in the order of their keys. -/
def values (table : Table κ ω) : List ω := table.entries.map Prod.snd

/-- The keys in the order in which they came in. -/
def keys (table : Table κ ω) : List κ := table.entries.map Prod.fst

/-- The table of the entries to be kept. -/
def filter (table : Table κ ω) (keep : κ → ω → Bool) : Table κ ω :=
  ⟨table.entries.filter fun entry => keep entry.1 entry.2⟩

variable [BEq κ]

/-- The value under a key. -/
def get? (table : Table κ ω) (key : κ) : Option ω :=
  (table.entries.find? fun entry => entry.1 == key).map Prod.snd

/-- Whether there is a value under a key. -/
def contains (table : Table κ ω) (key : κ) : Bool :=
  table.entries.any fun entry => entry.1 == key

/-- Writes to a key in a list of entries: in place if the key is there, else at the end. -/
def write (key : κ) (value : ω) : List (κ × ω) → List (κ × ω)
  | [] => [(key, value)]
  | entry :: rest =>
    if entry.1 == key then (entry.1, value) :: rest else entry :: write key value rest

/-- Puts a value under a key, in the place of the one that was there. -/
def insert (table : Table κ ω) (key : κ) (value : ω) : Table κ ω :=
  ⟨write key value table.entries⟩

/-- Puts a value under a key unless the key has one. -/
def insertIfNew (table : Table κ ω) (key : κ) (value : ω) : Table κ ω :=
  if table.contains key then table else ⟨table.entries ++ [(key, value)]⟩

/-- Takes a key out. -/
def erase (table : Table κ ω) (key : κ) : Table κ ω :=
  ⟨table.entries.filter fun entry => !(entry.1 == key)⟩

/-- The table of a list of entries; of two entries for one key the later value stays. -/
def ofList (entries : List (κ × ω)) : Table κ ω :=
  entries.foldl (fun table entry => table.insert entry.1 entry.2) empty

/-- Writing brings in no entry but the one that is written. -/
theorem mem_write [LawfulBEq κ] {key : κ} {value : ω} {entry : κ × ω} {entries : List (κ × ω)}
    (h : entry ∈ write key value entries) :
    entry = (key, value) ∨ entry ∈ entries := by
  induction entries with
  | nil => simpa [write] using h
  | cons first rest ih =>
    by_cases here : first.1 = key
    · simp only [write, here, BEq.rfl, if_true, List.mem_cons] at h ⊢
      exact h.imp_right .inr
    · have apart : (first.1 == key) = false := by simpa using here
      simp only [write, apart, Bool.false_eq_true, if_false, List.mem_cons] at h ⊢
      rcases h with first | later
      · exact .inr (.inl first)
      · exact (ih later).imp_right .inr

end Table

end ClassLattice
