/-!
# Caches of the values used last

A cache holds values by key, as many as its capacity allows.  Getting a value and putting one in
count as uses of it, and what was not used for longest is given up for what is new.
-/

set_option autoImplicit false

namespace ClassLattice

/-- Values of type `ω` by keys of type `κ`, as many as there is room for. -/
structure Lru (κ ω : Type) where
  capacity : Nat
  /-- The keys with their values, the most recently used first. -/
  entries : List (κ × ω) := []

namespace Lru

variable {κ ω : Type} [BEq κ]

/-- The entries under all keys but one. -/
def others (cache : Lru κ ω) (key : κ) : List (κ × ω) :=
  cache.entries.filter fun entry => !(entry.1 == key)

/-- The value under a key.  If there is one, it is the most recently used from then on. -/
def get (cache : Lru κ ω) (key : κ) : Option ω × Lru κ ω :=
  match cache.entries.find? fun entry => entry.1 == key with
  | some entry => (some entry.2, { cache with entries := entry :: cache.others key })
  | none => (none, cache)

/-- Puts a value under a key, as the most recently used one.  The values that are given up for it
come with the cache: the one that was under the key, and the least recently used ones for which
there is no room any more. -/
def put (cache : Lru κ ω) (key : κ) (value : ω) : List ω × Lru κ ω :=
  let replaced := cache.entries.filter fun entry => entry.1 == key
  let entries := (key, value) :: cache.others key
  ((replaced ++ entries.drop cache.capacity).map Prod.snd,
    { cache with entries := entries.take cache.capacity })

end Lru

end ClassLattice
