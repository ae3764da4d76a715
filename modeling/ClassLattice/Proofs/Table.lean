import ClassLattice.Table
import Mathlib.Data.List.Basic

/-!
# Reading a table after a change

What is found under a key after a table has been written to or filtered, and which entries a table
has then.
-/

set_option autoImplicit false

namespace ClassLattice.Table

/-- Entries that are kept have distinct keys still. -/
theorem nodup_keys_filter {κ ω : Type} {table : Table κ ω} {keep : κ → ω → Bool}
    (once : table.keys.Nodup) : (table.filter keep).keys.Nodup :=
  once.sublist (List.filter_sublist.map Prod.fst)

section Keys

variable {κ ω : Type} [BEq κ] {table : Table κ ω} {key other : κ} {value : ω}

/-- Nothing is under any key of the empty table. -/
@[simp] theorem get?_empty : (empty : Table κ ω).get? key = none := rfl

/-- A key is there if a value is under it. -/
theorem contains_iff_get? : table.contains key = true ↔ ∃ value, table.get? key = some value := by
  simp only [contains, get?, List.any_eq_true, Option.map_eq_some_iff]
  constructor
  · rintro ⟨entry, member, same⟩
    have found : (table.entries.find? fun entry => entry.1 == key).isSome := by
      simpa only [List.find?_isSome] using ⟨entry, member, same⟩
    obtain ⟨first, hfirst⟩ := Option.isSome_iff_exists.1 found
    exact ⟨first.2, first, hfirst, rfl⟩
  · rintro ⟨-, entry, found, -⟩
    exact ⟨entry, List.mem_of_find?_eq_some found, by simpa using List.find?_some found⟩

/-- A value that is found is that of an entry with the key. -/
theorem mem_of_get? (h : table.get? key = some value) :
    ∃ entry ∈ table.entries, (entry.1 == key) = true ∧ entry.2 = value := by
  obtain ⟨entry, found, rfl⟩ := Option.map_eq_some_iff.1 h
  exact ⟨entry, List.mem_of_find?_eq_some found, by simpa using List.find?_some found, rfl⟩

/-- A value that is found is one of the values. -/
theorem mem_values_of_get? (h : table.get? key = some value) : value ∈ table.values := by
  obtain ⟨entry, member, -, rfl⟩ := mem_of_get? h
  exact List.mem_map_of_mem member

end Keys

section LawfulKeys

variable {κ ω : Type} [BEq κ] [LawfulBEq κ] {table : Table κ ω} {key other : κ} {value : ω}

/-- A value that is found is in an entry, under its key. -/
theorem mem_entries_of_get? (h : table.get? key = some value) : (key, value) ∈ table.entries := by
  obtain ⟨⟨found, content⟩, member, same, rfl⟩ := mem_of_get? h
  obtain rfl : found = key := by simpa using same
  exact member

/-- Writing changes what is found under the key and nothing else. -/
theorem find?_write (entries : List (κ × ω)) :
    ((write key value entries).find? fun entry => entry.1 == other).map Prod.snd =
      if key == other then some value
      else (entries.find? fun entry => entry.1 == other).map Prod.snd := by
  induction entries with
  | nil => cases same : key == other <;> simp [write, same]
  | cons entry rest ih =>
    by_cases here : entry.1 = key
    · cases same : key == other <;> simp [write, here, same]
    · by_cases found : entry.1 = other
      · have different : ¬ key = other := fun same => here (found.trans same.symm)
        have apart : ¬ other = key := fun same => different same.symm
        simp [write, found, different, apart]
      · simp [write, here, found, ih]

/-- What is found after an insertion is the new value under its key and as before under all others.
-/
theorem get?_insert :
    (table.insert key value).get? other =
      if key == other then some value else table.get? other :=
  find?_write table.entries

/-- A key that is there after an insertion is the new one or was there before. -/
theorem mem_keys_insert {found : κ} (h : found ∈ (table.insert key value).keys) :
    found = key ∨ found ∈ table.keys := by
  obtain ⟨entry, member, rfl⟩ := List.mem_map.1 h
  rcases mem_write member with rfl | old
  · exact .inl rfl
  · exact .inr (List.mem_map_of_mem old)

/-- A key is written to where it stands, so it does not come up twice. -/
theorem nodup_keys_insert (once : table.keys.Nodup) : (table.insert key value).keys.Nodup := by
  obtain ⟨entries⟩ := table
  induction entries with
  | nil => exact List.nodup_cons.2 ⟨List.not_mem_nil, List.nodup_nil⟩
  | cons first rest ih =>
    obtain ⟨new, rest_once⟩ := List.nodup_cons.1 once
    by_cases here : first.1 = key
    · have stays : (insert ⟨first :: rest⟩ key value).keys = first.1 :: keys ⟨rest⟩ := by
        simp [insert, write, keys, here]
      rw [stays]
      exact once
    · have moves : (insert ⟨first :: rest⟩ key value).keys =
          first.1 :: (insert ⟨rest⟩ key value).keys := by
        simp [insert, write, keys, here]
      rw [moves]
      refine List.nodup_cons.2 ⟨fun member => ?_, ih rest_once⟩
      rcases mem_keys_insert member with same | old
      · exact here same
      · exact new old

/-- A value that is there after an insertion is the new one or was there before. -/
theorem mem_values_insert {found : ω} (h : found ∈ (table.insert key value).values) :
    found = value ∨ found ∈ table.values := by
  obtain ⟨entry, member, rfl⟩ := List.mem_map.1 h
  rcases mem_write member with rfl | old
  · exact .inl rfl
  · exact .inr (List.mem_map_of_mem old)

/-- An entry that is found first and passes a test is found in the filtered table. -/
theorem get?_filter_of_get? {keep : κ → ω → Bool} (h : table.get? key = some value)
    (passes : keep key value = true) : (table.filter keep).get? key = some value := by
  obtain ⟨entry, found, rfl⟩ := Option.map_eq_some_iff.1 h
  obtain ⟨same, before, after, split, early⟩ := List.find?_eq_some_iff_append.1 found
  obtain rfl : entry.1 = key := by simpa using same
  refine Option.map_eq_some_iff.2 ⟨entry, List.find?_eq_some_iff_append.2 ⟨by simp, ?_⟩, rfl⟩
  refine ⟨before.filter fun entry => keep entry.1 entry.2,
    after.filter fun entry => keep entry.1 entry.2, ?_, fun other member => ?_⟩
  · simp [filter, split, List.filter_append, passes]
  · exact early other (List.mem_filter.1 member).1

end LawfulKeys

end ClassLattice.Table
