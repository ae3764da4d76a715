import ClassLattice.Toml.Document
import Mathlib.Data.List.Nodup

/-!
# Keys of documents are distinct

No table of a document has a key twice, however deeply it is nested and whether it was written with
a header, with dotted keys or in braces.  Every way of adding something to a table first looks
whether the key is there, and what it changes under a key that is there it changes in place.  What
is said for one change carries over to changes further down by the path, and so to whole documents.
-/

set_option autoImplicit false

namespace ClassLattice.Toml

/-- No table in a tree has a key twice. -/
inductive Tree.Distinct : Tree → Prop
  | scalar (value : Scalar) : Distinct (.scalar value)
  | array {items : List Tree} (each : ∀ item ∈ items, Distinct item) : Distinct (.array items)
  | tables {items : List Entries} (keys : ∀ entries ∈ items, (entries.map Prod.fst).Nodup)
      (each : ∀ entries ∈ items, ∀ entry ∈ entries, Distinct entry.2) : Distinct (.tables items)
  | table {kind : TableKind} {entries : Entries} (keys : (entries.map Prod.fst).Nodup)
      (each : ∀ entry ∈ entries, Distinct entry.2) : Distinct (.table kind entries)

namespace Entries

variable {entries result : Entries} {key : String} {tree : Tree}

/-- Entries with distinct keys, and so in all tables below them. -/
structure Distinct (entries : Entries) : Prop where
  keys : (entries.map Prod.fst).Nodup
  each : ∀ entry ∈ entries, entry.2.Distinct

/-- There is no key among no entries. -/
theorem distinct_nil : Distinct [] :=
  ⟨List.nodup_nil, fun _ member => nomatch member⟩

/-- A table has distinct keys if its entries have. -/
theorem distinct_table_iff {kind : TableKind} :
    (Tree.table kind entries).Distinct ↔ entries.Distinct := by
  constructor
  · intro h
    cases h with
    | table keys each => exact ⟨keys, each⟩
  · rintro ⟨keys, each⟩
    exact .table keys each

/-- Tables have distinct keys if the entries of each of them have. -/
theorem distinct_tables_iff {items : List Entries} :
    (Tree.tables items).Distinct ↔ ∀ entries ∈ items, entries.Distinct := by
  constructor
  · intro h
    cases h with
    | tables keys each => exact fun entries member => ⟨keys entries member, each entries member⟩
  · intro all
    exact .tables (fun entries member => (all entries member).keys)
      fun entries member => (all entries member).each

/-- What stands under a key of distinct entries has distinct keys itself. -/
theorem Distinct.of_lookup (distinct : entries.Distinct) (found : entries.lookup key = some tree) :
    tree.Distinct := by
  obtain ⟨front, behind, rfl, -⟩ := List.lookup_eq_some_iff.1 found
  exact distinct.each (key, tree) (by simp)

/-- An entry may be added under a key that is not there yet. -/
theorem Distinct.concat (distinct : entries.Distinct) (new : entries.lookup key = none)
    (distinct' : tree.Distinct) : Distinct (entries ++ [(key, tree)]) := by
  constructor
  · rw [List.map_append, List.nodup_append]
    refine ⟨distinct.keys, List.nodup_singleton _, ?_⟩
    intro old member added isNew same
    obtain ⟨entry, there, rfl⟩ := List.mem_map.1 member
    obtain rfl : added = key := List.mem_singleton.1 isNew
    have apart := List.lookup_eq_none_iff.1 new entry there
    simp [same] at apart
  · intro entry member
    rcases List.mem_append.1 member with old | added
    · exact distinct.each entry old
    · rw [List.mem_singleton.1 added]
      exact distinct'

/-- An entry may be put in the place of the one under its key. -/
theorem Distinct.replace (distinct : entries.Distinct) (distinct' : tree.Distinct) :
    (entries.replace key tree).Distinct := by
  have keys : (entries.replace key tree).map Prod.fst = entries.map Prod.fst := by
    rw [Entries.replace, List.map_map]
    apply List.map_congr_left
    intro entry _
    by_cases same : entry.1 = key <;> simp [same]
  constructor
  · rw [keys]
    exact distinct.keys
  · intro entry member
    obtain ⟨old, there, rfl⟩ := List.mem_map.1 member
    split
    · exact distinct'
    · exact distinct.each old there

/-- Entries may be taken out. -/
theorem Distinct.remove (distinct : entries.Distinct) : (entries.remove key).Distinct := by
  constructor
  · exact distinct.keys.sublist (List.filter_sublist.map _)
  · intro entry member
    exact distinct.each entry (List.mem_of_mem_filter member)

/-- A key is not there after it was taken out. -/
theorem lookup_remove (entries : Entries) (key : String) :
    (entries.remove key).lookup key = none := by
  rw [List.lookup_eq_none_iff]
  intro entry member
  have apart : (entry.1 != key) = true := (List.mem_filter.1 member).2
  exact bne_iff_ne.2 fun same => bne_iff_ne.1 apart same.symm

/-- **A change that keeps keys distinct does so at the end of any path.** -/
theorem Distinct.alterAt {made : TableKind} {change : TableKind → Entries → Option Entries}
    (keeps : ∀ kind entries result, entries.Distinct → change kind entries = some result →
      result.Distinct)
    {path : List String} {kind : TableKind} (distinct : entries.Distinct)
    (changed : Entries.alterAt made change path kind entries = some result) : result.Distinct := by
  induction path generalizing kind entries result with
  | nil => exact keeps kind entries result distinct changed
  | cons key rest ih =>
    rw [Entries.alterAt] at changed
    split at changed
    · rename_i new
      obtain ⟨inner, below, same⟩ := Option.bind_eq_some_iff.1 changed
      cases same
      exact distinct.concat new (distinct_table_iff.2 (ih distinct_nil below))
    · rename_i old found
      split at changed
      · cases changed
      · obtain ⟨inner, below, same⟩ := Option.bind_eq_some_iff.1 changed
        cases same
        have before := distinct_table_iff.1 (distinct.of_lookup found)
        exact distinct.replace (distinct_table_iff.2 (ih before below))
    · rename_i items found
      have before := distinct_tables_iff.1 (distinct.of_lookup found)
      split at changed
      · cases changed
      · rename_i last isLast
        obtain ⟨inner, below, same⟩ := Option.bind_eq_some_iff.1 changed
        cases same
        refine distinct.replace (distinct_tables_iff.2 ?_)
        intro entries member
        rcases List.mem_append.1 member with front | behind
        · exact before entries (List.dropLast_subset _ front)
        · rw [List.mem_singleton.1 behind]
          exact ih (before last (List.mem_of_getLast? isLast)) below
    · cases changed
    · cases changed

/-- A value is added under a new key. -/
theorem Distinct.addValue {kind : TableKind} {path : List String} (distinct : entries.Distinct)
    (distinct' : tree.Distinct) (added : entries.addValue kind path key tree = some result) :
    result.Distinct := by
  refine distinct.alterAt ?_ added
  intro kind entries result distinct added
  split at added
  · cases added
  · split at added
    · cases added
    · rename_i new
      cases added
      exact distinct.concat (Option.not_isSome_iff_eq_none.1 new) distinct'

/-- A value is added under a new key, in the table that the last header has opened. -/
theorem Distinct.addValueAt {opened path : List String} (distinct : entries.Distinct)
    (distinct' : tree.Distinct) (added : entries.addValueAt opened path key tree = some result) :
    result.Distinct :=
  distinct.alterAt (fun _ _ _ distinct added => distinct.addValue distinct' added) added

/-- A header opens a new table, or one that was on the way only and takes its place at the end. -/
theorem Distinct.openTable {path : List String} (distinct : entries.Distinct)
    (opened : entries.openTable path key = some result) : result.Distinct := by
  refine distinct.alterAt ?_ opened
  intro _ entries result distinct opened
  split at opened
  · rename_i new
    cases opened
    exact distinct.concat new (distinct_table_iff.2 distinct_nil)
  · rename_i inner found
    cases opened
    have before := distinct_table_iff.1 (distinct.of_lookup found)
    exact distinct.remove.concat (lookup_remove entries key) (distinct_table_iff.2 before)
  · cases opened

/-- A header in double brackets opens a further table of an array, which has no keys yet. -/
theorem Distinct.openElement {path : List String} (distinct : entries.Distinct)
    (opened : entries.openElement path key = some result) : result.Distinct := by
  refine distinct.alterAt ?_ opened
  intro _ entries result distinct opened
  split at opened
  · rename_i new
    cases opened
    refine distinct.concat new (distinct_tables_iff.2 ?_)
    intro entries member
    rw [List.mem_singleton.1 member]
    exact distinct_nil
  · rename_i items found
    cases opened
    have before := distinct_tables_iff.1 (distinct.of_lookup found)
    refine distinct.replace (distinct_tables_iff.2 ?_)
    intro entries member
    rcases List.mem_append.1 member with old | new
    · exact before entries old
    · rw [List.mem_singleton.1 new]
      exact distinct_nil
  · cases opened

end Entries

/-! ## Documents -/

/-- **Values have distinct keys**, with the items and pairs that were read before them.  The
induction is on the fuel, for values, the rest of an array and the rest of an inline table at
once. -/
theorem distinct_of_take (fuel : Nat) :
    (∀ depth text value rest, takeValue fuel depth text = some (value, rest) → value.Distinct) ∧
      (∀ depth text done value rest, (∀ item ∈ done, item.Distinct) →
        takeItems fuel depth text done = some (value, rest) → value.Distinct) ∧
      ∀ depth text entries value rest, entries.Distinct →
        takePairs fuel depth text entries = some (value, rest) → value.Distinct := by
  induction fuel with
  | zero =>
    refine ⟨?_, ?_, ?_⟩
    · intro depth text value rest taken
      cases taken
    · intro depth text done value rest _ taken
      cases taken
    · intro depth text entries value rest _ taken
      cases taken
  | succ fuel ih =>
    obtain ⟨values, items, pairs⟩ := ih
    refine ⟨?_, ?_, ?_⟩
    · intro depth text value rest taken
      unfold takeValue at taken
      split at taken
      · split at taken
        · obtain ⟨behind, skipped, taken⟩ := Option.bind_eq_some_iff.1 taken
          split at taken
          · cases taken
            exact .array fun _ member => nomatch member
          · exact items _ _ [] value rest (fun _ member => nomatch member) taken
        · cases taken
      · split at taken
        · split at taken
          · cases taken
            exact Entries.distinct_table_iff.2 Entries.distinct_nil
          · exact pairs _ _ [] value rest Entries.distinct_nil taken
        · cases taken
      · obtain ⟨⟨scalar, behind⟩, -, same⟩ := Option.bind_eq_some_iff.1 taken
        cases same
        exact .scalar scalar
    · intro depth text done value rest before taken
      unfold takeItems at taken
      obtain ⟨⟨item, behind⟩, first, taken⟩ := Option.bind_eq_some_iff.1 taken
      have now : ∀ other ∈ item :: done, other.Distinct :=
        List.forall_mem_cons.2 ⟨values _ _ item behind first, before⟩
      have whole : (Tree.array (item :: done).reverse).Distinct :=
        .array fun other member => now other (List.mem_reverse.1 member)
      obtain ⟨ends, -, taken⟩ := Option.bind_eq_some_iff.1 taken
      split at taken
      · cases taken
        exact whole
      · obtain ⟨more, -, taken⟩ := Option.bind_eq_some_iff.1 taken
        split at taken
        · cases taken
          exact whole
        · exact items _ _ (item :: done) value rest now taken
      · cases taken
    · intro depth text entries value rest distinct taken
      unfold takePairs at taken
      obtain ⟨⟨⟨path, key⟩, behind⟩, -, taken⟩ := Option.bind_eq_some_iff.1 taken
      obtain ⟨behind, -, taken⟩ := Option.bind_eq_some_iff.1 taken
      obtain ⟨⟨tree, behind⟩, first, taken⟩ := Option.bind_eq_some_iff.1 taken
      obtain ⟨more, added, taken⟩ := Option.bind_eq_some_iff.1 taken
      have now := distinct.addValue (values _ _ tree behind first) added
      split at taken
      · cases taken
        exact Entries.distinct_table_iff.2 now
      · exact pairs _ _ more value rest now taken
      · cases taken

/-- A line keeps the keys of what was read distinct. -/
theorem distinct_of_takeLine {fuel : Nat} {reading later : Reading} {text rest : List Char}
    (distinct : reading.entries.Distinct)
    (taken : takeLine fuel reading text = some (later, rest)) : later.entries.Distinct := by
  unfold takeLine at taken
  split at taken
  · obtain ⟨⟨⟨path, key⟩, behind⟩, -, taken⟩ := Option.bind_eq_some_iff.1 taken
    obtain ⟨behind, -, taken⟩ := Option.bind_eq_some_iff.1 taken
    obtain ⟨behind, -, taken⟩ := Option.bind_eq_some_iff.1 taken
    obtain ⟨behind, -, taken⟩ := Option.bind_eq_some_iff.1 taken
    obtain ⟨entries, opened, same⟩ := Option.bind_eq_some_iff.1 taken
    cases same
    exact distinct.openElement opened
  · obtain ⟨⟨⟨path, key⟩, behind⟩, -, taken⟩ := Option.bind_eq_some_iff.1 taken
    obtain ⟨behind, -, taken⟩ := Option.bind_eq_some_iff.1 taken
    obtain ⟨behind, -, taken⟩ := Option.bind_eq_some_iff.1 taken
    obtain ⟨entries, opened, same⟩ := Option.bind_eq_some_iff.1 taken
    cases same
    exact distinct.openTable opened
  · obtain ⟨⟨⟨path, key⟩, behind⟩, -, taken⟩ := Option.bind_eq_some_iff.1 taken
    obtain ⟨behind, -, taken⟩ := Option.bind_eq_some_iff.1 taken
    obtain ⟨⟨value, behind⟩, first, taken⟩ := Option.bind_eq_some_iff.1 taken
    obtain ⟨behind, -, taken⟩ := Option.bind_eq_some_iff.1 taken
    obtain ⟨entries, added, same⟩ := Option.bind_eq_some_iff.1 taken
    cases same
    exact distinct.addValueAt ((distinct_of_take fuel).1 _ _ value _ first) added

/-- So do all lines that are left. -/
theorem distinct_of_takeLines {fuel more : Nat} {reading : Reading} {text : List Char}
    {entries : Entries} (distinct : reading.entries.Distinct)
    (taken : takeLines fuel more reading text = some entries) : entries.Distinct := by
  induction more generalizing reading text with
  | zero => cases taken
  | succ more ih =>
    unfold takeLines at taken
    obtain ⟨rest, -, taken⟩ := Option.bind_eq_some_iff.1 taken
    split at taken
    · cases taken
      exact distinct
    · obtain ⟨⟨later, behind⟩, line, taken⟩ := Option.bind_eq_some_iff.1 taken
      exact ih (distinct_of_takeLine distinct line) taken

/-- **No table of a document has a key twice.** -/
theorem distinct_of_parse? {text : String} {entries : Entries}
    (parsed : parse? text = some entries) : entries.Distinct :=
  distinct_of_takeLines Entries.distinct_nil parsed

end ClassLattice.Toml
