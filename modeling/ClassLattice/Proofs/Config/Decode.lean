import ClassLattice.Config.Decode
import ClassLattice.Proofs.Toml.Tree

/-!
# What a document says about settings

The entries of a table are taken in one after the other, and the first one that does not fit is
reported.  If all of them fit their order does not matter, for no key stands twice: each field is
what stands under its key, or its default, and no other key is there.

That is proved of one field at a time.  An entry takes in its own field and leaves all others as they
are, and so a field has the value of the one entry with its key after all of them.
-/

set_option autoImplicit false

namespace ClassLattice

namespace Decode

open Toml (Tree Entries)

variable {σ α β : Type} {step : σ → String × Tree → Except Misfit σ} {start result : σ}
  {entries : Entries} {key : String} {misfit : Misfit}

/-- What a table says about a field, if it has an entry for it. -/
def entryOr (default : α) (decode : Tree → Except Misfit α) (entries : Entries) (key : String) :
    Except Misfit α :=
  match entries.lookup key with
  | some tree => decode tree
  | none => .ok default

/-- A value with a function behind it is had if the value is. -/
theorem bind_pure_eq_ok_iff {value : Except Misfit α} {change : α → β} {changed : β} :
    (value >>= fun found => pure (change found)) = .ok changed ↔
      ∃ found, value = .ok found ∧ change found = changed := by
  cases value with
  | error misfit => exact ⟨nofun, nofun⟩
  | ok found =>
    constructor
    · intro h
      exact ⟨found, rfl, Except.ok.inj h⟩
    · rintro ⟨_, same, rfl⟩
      cases same
      rfl

/-! ## Entries one after the other -/

/-- **The first entry that does not fit is reported**, and only such an entry is. -/
theorem foldlM_eq_error_iff :
    entries.foldlM step start = .error misfit ↔
      ∃ front entry behind state, entries = front ++ entry :: behind ∧
        front.foldlM step start = .ok state ∧ step state entry = .error misfit := by
  constructor
  · intro failed
    induction entries generalizing start with
    | nil => cases failed
    | cons entry rest ih =>
      rw [List.foldlM_cons] at failed
      cases taken : step start entry with
      | error other =>
        rw [taken] at failed
        cases failed
        exact ⟨[], entry, rest, start, rfl, rfl, taken⟩
      | ok next =>
        rw [taken] at failed
        obtain ⟨front, bad, behind, state, rfl, fits, misfits⟩ := ih failed
        refine ⟨entry :: front, bad, behind, state, rfl, ?_, misfits⟩
        rw [List.foldlM_cons, taken]
        exact fits
  · rintro ⟨front, entry, behind, state, rfl, fits, misfits⟩
    rw [List.foldlM_append, fits]
    show (entry :: behind).foldlM step state = _
    rw [List.foldlM_cons, misfits]
    rfl

/-- Every entry fits if all of them can be taken in. -/
theorem exists_step_of_foldlM (taken : entries.foldlM step start = .ok result)
    {entry : String × Tree} (member : entry ∈ entries) :
    ∃ state next, step state entry = .ok next := by
  induction entries generalizing start with
  | nil => cases member
  | cons first rest ih =>
    rw [List.foldlM_cons] at taken
    cases fits : step start first with
    | error other =>
      rw [fits] at taken
      cases taken
    | ok next =>
      rw [fits] at taken
      rcases List.mem_cons.1 member with rfl | later
      · exact ⟨start, next, fits⟩
      · exact ih taken later

/-- All entries can be taken in if each of them fits, whatever was taken in before. -/
theorem exists_foldlM_of_steps
    (fits : ∀ entry ∈ entries, ∀ state, ∃ next, step state entry = .ok next) (start : σ) :
    ∃ result, entries.foldlM step start = .ok result := by
  induction entries generalizing start with
  | nil => exact ⟨start, rfl⟩
  | cons entry rest ih =>
    obtain ⟨next, taken⟩ := fits entry List.mem_cons_self start
    have later (other) (member : other ∈ rest) := fits other (List.mem_cons_of_mem _ member)
    obtain ⟨result, others⟩ := ih later next
    refine ⟨result, ?_⟩
    rw [List.foldlM_cons, taken]
    exact others

/-! ## One field -/

/-- An entry under a key is taken in as a field, and all other entries leave the field as it is. -/
structure TakesIn (step : σ → String × Tree → Except Misfit σ) (key : String)
    (decode : Tree → Except Misfit α) (field : σ → α) : Prop where
  own : ∀ state tree next, step state (key, tree) = .ok next → decode tree = .ok (field next)
  others : ∀ state name tree next, name ≠ key → step state (name, tree) = .ok next →
    field next = field state

/-- **A field is what stands under its key**, or what it was before. -/
theorem TakesIn.foldlM {decode : Tree → Except Misfit α} {field : σ → α}
    (takes : TakesIn step key decode field) (distinct : (entries.map Prod.fst).Nodup)
    (taken : entries.foldlM step start = .ok result) :
    entryOr (field start) decode entries key = .ok (field result) := by
  induction entries generalizing start with
  | nil =>
    cases taken
    rfl
  | cons entry rest ih =>
    obtain ⟨name, tree⟩ := entry
    rw [List.map_cons, List.nodup_cons] at distinct
    obtain ⟨new, distinct⟩ := distinct
    rw [List.foldlM_cons] at taken
    cases fits : step start (name, tree) with
    | error other =>
      rw [fits] at taken
      cases taken
    | ok next =>
      rw [fits] at taken
      have later := ih distinct taken
      by_cases same : name = key
      · subst same
        have none : rest.lookup name = none := by
          rw [List.lookup_eq_none_iff]
          intro other member
          have apart : name ≠ other.1 := fun same => new (List.mem_map.2 ⟨other, member, same.symm⟩)
          simpa using apart
        have kept : field next = field result := by simpa [entryOr, none] using later
        simp [entryOr, ← kept, takes.own start tree next fits]
      · have apart : (key == name) = false := beq_eq_false_iff_ne.2 (Ne.symm same)
        rw [takes.others start name tree next same fits] at later
        simpa [entryOr, List.lookup_cons, apart] using later

/-- What stands under a key can be decoded if the field can be had. -/
theorem exists_ok_of_entryOr {default value : α} {decode : Tree → Except Misfit α} {tree : Tree}
    (distinct : (entries.map Prod.fst).Nodup) (had : entryOr default decode entries key = .ok value)
    (member : (key, tree) ∈ entries) : decode tree = .ok value := by
  have found : entries.lookup key = some tree := by
    obtain ⟨front, behind, rfl⟩ := List.append_of_mem member
    rw [List.map_append, List.nodup_append] at distinct
    refine List.lookup_eq_some_iff.2 ⟨front, behind, rfl, fun entry there => ?_⟩
    have apart := distinct.2.2 entry.1 (List.mem_map_of_mem there) key (by simp)
    exact bne_iff_ne.2 (Ne.symm apart)
  simpa [entryOr, found] using had

/-- **A table says what its fields say**, if its keys are those of the fields and the fields tell all
there is. -/
theorem foldlM_eq_ok_iff {keys : List String} {tells : σ → Prop}
    (known : ∀ state name tree next, step state (name, tree) = .ok next → name ∈ keys)
    (told : ∀ found, entries.foldlM step start = .ok found → tells found)
    (fits : ∀ found, tells found → ∀ name tree, (name, tree) ∈ entries → name ∈ keys →
      ∀ state, ∃ next, step state (name, tree) = .ok next)
    (unique : ∀ found other, tells found → tells other → found = other) :
    entries.foldlM step start = .ok result ↔
      (∀ entry ∈ entries, entry.1 ∈ keys) ∧ tells result := by
  constructor
  · intro taken
    refine ⟨?_, told result taken⟩
    rintro ⟨name, tree⟩ member
    obtain ⟨state, next, fit⟩ := exists_step_of_foldlM taken member
    exact known state name tree next fit
  · rintro ⟨all, said⟩
    have fit : ∀ entry ∈ entries, ∀ state, ∃ next, step state entry = .ok next :=
      fun entry member => fits result said entry.1 entry.2 member (all entry member)
    obtain ⟨found, taken⟩ := exists_foldlM_of_steps fit start
    rw [taken, unique found result (told found taken) said]

/-! ## Groups of settings -/

/-- What an entry of the table for the caches does. -/
theorem cacheEntry_eq_ok_iff {settings next : CacheSettings} {name : String} {tree : Tree} :
    cacheEntry settings (name, tree) = .ok next ↔
      name = "node_capacity" ∧ ∃ value, size tree = .ok value ∧
        { settings with nodeCapacity := value } = next := by
  unfold cacheEntry
  split
  · rename_i same
    cases same
    rw [bind_pure_eq_ok_iff]
    simp
  · rename_i unlike same
    cases same
    constructor
    · intro h
      cases h
    · rintro ⟨same, -⟩
      exact (unlike same).elim

/-- What an entry of the table for the log does. -/
theorem loggingEntry_eq_ok_iff {settings next : LoggingSettings} {name : String} {tree : Tree} :
    loggingEntry settings (name, tree) = .ok next ↔
      (name = "level" ∧ ∃ value, text tree = .ok value ∧ { settings with level := value } = next) ∨
        (name = "json" ∧ ∃ value, boolean tree = .ok value ∧
          { settings with json := value } = next) := by
  unfold loggingEntry
  split
  · rename_i same
    cases same
    rw [bind_pure_eq_ok_iff]
    simp
  · rename_i same
    cases same
    rw [bind_pure_eq_ok_iff]
    simp
  · rename_i notLevel notJson same
    cases same
    constructor
    · intro h
      cases h
    · rintro (⟨same, -⟩ | ⟨same, -⟩)
      · exact (notLevel same).elim
      · exact (notJson same).elim

/-- What an entry of the table for a marker does. -/
theorem specialEntry_eq_ok_iff {fields next : Option String × List String} {name : String}
    {tree : Tree} :
    specialEntry fields (name, tree) = .ok next ↔
      (name = "name" ∧ ∃ value, text tree = .ok value ∧ (some value, fields.2) = next) ∨
        (name = "interfaces" ∧ ∃ value, list text tree = .ok value ∧
          (fields.1, value) = next) := by
  unfold specialEntry
  split
  · rename_i same
    cases same
    rw [bind_pure_eq_ok_iff]
    simp
  · rename_i same
    cases same
    rw [bind_pure_eq_ok_iff]
    simp
  · rename_i notName notInterfaces same
    cases same
    constructor
    · intro h
      cases h
    · rintro (⟨same, -⟩ | ⟨same, -⟩)
      · exact (notName same).elim
      · exact (notInterfaces same).elim

/-- What an entry of a document does to the settings. -/
theorem settingsEntry_eq_ok_iff {settings next : Settings} {name : String} {tree : Tree} :
    settingsEntry settings (name, tree) = .ok next ↔
      (name = "cache" ∧ ∃ value, cache tree = .ok value ∧ { settings with cache := value } = next) ∨
      (name = "special_interfaces" ∧ ∃ value, list special tree = .ok value ∧
        { settings with specialInterfaces := value } = next) ∨
      (name = "logging" ∧ ∃ value, logging tree = .ok value ∧
        { settings with logging := value } = next) := by
  unfold settingsEntry
  split
  · rename_i same
    cases same
    rw [bind_pure_eq_ok_iff]
    simp
  · rename_i same
    cases same
    rw [bind_pure_eq_ok_iff]
    simp
  · rename_i same
    cases same
    rw [bind_pure_eq_ok_iff]
    simp
  · rename_i notCache notSpecial notLogging same
    cases same
    constructor
    · intro h
      cases h
    · rintro (⟨same, -⟩ | ⟨same, -⟩ | ⟨same, -⟩)
      · exact (notCache same).elim
      · exact (notSpecial same).elim
      · exact (notLogging same).elim

/-- **The settings of the caches are what stands under the key of each field, or the default.** -/
theorem cache_eq_ok_iff {kind : Toml.TableKind} {found : CacheSettings}
    (distinct : entries.Distinct) :
    cache (.table kind entries) = .ok found ↔
      (∀ entry ∈ entries, entry.1 ∈ ["node_capacity"]) ∧
        entryOr ({} : CacheSettings).nodeCapacity size entries "node_capacity" =
          .ok found.nodeCapacity := by
  have takes : TakesIn cacheEntry "node_capacity" size CacheSettings.nodeCapacity := by
    constructor <;> grind [cacheEntry_eq_ok_iff]
  apply foldlM_eq_ok_iff
  · intro state name tree next taken
    simp [(cacheEntry_eq_ok_iff.1 taken).1]
  · intro other taken
    exact takes.foldlM distinct.keys taken
  · intro other said name tree member known state
    obtain rfl := List.mem_singleton.1 known
    have decoded := exists_ok_of_entryOr distinct.keys said member
    exact ⟨_, cacheEntry_eq_ok_iff.2 ⟨rfl, _, decoded, rfl⟩⟩
  · intro one other said said'
    cases one
    cases other
    cases said.symm.trans said'
    rfl

/-- **The settings of the log are what stands under the key of each field, or the default.** -/
theorem logging_eq_ok_iff {kind : Toml.TableKind} {found : LoggingSettings}
    (distinct : entries.Distinct) :
    logging (.table kind entries) = .ok found ↔
      (∀ entry ∈ entries, entry.1 ∈ ["level", "json"]) ∧
        entryOr ({} : LoggingSettings).level text entries "level" = .ok found.level ∧
        entryOr ({} : LoggingSettings).json boolean entries "json" = .ok found.json := by
  have takesLevel : TakesIn loggingEntry "level" text LoggingSettings.level := by
    constructor <;> grind [loggingEntry_eq_ok_iff]
  have takesJson : TakesIn loggingEntry "json" boolean LoggingSettings.json := by
    constructor <;> grind [loggingEntry_eq_ok_iff]
  apply foldlM_eq_ok_iff
  · intro state name tree next taken
    rcases loggingEntry_eq_ok_iff.1 taken with ⟨rfl, -⟩ | ⟨rfl, -⟩ <;> simp
  · intro other taken
    exact ⟨takesLevel.foldlM distinct.keys taken, takesJson.foldlM distinct.keys taken⟩
  · rintro other ⟨level, json⟩ name tree member known state
    rcases List.mem_pair.1 known with rfl | rfl
    · have decoded := exists_ok_of_entryOr distinct.keys level member
      exact ⟨_, loggingEntry_eq_ok_iff.2 (.inl ⟨rfl, _, decoded, rfl⟩)⟩
    · have decoded := exists_ok_of_entryOr distinct.keys json member
      exact ⟨_, loggingEntry_eq_ok_iff.2 (.inr ⟨rfl, _, decoded, rfl⟩)⟩
  · rintro one other ⟨level, json⟩ ⟨level', json'⟩
    cases one
    cases other
    cases level.symm.trans level'
    cases json.symm.trans json'
    rfl

/-- The fields of a marker are what stands under their keys, and a name need not be there. -/
theorem foldlM_specialEntry_eq_ok_iff {fields : Option String × List String}
    (distinct : entries.Distinct) :
    entries.foldlM specialEntry (none, []) = .ok fields ↔
      (∀ entry ∈ entries, entry.1 ∈ ["name", "interfaces"]) ∧
        entryOr none (fun tree => some <$> text tree) entries "name" = .ok fields.1 ∧
        entryOr [] (list text) entries "interfaces" = .ok fields.2 := by
  have takesName : TakesIn specialEntry "name" (fun tree => some <$> text tree) Prod.fst := by
    constructor
    · intro state tree next taken
      obtain ⟨value, decoded, rfl⟩ : ∃ value, text tree = .ok value ∧
          (some value, state.2) = next := by
        simpa using specialEntry_eq_ok_iff.1 taken
      rw [decoded]
      rfl
    · grind [specialEntry_eq_ok_iff]
  have takesInterfaces : TakesIn specialEntry "interfaces" (list text) Prod.snd := by
    constructor <;> grind [specialEntry_eq_ok_iff]
  apply foldlM_eq_ok_iff
  · intro state name tree next taken
    rcases specialEntry_eq_ok_iff.1 taken with ⟨rfl, -⟩ | ⟨rfl, -⟩ <;> simp
  · intro other taken
    exact ⟨takesName.foldlM distinct.keys taken, takesInterfaces.foldlM distinct.keys taken⟩
  · rintro other ⟨hasName, hasInterfaces⟩ name tree member known state
    rcases List.mem_pair.1 known with rfl | rfl
    · have decoded := exists_ok_of_entryOr distinct.keys hasName member
      obtain ⟨value, decoded, -⟩ := bind_pure_eq_ok_iff.1 decoded
      exact ⟨_, specialEntry_eq_ok_iff.2 (.inl ⟨rfl, value, decoded, rfl⟩)⟩
    · have decoded := exists_ok_of_entryOr distinct.keys hasInterfaces member
      exact ⟨_, specialEntry_eq_ok_iff.2 (.inr ⟨rfl, _, decoded, rfl⟩)⟩
  · rintro one other ⟨hasName, hasInterfaces⟩ ⟨hasName', hasInterfaces'⟩
    have name := Except.ok.inj (hasName.symm.trans hasName')
    have interfaces := Except.ok.inj (hasInterfaces.symm.trans hasInterfaces')
    exact Prod.ext name interfaces

/-- **A marker has the name that its table says**, and extends what the table says, or nothing. -/
theorem special_eq_ok_iff {kind : Toml.TableKind} {found : SpecialInterface}
    (distinct : entries.Distinct) :
    special (.table kind entries) = .ok found ↔
      (∀ entry ∈ entries, entry.1 ∈ ["name", "interfaces"]) ∧
        (∃ tree, entries.lookup "name" = some tree ∧ text tree = .ok found.name) ∧
        entryOr [] (list text) entries "interfaces" = .ok found.interfaces := by
  have named : entryOr none (fun tree => some <$> text tree) entries "name" =
      .ok (some found.name) ↔
        ∃ tree, entries.lookup "name" = some tree ∧ text tree = .ok found.name := by
    unfold entryOr
    cases entries.lookup "name" with
    | none => simp
    | some tree => cases decoded : text tree <;> simp [decoded]
  have fields : special (.table kind entries) = .ok found ↔
      entries.foldlM specialEntry (none, []) = .ok (some found.name, found.interfaces) := by
    show (entries.foldlM specialEntry (none, []) >>= _) = .ok found ↔ _
    cases entries.foldlM specialEntry (none, []) with
    | error misfit => exact ⟨nofun, nofun⟩
    | ok fields =>
      obtain ⟨name, interfaces⟩ := fields
      cases name with
      | none => exact ⟨nofun, nofun⟩
      | some name =>
        cases found
        simp [Bind.bind, Except.bind, Pure.pure, Except.pure]
  rw [fields, foldlM_specialEntry_eq_ok_iff distinct, named]

/-- **Settings are what stands under the key of each field, or the default**, and there is no other
key. -/
theorem settings_eq_ok_iff {found : Settings} (distinct : entries.Distinct) :
    settings entries = .ok found ↔
      (∀ entry ∈ entries, entry.1 ∈ ["cache", "special_interfaces", "logging"]) ∧
        entryOr {} cache entries "cache" = .ok found.cache ∧
        entryOr [] (list special) entries "special_interfaces" = .ok found.specialInterfaces ∧
        entryOr {} logging entries "logging" = .ok found.logging := by
  have takesCache : TakesIn settingsEntry "cache" cache Settings.cache := by
    constructor <;> grind [settingsEntry_eq_ok_iff]
  have takesSpecial :
      TakesIn settingsEntry "special_interfaces" (list special) Settings.specialInterfaces := by
    constructor <;> grind [settingsEntry_eq_ok_iff]
  have takesLogging : TakesIn settingsEntry "logging" logging Settings.logging := by
    constructor <;> grind [settingsEntry_eq_ok_iff]
  apply foldlM_eq_ok_iff
  · intro state name tree next taken
    rcases settingsEntry_eq_ok_iff.1 taken with ⟨rfl, -⟩ | ⟨rfl, -⟩ | ⟨rfl, -⟩ <;> simp
  · intro other taken
    exact ⟨takesCache.foldlM distinct.keys taken, takesSpecial.foldlM distinct.keys taken,
      takesLogging.foldlM distinct.keys taken⟩
  · rintro other ⟨hasCache, hasSpecial, hasLogging⟩ name tree member known state
    simp only [List.mem_cons, List.not_mem_nil, or_false] at known
    rcases known with rfl | rfl | rfl
    · have decoded := exists_ok_of_entryOr distinct.keys hasCache member
      exact ⟨_, settingsEntry_eq_ok_iff.2 (.inl ⟨rfl, _, decoded, rfl⟩)⟩
    · have decoded := exists_ok_of_entryOr distinct.keys hasSpecial member
      exact ⟨_, settingsEntry_eq_ok_iff.2 (.inr (.inl ⟨rfl, _, decoded, rfl⟩))⟩
    · have decoded := exists_ok_of_entryOr distinct.keys hasLogging member
      exact ⟨_, settingsEntry_eq_ok_iff.2 (.inr (.inr ⟨rfl, _, decoded, rfl⟩))⟩
  · rintro one other ⟨hasCache, hasSpecial, hasLogging⟩ ⟨hasCache', hasSpecial', hasLogging'⟩
    cases one
    cases other
    cases hasCache.symm.trans hasCache'
    cases hasSpecial.symm.trans hasSpecial'
    cases hasLogging.symm.trans hasLogging'
    rfl

end Decode

namespace Settings

open Decode

/-- **Settings are had from a text exactly if it is a document** whose keys are those of settings, and
then they are what the document says under each key, or the default. -/
theorem ofToml_eq_ok_iff {text : String} {found : Settings} :
    ofToml text = .ok found ↔
      ∃ entries, Toml.parse? text = some entries ∧
        (∀ entry ∈ entries, entry.1 ∈ ["cache", "special_interfaces", "logging"]) ∧
        entryOr {} Decode.cache entries "cache" = .ok found.cache ∧
        entryOr [] (list special) entries "special_interfaces" = .ok found.specialInterfaces ∧
        entryOr {} Decode.logging entries "logging" = .ok found.logging := by
  unfold ofToml
  cases parsed : Toml.parse? text with
  | none => simp
  | some entries =>
    have distinct := Toml.distinct_of_parse? parsed
    constructor
    · intro h
      cases taken : Decode.settings entries with
      | error misfit => simp [taken, Except.mapError] at h
      | ok other =>
        obtain rfl : other = found := by simpa [taken, Except.mapError] using h
        exact ⟨entries, rfl, (settings_eq_ok_iff distinct).1 taken⟩
    · rintro ⟨_, same, told⟩
      cases same
      simp [(settings_eq_ok_iff distinct).2 told, Except.mapError]

/-- **The misfit of a document is that of the first entry that does not fit.** -/
theorem ofToml_eq_misfit_iff {text : String} {misfit : Misfit} :
    ofToml text = .error (.misfit misfit) ↔
      ∃ front entry behind state, Toml.parse? text = some (front ++ entry :: behind) ∧
        Decode.settings front = .ok state ∧ settingsEntry state entry = .error misfit := by
  have reported : ofToml text = .error (.misfit misfit) ↔
      ∃ entries, Toml.parse? text = some entries ∧ Decode.settings entries = .error misfit := by
    unfold ofToml
    cases Toml.parse? text with
    | none => simp
    | some entries => cases failed : Decode.settings entries <;> simp [failed, Except.mapError]
  rw [reported]
  constructor
  · rintro ⟨entries, parsed, failed⟩
    obtain ⟨front, entry, behind, state, rfl, rest⟩ := foldlM_eq_error_iff.1 failed
    exact ⟨front, entry, behind, state, parsed, rest⟩
  · rintro ⟨front, entry, behind, state, parsed, rest⟩
    exact ⟨_, parsed, foldlM_eq_error_iff.2 ⟨front, entry, behind, state, rfl, rest⟩⟩

/-- A misspelt key is reported, whatever comes behind it. -/
example :
    ofToml "[logging]\nlevle = 3\n[cache]\nnode_capacity = -1" =
      .error (.misfit (.unknownField "levle" ["level", "json"])) := by
  decide +kernel

end Settings

end ClassLattice
