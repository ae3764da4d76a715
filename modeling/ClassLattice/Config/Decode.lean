import ClassLattice.Config.Misfit
import ClassLattice.Config.Settings

/-!
# Settings from TOML

A group of settings is written as a table, or as an array that gives the fields in their order.
Fields are read in the order of the document and the first misfit is reported; that a field is
missing shows only at the end.
-/

set_option autoImplicit false

namespace ClassLattice

open Toml (Tree Entries)

/-- Why a configuration cannot be had. -/
inductive ConfigError where
  /-- The file is missing, cannot be read or is not text. -/
  | unreadable
  /-- The text is not TOML. -/
  | notToml
  | misfit (cause : Misfit)
  deriving DecidableEq

/-- The wording for a document that does not fit. -/
def ConfigError.message? : ConfigError → Option String
  | unreadable | notToml => none
  | misfit cause => some ("failed to parse config: " ++ cause.message)

namespace Decode

/-- The key under which a date shows where a table is expected. -/
def datetimeKey : String := "$__toml_private_datetime"

/-- The entries of a tree that can be read as a table. -/
def entries? : Tree → Option Entries
  | .table _ entries => some entries
  | .scalar (.datetime written) => some [(datetimeKey, .scalar (.text written))]
  | .scalar _ | .array _ | .tables _ => none

/-- The items of a tree that can be read as a list. -/
def items? : Tree → Option (List Tree)
  | .array items => some items
  | .tables items => some (items.map (.table .header))
  | .scalar _ | .table _ _ => none

/-- A text. -/
def text : Tree → Except Misfit String
  | .scalar (.text value) => .ok value
  | tree => .error (.wrongType (.ofTree tree) "a string")

/-- A boolean. -/
def boolean : Tree → Except Misfit Bool
  | .scalar (.boolean value) => .ok value
  | tree => .error (.wrongType (.ofTree tree) "a boolean")

/-- A number that is not negative. -/
def size : Tree → Except Misfit Nat
  | .scalar (.integer (.ofNat value)) => .ok value
  | .scalar (.integer value) => .error (.wrongValue (.integer value) "usize")
  | tree => .error (.wrongType (.ofTree tree) "usize")

/-- A list, item by item. -/
def list {α : Type} (decode : Tree → Except Misfit α) (tree : Tree) : Except Misfit (List α) :=
  match items? tree with
  | some items => items.mapM decode
  | none => .error (.wrongType (.ofTree tree) "a sequence")

/-- A group of settings: what its table says, or what its array says, or a misfit. -/
def group {α : Type} (expected : String) (ofEntries : Entries → Except Misfit α)
    (ofItems : List Tree → Except Misfit α) (tree : Tree) : Except Misfit α :=
  match entries? tree, items? tree with
  | some entries, _ => ofEntries entries
  | none, some items => ofItems items
  | none, none => .error (.wrongType (.ofTree tree) expected)

/-- What an array says about a field, if it is long enough. -/
def itemOr {α : Type} (default : α) (decode : Tree → Except Misfit α) (items : List Tree)
    (index : Nat) : Except Misfit α :=
  match items[index]? with
  | some tree => decode tree
  | none => .ok default

/-- Takes in an entry of the table for the caches. -/
def cacheEntry (settings : CacheSettings) : String × Tree → Except Misfit CacheSettings
  | ("node_capacity", tree) => return { settings with nodeCapacity := ← size tree }
  | (name, _) => throw (.unknownField name ["node_capacity"])

/-- The settings of the caches. -/
def cache : Tree → Except Misfit CacheSettings :=
  group "struct CacheConfig" (fun entries => entries.foldlM cacheEntry {})
    fun items => return {
      nodeCapacity := ← itemOr ({} : CacheSettings).nodeCapacity size items 0 }

/-- Takes in an entry of the table for the log. -/
def loggingEntry (settings : LoggingSettings) : String × Tree → Except Misfit LoggingSettings
  | ("level", tree) => return { settings with level := ← text tree }
  | ("json", tree) => return { settings with json := ← boolean tree }
  | (name, _) => throw (.unknownField name ["level", "json"])

/-- The settings of the log. -/
def logging : Tree → Except Misfit LoggingSettings :=
  group "struct LoggingConfig" (fun entries => entries.foldlM loggingEntry {})
    fun items => return {
      level := ← itemOr ({} : LoggingSettings).level text items 0
      json := ← itemOr ({} : LoggingSettings).json boolean items 1 }

/-- Takes in an entry of the table for a marker: its name, or what it extends. -/
def specialEntry (fields : Option String × List String) :
    String × Tree → Except Misfit (Option String × List String)
  | ("name", tree) => return (some (← text tree), fields.2)
  | ("interfaces", tree) => return (fields.1, ← list text tree)
  | (name, _) => throw (.unknownField name ["name", "interfaces"])

/-- A marker, which has a name at least. -/
def special : Tree → Except Misfit SpecialInterface :=
  group "struct SpecialInterfaceConfig"
    (fun entries => do
      match ← entries.foldlM specialEntry (none, []) with
      | (some name, interfaces) => return { name, interfaces }
      | (none, _) => throw (.missingField "name"))
    fun items =>
      match items with
      | [] => throw (.wrongLength 0 "struct SpecialInterfaceConfig with 2 elements")
      | first :: _ => return {
          name := ← text first
          interfaces := ← itemOr [] (list text) items 1 }

/-- Takes in an entry of a document. -/
def settingsEntry (settings : Settings) : String × Tree → Except Misfit Settings
  | ("cache", tree) => return { settings with cache := ← cache tree }
  | ("special_interfaces", tree) =>
    return { settings with specialInterfaces := ← list special tree }
  | ("logging", tree) => return { settings with logging := ← logging tree }
  | (name, _) => throw (.unknownField name ["cache", "special_interfaces", "logging"])

/-- All settings, from the entries of a document in their order. -/
def settings (entries : Entries) : Except Misfit Settings := entries.foldlM settingsEntry {}

end Decode

namespace Settings

/-- The settings that a document gives. -/
def ofToml (text : String) : Except ConfigError Settings :=
  match Toml.parse? text with
  | none => .error .notToml
  | some entries => (Decode.settings entries).mapError .misfit

/-- The settings that a file with given bytes gives; there may be no file. -/
def ofFile : Option ByteArray → Except ConfigError Settings
  | none => .error .unreadable
  | some bytes =>
    match String.fromUTF8? bytes with
    | some text => ofToml text
    | none => .error .unreadable

end Settings

end ClassLattice
