import ClassLattice.Config.Settings
import ClassLattice.Text.Alphanumeric
import ClassLattice.Text.Blank
import ClassLattice.Text.BytePosition

/-!
# Log filters

A filter says up to which level messages are logged, as a whole and for single targets.  It is
written as directives between commas: a level, a target with a level, or a bare target, for which
everything is logged.  Of several directives for one target the last counts.

Blanks around a directive are passed over when it is looked for its first character and for the
equals sign, but they belong to the target and the level all the same.

The configured filter and the one from the environment are tried together first, then the one from
the environment, then the configured one.
-/

set_option autoImplicit false

namespace ClassLattice

/-- How much is logged. -/
inductive LogLevel where
  | off
  | error
  | warn
  | info
  | debug
  | trace
  deriving DecidableEq

namespace LogLevel

/-- The word for a level. -/
def name : LogLevel → String
  | off => "off"
  | error => "error"
  | warn => "warn"
  | info => "info"
  | debug => "debug"
  | trace => "trace"

/-- All levels, from the quietest one on. -/
def all : List LogLevel := [off, error, warn, info, debug, trace]

/-- A text in lower case. -/
def lower (text : String) : String := String.ofList (text.toList.map Char.toLower)

/-- The number that decimal digits spell, with an optional plus sign in front. -/
def number? (chars : List Char) : Option Nat :=
  let digits := match chars with
    | '+' :: rest => rest
    | _ => chars
  if digits.isEmpty || !digits.all Char.isDigit then none
  else some (digits.foldl (fun total c => total * 10 + (c.toNat - '0'.toNat)) 0)

/-- The level that a text means: a name in any case, or a number. -/
def ofText? (text : String) : Option LogLevel :=
  match number? text.toList with
  | some number => all[number]?
  | none => all.find? fun level => level.name == lower text

end LogLevel

/-- A directive: a level for everything or for one target. -/
structure LogDirective where
  target : Option String
  level : LogLevel
  deriving DecidableEq

namespace LogDirective

/-- Whether the name of a target can start with a character. -/
def isStart (c : Char) : Bool := c = '-' || c = ':' || c = '_' || Text.isAlphanumeric c

/-- A directive without an equals sign: a level, or else a target for which everything is logged. -/
def ofWord (word : String) : LogDirective :=
  match LogLevel.ofText? word with
  | some level => ⟨none, level⟩
  | none => ⟨some word, .trace⟩

/-- A directive with an equals sign.  Without a level everything is logged. -/
def ofParts? (target level : String) : Option LogDirective :=
  if level.isEmpty then some ⟨some target, .trace⟩
  else (LogLevel.ofText? level).map fun level => ⟨some target, level⟩

/-- Reads a directive.  The position of the equals sign is counted in bytes from the first character
that is no blank, and the text is then cut at that many bytes from its beginning; with no blanks in
front the two are the same place. -/
def ofText? (text : String) : Option LogDirective := do
  let chars := text.toList
  let trimmed := Text.trimChars chars
  guard (isStart (← trimmed.head?))
  if trimmed.contains '=' then
    let position := Text.byteSize (trimmed.takeWhile (· ≠ '='))
    let (target, _) ← Text.splitAtByte? chars position
    let (_, level) ← Text.splitAtByte? chars (position + 1)
    ofParts? (String.ofList target) (String.ofList level)
  else return ofWord text

/-- A directive as text. -/
def text (directive : LogDirective) : String :=
  match directive.target with
  | some target => target ++ "=" ++ directive.level.name
  | none => directive.level.name

end LogDirective

/-- A filter: at most one directive for each target and one for everything. -/
abbrev LogFilter : Type := List LogDirective

namespace LogFilter

/-- Adds a directive in place of the one for the same target. -/
def add (filter : LogFilter) (directive : LogDirective) : LogFilter :=
  filter.filter (fun other => other.target ≠ directive.target) ++ [directive]

/-- Reads a filter; one directive that cannot be read spoils it. -/
def ofText? (text : String) : Option LogFilter := do
  let directives ← ((text.splitOn ",").filter (· ≠ "")).mapM LogDirective.ofText?
  return directives.foldl add []

/-- A filter as text. -/
def text (filter : LogFilter) : String := ",".intercalate (filter.map LogDirective.text)

/-- What stands between the commas of the text, in the order of its characters.  The text of a
filter without directives is one empty part. -/
def parts (filter : LogFilter) : List String :=
  (filter.text.splitOn ",").mergeSort fun a b => a ≤ b

end LogFilter

/-- A configured level as a filter text: a bare level name in lower case, `warn` for `warning`,
`info` for nothing, and any other text as it is. -/
def normalizeLevel (text : String) : String :=
  let level := Text.trim text
  if level.isEmpty then "info"
  else
    let lower := LogLevel.lower level
    if lower = "warning" then "warn"
    else if lower ∈ ["trace", "debug", "info", "warn", "error"] then lower
    else level

/-- The filter for the log: the first that can be read of the settings with what the environment adds
to them, what the environment says, and the settings. -/
def LoggingSettings.filter (settings : LoggingSettings) (environment : Option String) :
    LogFilter :=
  let configured := normalizeLevel settings.level
  let fromEnvironment := (environment.map Text.trim).filter fun text => !text.isEmpty
  let candidates := match fromEnvironment with
    | some text => [configured ++ "," ++ text, text, configured]
    | none => [configured]
  (candidates.findSome? LogFilter.ofText?).getD [⟨none, .info⟩]

end ClassLattice
