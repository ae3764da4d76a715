import ClassLattice.Decimal.Shortest
import ClassLattice.Text.Quoted
import ClassLattice.Toml.Document

/-!
# Data that do not fit

A document may be well formed and yet not say what a configuration has to say.  Each misfit names
what was found and what would have fitted.
-/

set_option autoImplicit false

namespace ClassLattice

/-- What was found in a place, as far as a misfit tells. -/
inductive Finding where
  | text (value : String)
  | integer (value : Int)
  | float (value : Binary64)
  | boolean (value : Bool)
  | sequence
  | map
  deriving DecidableEq

/-- What a value of a document is. -/
def Finding.ofTree : Toml.Tree → Finding
  | .scalar (.text value) => text value
  | .scalar (.integer value) => integer value
  | .scalar (.float value) => float value
  | .scalar (.boolean value) => boolean value
  | .scalar (.datetime _) => map
  | .array _ | .tables _ => sequence
  | .table _ _ => map

/-- A finding in words. -/
def Finding.describe : Finding → String
  | text value => "string " ++ Text.quote value
  | integer value => "integer \x60" ++ toString value ++ "\x60"
  | float value => "floating point \x60" ++ value.text ++ "\x60"
  | boolean value => "boolean \x60" ++ (if value then "true" else "false") ++ "\x60"
  | sequence => "sequence"
  | map => "map"

/-- Why a document is no configuration. -/
inductive Misfit where
  | unknownField (name : String) (known : List String)
  | missingField (name : String)
  | wrongType (found : Finding) (expected : String)
  | wrongValue (found : Finding) (expected : String)
  | wrongLength (length : Nat) (expected : String)
  deriving DecidableEq

/-- The names of the fields that would have fitted. -/
def expectedFields (known : List String) : String :=
  let quoted := known.map fun name => "\x60" ++ name ++ "\x60"
  match quoted with
  | [only] => only
  | [one, other] => one ++ " or " ++ other
  | names => "one of " ++ String.intercalate ", " names

/-- The text that tells what does not fit. -/
def Misfit.message : Misfit → String
  | unknownField name known =>
    "unknown field \x60" ++ name ++ "\x60, expected " ++ expectedFields known
  | missingField name => "missing field \x60" ++ name ++ "\x60"
  | wrongType found expected => "invalid type: " ++ found.describe ++ ", expected " ++ expected
  | wrongValue found expected => "invalid value: " ++ found.describe ++ ", expected " ++ expected
  | wrongLength length expected =>
    "invalid length " ++ toString length ++ ", expected " ++ expected

end ClassLattice
