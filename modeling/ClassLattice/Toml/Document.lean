import ClassLattice.Toml.Lexeme

/-!
# Reading TOML documents

A document is a sequence of lines that each hold a key with a value, the header of a table or
nothing.  The reader follows version 1.0 of the format, with a limit on how deeply values and keys
may be nested.
-/

set_option autoImplicit false

namespace ClassLattice.Toml

/-- Values may be nested less deeply than this, and keys have fewer parts. -/
def nestingLimit : Nat := 80

/-- The parts of a dotted key from the second on, put behind those read before, which are held
latest first.  The number bounds how many parts may follow. -/
def takeKeyParts : Nat → List Char → (done : List String) → Option (List String × List Char)
  | 0, _, _ => none
  | more + 1, text, done => do
    let (key, rest) ← takeKey (skipBlanks text)
    let rest := skipBlanks rest
    match rest with
    | '.' :: rest => takeKeyParts more rest (key :: done)
    | _ => return ((key :: done).reverse, rest)

/-- A key with all its parts: those before the last, and the last. -/
def takeKeyPath (text : List Char) : Option ((List String × String) × List Char) := do
  let (parts, rest) ← takeKeyParts (nestingLimit - 1) text []
  let last ← parts.getLast?
  return ((parts.dropLast, last), rest)

mutual

/-- A value.  `fuel` exceeds twice the length of the text, and `depth` counts the brackets and
braces around it. -/
def takeValue (fuel depth : Nat) (text : List Char) : Option (Tree × List Char) :=
  match fuel with
  | 0 => none
  | fuel + 1 =>
    match text with
    | '[' :: rest =>
      if depth + 1 < nestingLimit then do
        match ← skipLines false rest with
        | ']' :: rest => return (.array [], rest)
        | rest => takeItems fuel (depth + 1) rest []
      else none
    | '{' :: rest =>
      if depth + 1 < nestingLimit then
        match skipBlanks rest with
        | '}' :: rest => some (.table .inline [], rest)
        | rest => takePairs fuel (depth + 1) rest []
      else none
    | _ => do
      let (value, rest) ← takeScalar text
      return (.scalar value, rest)

/-- The items of an array up to its bracket, put behind those read before, which are held latest
first. -/
def takeItems (fuel depth : Nat) (text : List Char) (done : List Tree) :
    Option (Tree × List Char) :=
  match fuel with
  | 0 => none
  | fuel + 1 => do
    let (item, rest) ← takeValue fuel depth text
    match ← skipLines false rest with
    | ']' :: rest => return (.array (item :: done).reverse, rest)
    | ',' :: rest =>
      match ← skipLines false rest with
      | ']' :: rest => return (.array (item :: done).reverse, rest)
      | rest => takeItems fuel depth rest (item :: done)
    | _ => none

/-- The entries of an inline table up to its brace, added to those read before. -/
def takePairs (fuel depth : Nat) (text : List Char) (entries : Entries) :
    Option (Tree × List Char) :=
  match fuel with
  | 0 => none
  | fuel + 1 => do
    let ((path, key), rest) ← takeKeyPath text
    let rest ← takeChar '=' rest
    let (value, rest) ← takeValue fuel depth (skipBlanks rest)
    let entries ← Entries.addValue entries .inline path key value
    match skipBlanks rest with
    | '}' :: rest => return (.table .inline entries, rest)
    | ',' :: rest => takePairs fuel depth rest entries
    | _ => none

end

/-- What was read of a document so far: its entries, and the path of the table that the last header
has opened. -/
structure Reading where
  entries : Entries := []
  opened : List String := []

/-- One line that is not empty.  `fuel` bounds the work on a value. -/
def takeLine (fuel : Nat) (reading : Reading) (text : List Char) : Option (Reading × List Char) :=
  match text with
  | '[' :: '[' :: rest => do
    let ((path, key), rest) ← takeKeyPath rest
    let rest ← takeChar ']' rest
    let rest ← takeChar ']' rest
    let rest ← takeLineEnd rest
    let entries ← Entries.openElement reading.entries path key
    return (⟨entries, path ++ [key]⟩, rest)
  | '[' :: rest => do
    let ((path, key), rest) ← takeKeyPath rest
    let rest ← takeChar ']' rest
    let rest ← takeLineEnd rest
    let entries ← Entries.openTable reading.entries path key
    return (⟨entries, path ++ [key]⟩, rest)
  | _ => do
    let ((path, key), rest) ← takeKeyPath text
    let rest ← takeChar '=' rest
    let (value, rest) ← takeValue fuel 0 (skipBlanks rest)
    let rest ← takeLineEnd rest
    let entries ← Entries.addValueAt reading.entries reading.opened path key value
    return ({ reading with entries }, rest)

/-- The remaining lines of a document.  The second number is at least that of the remaining
lines. -/
def takeLines (fuel : Nat) : Nat → Reading → List Char → Option Entries
  | 0, _, _ => none
  | more + 1, reading, text => do
    match ← skipLines false text with
    | [] => return reading.entries
    | rest =>
      let (reading, rest) ← takeLine fuel reading rest
      takeLines fuel more reading rest

/-- The entries of a document, if it is one.  A byte order mark in front does not count. -/
def parse? (text : String) : Option Entries :=
  let chars := match text.toList with
    | '\ufeff' :: rest => rest
    | chars => chars
  takeLines (2 * chars.length + 1) (chars.length + 1) {} chars

end ClassLattice.Toml
