import ClassLattice.Toml.Tree

/-!
# The lexemes of TOML

Blanks, comments, line ends, strings, bare keys, numbers, dates and times, each read from the front
of a list of characters.
-/

set_option autoImplicit false

namespace ClassLattice.Toml

/-! ## Blanks and line ends -/

/-- Whether a character separates lexemes within a line. -/
def isBlank (c : Char) : Bool := c = ' ' || c = '\t'

/-- The characters that a comment may hold, and a string between its own delimiters. -/
def isPlain (c : Char) : Bool := c = '\t' || (' ' ≤ c && c ≠ '\x7f')

/-- The text behind blanks. -/
def skipBlanks (text : List Char) : List Char := text.dropWhile isBlank

/-- The text behind the end of a line. -/
def takeNewline : List Char → Option (List Char)
  | '\n' :: rest => some rest
  | '\r' :: '\n' :: rest => some rest
  | _ => none

/-- A text without the comment in front, if there is one. -/
def skipComment : List Char → List Char
  | '#' :: rest => rest.dropWhile isPlain
  | text => text

/-- The rest of a line that holds nothing more: blanks, a comment and the line end or the end of
the text. -/
def takeLineEnd (text : List Char) : Option (List Char) :=
  match skipComment (skipBlanks text) with
  | [] => some []
  | rest => takeNewline rest

/-- A text without the blanks, comments and line ends in front.  A comment is left where it is if
it does not end with its line. -/
def skipLines : (isComment : Bool) → List Char → Option (List Char)
  | _, '\n' :: rest => skipLines false rest
  | _, '\r' :: '\n' :: rest => skipLines false rest
  | false, '#' :: rest => skipLines true rest
  | false, c :: rest => if isBlank c then skipLines false rest else some (c :: rest)
  | true, c :: rest => if isPlain c then skipLines true rest else none
  | _, [] => some []

/-! ## Strings -/

/-- The value of a hexadecimal digit. -/
def hexValue? (c : Char) : Option Nat :=
  if '0' ≤ c ∧ c ≤ '9' then some (c.toNat - '0'.toNat)
  else if 'a' ≤ c ∧ c ≤ 'f' then some (c.toNat - 'a'.toNat + 10)
  else if 'A' ≤ c ∧ c ≤ 'F' then some (c.toNat - 'A'.toNat + 10)
  else none

/-- The character whose number hexadecimal digits spell. -/
def charOfHex? (digits : List Char) : Option Char := do
  let values ← digits.mapM hexValue?
  let number := values.foldl (fun total value => total * 16 + value) 0
  if number.isValidChar then some (Char.ofNat number) else none

/-- The character that a backslash and a letter stand for. -/
def escaped? (c : Char) : Option Char :=
  match c with
  | 'b' => some '\x08'
  | 't' => some '\t'
  | 'n' => some '\n'
  | 'f' => some '\x0c'
  | 'r' => some '\r'
  | '"' => some '"'
  | '\\' => some '\\'
  | _ => none

/-- A string of one line up to its closing quote, put behind what was read before, which is held
latest first. -/
def takeBasic : List Char → (done : List Char) → Option (String × List Char)
  | '"' :: rest, done => some (String.ofList done.reverse, rest)
  | '\\' :: 'u' :: a :: b :: c :: d :: rest, done =>
    match charOfHex? [a, b, c, d] with
    | some char => takeBasic rest (char :: done)
    | none => none
  | '\\' :: 'U' :: a :: b :: c :: d :: e :: f :: g :: h :: rest, done =>
    match charOfHex? [a, b, c, d, e, f, g, h] with
    | some char => takeBasic rest (char :: done)
    | none => none
  | '\\' :: c :: rest, done =>
    match escaped? c with
    | some char => takeBasic rest (char :: done)
    | none => none
  | c :: rest, done => if isPlain c && c ≠ '\\' then takeBasic rest (c :: done) else none
  | [], _ => none

/-- A string of several lines up to its closing quotes, before which one or two further quotes may
stand.  While `isJoining`, blanks and line ends are dropped; a backslash at the end of a line
begins that. -/
def takeBasicLines :
    (isJoining : Bool) → List Char → (done : List Char) → Option (String × List Char)
  | true, ' ' :: rest, done => takeBasicLines true rest done
  | true, '\t' :: rest, done => takeBasicLines true rest done
  | true, '\n' :: rest, done => takeBasicLines true rest done
  | true, '\r' :: '\n' :: rest, done => takeBasicLines true rest done
  | _, '"' :: '"' :: '"' :: '"' :: '"' :: rest, done =>
    some (String.ofList ('"' :: '"' :: done).reverse, rest)
  | _, '"' :: '"' :: '"' :: '"' :: rest, done => some (String.ofList ('"' :: done).reverse, rest)
  | _, '"' :: '"' :: '"' :: rest, done => some (String.ofList done.reverse, rest)
  | _, '\r' :: '\n' :: rest, done => takeBasicLines false rest ('\n' :: done)
  | _, '\\' :: 'u' :: a :: b :: c :: d :: rest, done =>
    match charOfHex? [a, b, c, d] with
    | some char => takeBasicLines false rest (char :: done)
    | none => none
  | _, '\\' :: 'U' :: a :: b :: c :: d :: e :: f :: g :: h :: rest, done =>
    match charOfHex? [a, b, c, d, e, f, g, h] with
    | some char => takeBasicLines false rest (char :: done)
    | none => none
  | _, '\\' :: c :: rest, done =>
    if (takeNewline (skipBlanks (c :: rest))).isSome then takeBasicLines true (c :: rest) done
    else match escaped? c with
      | some char => takeBasicLines false rest (char :: done)
      | none => none
  | _, c :: rest, done =>
    if c = '\n' || (isPlain c && c ≠ '\\') then takeBasicLines false rest (c :: done) else none
  | _, [], _ => none

/-- Takes the rest of a text in single quotes. -/
def takeLiteral (text : List Char) : Option (String × List Char) :=
  match text.span fun c => isPlain c && c ≠ '\'' with
  | (content, '\'' :: rest) => some (String.ofList content, rest)
  | _ => none

/-- A literal string of several lines up to its closing apostrophes, before which one or two
further apostrophes may stand. -/
def takeLiteralLines : List Char → (done : List Char) → Option (String × List Char)
  | '\'' :: '\'' :: '\'' :: '\'' :: '\'' :: rest, done =>
    some (String.ofList ('\'' :: '\'' :: done).reverse, rest)
  | '\'' :: '\'' :: '\'' :: '\'' :: rest, done => some (String.ofList ('\'' :: done).reverse, rest)
  | '\'' :: '\'' :: '\'' :: rest, done => some (String.ofList done.reverse, rest)
  | '\r' :: '\n' :: rest, done => takeLiteralLines rest ('\n' :: done)
  | c :: rest, done => if c = '\n' || isPlain c then takeLiteralLines rest (c :: done) else none
  | [], _ => none

/-- Takes a text in quotes of any kind. -/
def takeString : List Char → Option (String × List Char)
  | '"' :: '"' :: '"' :: rest => takeBasicLines false ((takeNewline rest).getD rest) []
  | '"' :: rest => takeBasic rest []
  | '\'' :: '\'' :: '\'' :: rest => takeLiteralLines ((takeNewline rest).getD rest) []
  | '\'' :: rest => takeLiteral rest
  | _ => none

/-! ## Keys -/

/-- The characters of a key without quotes. -/
def isBare (c : Char) : Bool := c.isAlphanum || c = '-' || c = '_'

/-- Takes a key. -/
def takeKey (text : List Char) : Option (String × List Char) :=
  match text with
  | '"' :: rest => takeBasic rest []
  | '\'' :: rest => takeLiteral rest
  | _ =>
    match text.span isBare with
    | ([], _) => none
    | (name, rest) => some (String.ofList name, rest)

/-! ## Numbers -/

/-- The digits in front of a text, which may be divided by single underscores, and the rest. -/
def spanDigits (isDigit : Char → Bool) : List Char → List Char × List Char
  | '_' :: c :: rest =>
    if isDigit c then
      let (digits, rest) := spanDigits isDigit rest
      (c :: digits, rest)
    else ([], '_' :: c :: rest)
  | c :: rest =>
    if isDigit c then
      let (digits, rest) := spanDigits isDigit rest
      (c :: digits, rest)
    else ([], c :: rest)
  | [] => ([], [])

/-- Takes digits, of which there is one at least. -/
def takeDigits (isDigit : Char → Bool) (text : List Char) : Option (List Char × List Char) :=
  match text with
  | c :: _ => if isDigit c then some (spanDigits isDigit text) else none
  | [] => none

/-- The number that digits spell in a base. -/
def numberOf (base : Nat) (digits : List Char) : Nat :=
  digits.foldl (fun total c => total * base + (hexValue? c).getD 0) 0

/-- Takes a sign, if there is one. -/
def takeSign : List Char → Bool × List Char
  | '-' :: rest => (true, rest)
  | '+' :: rest => (false, rest)
  | text => (false, text)

/-- Takes a whole number without needless zeros. -/
def takeWhole : List Char → Option (List Char × List Char)
  | '0' :: rest => some (['0'], rest)
  | text => takeDigits Char.isDigit text

/-- An integer of 64 bits, if the number is one. -/
def integer? (value : Int) : Option Scalar :=
  if -0x8000000000000000 ≤ value ∧ value < 0x8000000000000000 then some (.integer value) else none

/-- Digits in a base after the letters that announce it, as an integer. -/
def takeBased (base : Nat) (isDigit : Char → Bool) (text : List Char) :
    Option (Scalar × List Char) := do
  let (digits, rest) ← takeDigits isDigit text
  let value ← integer? (numberOf base digits)
  return (value, rest)

/-- Takes an integer. -/
def takeInteger : List Char → Option (Scalar × List Char)
  | '0' :: 'x' :: rest => takeBased 16 (fun c => (hexValue? c).isSome) rest
  | '0' :: 'o' :: rest => takeBased 8 (fun c => '0' ≤ c && c ≤ '7') rest
  | '0' :: 'b' :: rest => takeBased 2 (fun c => c = '0' || c = '1') rest
  | text => do
    let (isNegative, rest) := takeSign text
    let (digits, rest) ← takeWhole rest
    let size := numberOf 10 digits
    let value ← integer? (if isNegative then -(size : Int) else size)
    return (value, rest)

/-- The exponent of a float. -/
def takeExponent : List Char → Option (Int × List Char)
  | c :: rest =>
    if c = 'e' || c = 'E' then do
      let (isNegative, rest) := takeSign rest
      let (digits, rest) ← takeDigits Char.isDigit rest
      let size := numberOf 10 digits
      return (if isNegative then -(size : Int) else size, rest)
    else none
  | [] => none

/-- The float that a sign, digits before and behind the point and an exponent spell.  One that is
too great is refused unless it is negative. -/
def float? (isNegative : Bool) (whole fraction : List Char) (exponent : Int) : Option Scalar :=
  match Binary64.ofDecimal isNegative (numberOf 10 (whole ++ fraction))
      (exponent - fraction.length) with
  | .infinite false => none
  | value => some (.float value)

/-- A float: digits with a fraction, an exponent or both. -/
def takeDecimalFloat (text : List Char) : Option (Scalar × List Char) := do
  let (isNegative, rest) := takeSign text
  let (whole, rest) ← takeWhole rest
  match rest with
  | '.' :: rest => do
    let (fraction, rest) ← takeDigits Char.isDigit rest
    let (exponent, rest) := (takeExponent rest).getD (0, rest)
    let value ← float? isNegative whole fraction exponent
    return (value, rest)
  | _ => do
    let (exponent, rest) ← takeExponent rest
    let value ← float? isNegative whole [] exponent
    return (value, rest)

/-- Takes a float that is given by its name. -/
def takeNamedFloat (text : List Char) : Option (Scalar × List Char) :=
  match takeSign text with
  | (isNegative, 'i' :: 'n' :: 'f' :: rest) => some (.float (.infinite isNegative), rest)
  | (_, 'n' :: 'a' :: 'n' :: rest) => some (.float .nan, rest)
  | _ => none

/-! ## Dates and times -/

/-- Takes a number of so many digits. -/
def takeFixed (count : Nat) (text : List Char) : Option (Nat × List Char) :=
  let digits := text.take count
  if digits.length = count && digits.all Char.isDigit then
    some (numberOf 10 digits, text.drop count)
  else none

/-- A text without a given character in front. -/
def takeChar (c : Char) : List Char → Option (List Char)
  | first :: rest => if first = c then some rest else none
  | [] => none

/-- The number of days in a month. -/
def daysOfMonth (year month : Nat) : Nat :=
  if month = 2 then
    if year % 4 = 0 ∧ (year % 100 ≠ 0 ∨ year % 400 = 0) then 29 else 28
  else if month = 4 ∨ month = 6 ∨ month = 9 ∨ month = 11 then 30
  else 31

/-- Takes a date. -/
def takeDate (text : List Char) : Option (List Char) := do
  let (year, rest) ← takeFixed 4 text
  let (month, rest) ← takeFixed 2 (← takeChar '-' rest)
  let (day, rest) ← takeFixed 2 (← takeChar '-' rest)
  if 1 ≤ month ∧ month ≤ 12 ∧ 1 ≤ day ∧ day ≤ daysOfMonth year month then some rest else none

/-- Takes a time of day. -/
def takeTime (text : List Char) : Option (List Char) := do
  let (hour, rest) ← takeFixed 2 text
  let (minute, rest) ← takeFixed 2 (← takeChar ':' rest)
  let (second, rest) ← takeFixed 2 (← takeChar ':' rest)
  if 24 ≤ hour ∨ 60 ≤ minute ∨ 61 ≤ second then none
  else match rest with
    | '.' :: more =>
      match more.span Char.isDigit with
      | ([], _) => some rest
      | (_, more) => some more
    | _ => some rest

/-- Takes the offset of a time zone. -/
def takeOffset : List Char → Option (List Char)
  | 'Z' :: rest | 'z' :: rest => some rest
  | '+' :: rest | '-' :: rest => do
    let (hour, rest) ← takeFixed 2 rest
    let (minute, rest) ← takeFixed 2 (← takeChar ':' rest)
    if 24 ≤ hour ∨ 60 ≤ minute then none else some rest
  | _ => none

/-- A text without what may follow a date: a time of day with or without an offset. -/
def takeTimeOfDate (text : List Char) : Option (List Char) :=
  match text with
  | c :: rest =>
    if c = 'T' || c = 't' || c = ' ' then do
      let rest ← takeTime rest
      return (takeOffset rest).getD rest
    else none
  | [] => none

/-- Takes a date, a time or both. -/
def takeDatetime (text : List Char) : Option (Scalar × List Char) := do
  let rest ← match takeDate text with
    | some rest => some ((takeTimeOfDate rest).getD rest)
    | none => takeTime text
  return (.datetime (String.ofList (text.take (text.length - rest.length))), rest)

/-! ## Values without parts -/

/-- Takes a value that holds no others. -/
def takeScalar (text : List Char) : Option (Scalar × List Char) :=
  match text with
  | '"' :: _ | '\'' :: _ => do
    let (value, rest) ← takeString text
    return (.text value, rest)
  | 't' :: 'r' :: 'u' :: 'e' :: rest => some (.boolean true, rest)
  | 'f' :: 'a' :: 'l' :: 's' :: 'e' :: rest => some (.boolean false, rest)
  | _ =>
    takeDatetime text <|> takeDecimalFloat text <|> takeNamedFloat text <|> takeInteger text

end ClassLattice.Toml
