/-!
# Lenient reading of UTF-8

Every sequence of bytes has a text.  Where bytes do not spell a character, the longest start of a
character that they do spell, or else a single byte, stands for one replacement character.
-/

set_option autoImplicit false

namespace ClassLattice.Text

/-- What the first byte of a character of several bytes says. -/
structure Utf8Lead where
  /-- How many bytes follow. -/
  following : Nat
  /-- The part of the number of the character that is in the first byte. -/
  payload : Nat
  /-- The least value of the second byte. -/
  low : UInt8 := 0x80
  /-- The greatest value of the second byte. -/
  high : UInt8 := 0xBF

/-- What a byte says as the first of a character of several bytes.  The bounds on the second byte
exclude numbers that need fewer bytes, surrogates, and numbers above all characters. -/
def Utf8Lead.ofByte? (byte : UInt8) : Option Utf8Lead :=
  let n := byte.toNat
  if 0xC2 ≤ n ∧ n ≤ 0xDF then some { following := 1, payload := n % 0x20 }
  else if n = 0xE0 then some { following := 2, payload := 0, low := 0xA0 }
  else if n = 0xED then some { following := 2, payload := n % 0x10, high := 0x9F }
  else if 0xE1 ≤ n ∧ n ≤ 0xEF then some { following := 2, payload := n % 0x10 }
  else if n = 0xF0 then some { following := 3, payload := 0, low := 0x90 }
  else if n = 0xF4 then some { following := 3, payload := n % 8, high := 0x8F }
  else if 0xF1 ≤ n ∧ n ≤ 0xF3 then some { following := 3, payload := n % 8 }
  else none

/-- Reads a number of bytes that follow, the first of them between bounds.  The result is the
number of the character, if all are there, and how many bytes were read. -/
def followUtf8 : Nat → UInt8 → UInt8 → Nat → List UInt8 → Option Nat × Nat
  | 0, _, _, value, _ => (some value, 0)
  | _ + 1, _, _, _, [] => (none, 0)
  | count + 1, low, high, value, byte :: rest =>
    if low ≤ byte ∧ byte ≤ high then
      let (found, used) := followUtf8 count 0x80 0xBF (value * 0x40 + byte.toNat % 0x40) rest
      (found, used + 1)
    else (none, 0)

/-- The character that stands for bytes that spell none. -/
def replacement : Char := '\uFFFD'

/-- The character at the front of a sequence of bytes, and how many bytes behind the first one it
takes up. -/
def firstUtf8 (byte : UInt8) (rest : List UInt8) : Char × Nat :=
  if byte < 0x80 then (Char.ofNat byte.toNat, 0)
  else
    match Utf8Lead.ofByte? byte with
    | none => (replacement, 0)
    | some lead =>
      let (found, used) := followUtf8 lead.following lead.low lead.high lead.payload rest
      ((found.map Char.ofNat).getD replacement, used)

/-- The characters of bytes, with replacements where there is none. -/
def charsOfUtf8 : List UInt8 → List Char
  | [] => []
  | byte :: rest =>
    let (c, used) := firstUtf8 byte rest
    c :: charsOfUtf8 (rest.drop used)
termination_by bytes => bytes.length
decreasing_by simp only [List.length_drop, List.length_cons]; omega

/-- The text of bytes, with replacements where there is none. -/
def decodeUtf8 (bytes : List UInt8) : String := String.ofList (charsOfUtf8 bytes)

end ClassLattice.Text
