import Gazetteer.Text.Hex
import Gazetteer.Text.Pieces
import Gazetteer.Text.Utf8

/-!
# Form data

Names and values as they stand behind the question mark of an address: pairs joined by
`&`, blank space written `+`, and any byte written as a percent sign and two hexadecimal
digits.  A percent sign without two digits behind it stands for itself, and bytes that are
no text are marked.
-/

namespace Gazetteer.Text.Form

/-- The byte that two hexadecimal digits write. -/
def byte? (high low : UInt8) : Option UInt8 := do
  let high ← hexDigit? (Char.ofUInt8 high)
  let low ← hexDigit? (Char.ofUInt8 low)
  some (UInt8.ofNat (16 * high + low))

/-- The bytes that are meant. -/
def unescape : List UInt8 → List UInt8
  | [] => []
  | 0x25 :: high :: low :: rest =>
    match byte? high low with
    | some byte => byte :: unescape rest
    | none => 0x25 :: unescape (high :: low :: rest)
  | 0x2B :: rest => 0x20 :: unescape rest
  | byte :: rest => byte :: unescape rest

/-- The text that is meant. -/
def decode (chars : List Char) : String :=
  String.ofList (Utf8.readWithMarks (unescape (Utf8.bytes (String.ofList chars))))

/-- A name and its value, which is empty if there is no `=`. -/
def pair (chars : List Char) : String × String :=
  match cut? '=' chars with
  | some (name, value) => (decode name, decode value)
  | none => (decode chars, "")

/-- The pairs of form data, in order; empty pieces are no pairs. -/
def pairs (chars : List Char) : List (String × String) :=
  ((pieces '&' chars).filter fun piece => piece ≠ []).map pair

end Gazetteer.Text.Form
