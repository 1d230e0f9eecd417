/-!
# UTF-8

Bytes become characters.  A sequence begins with a lead byte that says how many bytes
follow and in which range the first of them lies; the ranges leave out surrogates, forms
that are longer than needed, and everything above `U+10FFFF`.  Where bytes are no
sequence, the longest beginning of one is a single fault, and reading goes on behind it.
-/

namespace Gazetteer.Text.Utf8

/-- What a lead byte announces. -/
structure Lead where
  /-- The number of bytes that follow. -/
  following : Nat
  /-- The range of the first byte that follows. -/
  least : UInt8
  greatest : UInt8
  /-- The part of the code point that the lead byte holds. -/
  bits : Nat
deriving DecidableEq, Repr

/-- The meaning of a lead byte; none for bytes that cannot begin a sequence. -/
def lead? (byte : UInt8) : Option Lead :=
  if byte < 0x80 then some ⟨0, 0x80, 0xBF, byte.toNat⟩
  else if byte < 0xC2 then none
  else if byte < 0xE0 then some ⟨1, 0x80, 0xBF, byte.toNat - 0xC0⟩
  else if byte < 0xF0 then
    let bits := byte.toNat - 0xE0
    if byte = 0xE0 then some ⟨2, 0xA0, 0xBF, bits⟩
    else if byte = 0xED then some ⟨2, 0x80, 0x9F, bits⟩
    else some ⟨2, 0x80, 0xBF, bits⟩
  else if byte < 0xF5 then
    let bits := byte.toNat - 0xF0
    if byte = 0xF0 then some ⟨3, 0x90, 0xBF, bits⟩
    else if byte = 0xF4 then some ⟨3, 0x80, 0x8F, bits⟩
    else some ⟨3, 0x80, 0xBF, bits⟩
  else none

/-- Read the bytes that follow a lead byte.  They are taken for as long as they fit, and
what is left is handed back. -/
def follow (least greatest : UInt8) :
    (count code : Nat) → List UInt8 → Option Nat × List UInt8
  | 0, code, bytes => (some code, bytes)
  | _ + 1, _, [] => (none, [])
  | count + 1, code, byte :: rest =>
    if least ≤ byte ∧ byte ≤ greatest then
      follow 0x80 0xBF count (64 * code + (byte.toNat - 0x80)) rest
    else (none, byte :: rest)

/-- The character at the front, or none for a fault, and what is left behind it. -/
def next (byte : UInt8) (rest : List UInt8) : Option Char × List UInt8 :=
  match lead? byte with
  | none => (none, rest)
  | some lead =>
    let (code, rest) := follow lead.least lead.greatest lead.following lead.bits rest
    (code.map Char.ofNat, rest)

theorem length_follow_le (least greatest : UInt8) (count code : Nat) (bytes : List UInt8) :
    (follow least greatest count code bytes).2.length ≤ bytes.length := by
  fun_induction follow least greatest count code bytes with
  | case1 => simp
  | case2 => simp
  | case3 least greatest count code byte rest fits ih =>
    simp only [List.length_cons]
    omega
  | case4 => simp

theorem length_next_le (byte : UInt8) (rest : List UInt8) :
    (next byte rest).2.length ≤ rest.length := by
  rw [next]
  split
  · simp
  · exact length_follow_le ..

/-- The characters of bytes, none in the place of each fault. -/
def characters : List UInt8 → List (Option Char)
  | [] => []
  | byte :: rest => (next byte rest).1 :: characters (next byte rest).2
termination_by bytes => bytes.length
decreasing_by
  have := length_next_le byte rest
  simp only [List.length_cons]
  omega

/-- The mark that stands for what cannot be read. -/
def replacement : Char := '\ufffd'

/-- Read bytes as text, with a mark in the place of each fault. -/
def readWithMarks (bytes : List UInt8) : List Char :=
  (characters bytes).map fun c => c.getD replacement

/-- Read bytes as text.  Bytes with a fault are refused with the number of those before it. -/
def read (bytes : List UInt8) : Except Nat String :=
  let found := characters bytes
  let sound := (found.takeWhile Option.isSome).filterMap id
  if sound.length = found.length then .ok (String.ofList sound)
  else .error (sound.foldl (fun size c => size + c.utf8Size) 0)

/-- The bytes of a text. -/
def bytes (text : String) : List UInt8 :=
  text.toUTF8.data.toList

end Gazetteer.Text.Utf8
