import Gazetteer.Json.Number
import Gazetteer.Text.Hex

/-!
# Tokens of JSON

A text is cut into its marks, texts in quotes and words, which are the runs of other
characters; white space stands between tokens.  The characters are gone through once, with
the token that has begun as the only state.

An escape may name one half of a pair of surrogates.  Two halves that follow each other make
a character; a text that holds another half can be passed over but has no content.
-/

namespace Gazetteer.Json

open Gazetteer.Data (Value)

/-- A token.  A text is without content if it holds half a character. -/
inductive Token where
  | openArray
  | closeArray
  | openObject
  | closeObject
  | comma
  | colon
  | text (content : Option String)
  | word (value : Value)

/-- White space between tokens. -/
def isSpace (c : Char) : Bool :=
  c = ' ' || c = '\t' || c = '\n' || c = '\r'

/-- The token that a single character makes. -/
def mark? : Char → Option Token
  | '[' => some .openArray
  | ']' => some .closeArray
  | '\x7b' => some .openObject
  | '\x7d' => some .closeObject
  | ',' => some .comma
  | ':' => some .colon
  | _ => none

/-- The value of a word: `true`, `false`, `null` or a number. -/
def wordValue? : List Char → Option Value
  | ['t', 'r', 'u', 'e'] => some (.truth true)
  | ['f', 'a', 'l', 's', 'e'] => some (.truth false)
  | ['n', 'u', 'l', 'l'] => some .null
  | chars => number? chars

/-! ## Texts in quotes -/

/-- The character that an escape of one letter stands for. -/
def escape? : Char → Option Char
  | '"' => some '"'
  | '\\' => some '\\'
  | '/' => some '/'
  | 'b' => some '\x08'
  | 'f' => some '\x0c'
  | 'n' => some '\n'
  | 'r' => some '\r'
  | 't' => some '\t'
  | _ => none

/-- Whether a number is the first half of a pair. -/
def isHighHalf (code : Nat) : Bool :=
  0xD800 ≤ code && code ≤ 0xDBFF

/-- Whether a number is the second half of a pair. -/
def isLowHalf (code : Nat) : Bool :=
  0xDC00 ≤ code && code ≤ 0xDFFF

/-- The character that two halves make. -/
def joinHalves (high low : Nat) : Char :=
  Char.ofNat (0x10000 + (high - 0xD800) * 0x400 + (low - 0xDC00))

/-- The beginning of a text: its characters, the last one first, whether no half has been
left alone, and a first half that waits for the second one. -/
structure Body where
  reversed : List Char
  sound : Bool
  waiting : Option Nat

namespace Body

/-- No characters yet. -/
def empty : Body := ⟨[], true, none⟩

/-- A character follows. -/
def add (body : Body) (c : Char) : Body :=
  ⟨c :: body.reversed, body.sound && body.waiting.isNone, none⟩

/-- A number follows that stands for a character or for half of one. -/
def addCode (body : Body) (code : Nat) : Body :=
  if isHighHalf code then ⟨body.reversed, body.sound && body.waiting.isNone, some code⟩
  else if isLowHalf code then
    match body.waiting with
    | some high => ⟨joinHalves high code :: body.reversed, body.sound, none⟩
    | none => ⟨body.reversed, false, none⟩
  else body.add (Char.ofNat code)

/-- The text, if it has no half of a character. -/
def text? (body : Body) : Option String :=
  if body.sound && body.waiting.isNone then some (String.ofList body.reversed.reverse) else none

end Body

/-! ## Cutting a text into tokens -/

/-- The token that has begun: a word, the last character first, or a text, in which an escape
may have begun.  Of a numbered escape the digits so far have a value, and `missing` digits
follow after the next one. -/
inductive Begun where
  | nothing
  | word (reversed : List Char)
  | text (body : Body)
  | escape (body : Body)
  | numbered (body : Body) (missing value : Nat)

/-- The tokens so far, the last one first, and the one that has begun. -/
structure Scan where
  reversed : List Token
  begun : Begun

namespace Scan

/-- A character that stands between tokens or begins one. -/
def begin (tokens : List Token) (c : Char) : Scan :=
  if isSpace c then ⟨tokens, .nothing⟩
  else if c = '"' then ⟨tokens, .text .empty⟩
  else
    match mark? c with
    | some token => ⟨token :: tokens, .nothing⟩
    | none => ⟨tokens, .word [c]⟩

/-- Whether a character ends a word. -/
def endsWord (c : Char) : Bool :=
  isSpace c || c = '"' || (mark? c).isSome

/-- The next character.  In a text, control characters have to be escaped. -/
def step? (scan : Scan) (c : Char) : Option Scan :=
  let tokens := scan.reversed
  match scan.begun with
  | .nothing => some (begin tokens c)
  | .word reversed =>
    if endsWord c then
      (wordValue? reversed.reverse).map fun value => begin (.word value :: tokens) c
    else some ⟨tokens, .word (c :: reversed)⟩
  | .text body =>
    if c = '"' then some ⟨.text body.text? :: tokens, .nothing⟩
    else if c = '\\' then some ⟨tokens, .escape body⟩
    else if c.toNat < 0x20 then none
    else some ⟨tokens, .text (body.add c)⟩
  | .escape body =>
    if c = 'u' then some ⟨tokens, .numbered body 3 0⟩
    else (escape? c).map fun c => ⟨tokens, .text (body.add c)⟩
  | .numbered body missing value =>
    (Text.hexDigit? c).map fun digit =>
      let value := 16 * value + digit
      match missing with
      | 0 => ⟨tokens, .text (body.addCode value)⟩
      | missing + 1 => ⟨tokens, .numbered body missing value⟩

/-- The tokens in order, at the end of the text. -/
def finish? (scan : Scan) : Option (List Token) :=
  match scan.begun with
  | .nothing => some scan.reversed.reverse
  | .word reversed =>
    (wordValue? reversed.reverse).map fun value => (.word value :: scan.reversed).reverse
  | _ => none

end Scan

/-- The tokens of a text. -/
def tokens? (chars : List Char) : Option (List Token) :=
  (chars.foldlM Scan.step? ⟨[], .nothing⟩).bind Scan.finish?

end Gazetteer.Json
