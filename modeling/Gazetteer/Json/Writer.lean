import Gazetteer.Data.Value
import Gazetteer.Decimal.Shortest

/-!
# Writing JSON

A value is written on one line, or spread over lines with two blanks a level.  Quotes,
backslashes and control characters are escaped and nothing else is; a real number that
is not finite and what has no meaning have no spelling and are written `null`.
-/

namespace Gazetteer.Json

open Gazetteer.Data (Value)

/-- The hexadecimal digit of a number below sixteen. -/
def hexChar (n : Nat) : Char :=
  if n < 10 then Char.ofNat ('0'.toNat + n) else Char.ofNat ('a'.toNat + (n - 10))

/-- A character inside a quoted text. -/
def escaped (c : Char) : List Char :=
  if c = '"' then ['\\', '"']
  else if c = '\\' then ['\\', '\\']
  else if c = '\n' then ['\\', 'n']
  else if c = '\r' then ['\\', 'r']
  else if c = '\t' then ['\\', 't']
  else if c = '\x08' then ['\\', 'b']
  else if c = '\x0c' then ['\\', 'f']
  else if c.toNat < 0x20 then
    ['\\', 'u', '0', '0', hexChar (c.toNat / 16), hexChar (c.toNat % 16)]
  else [c]

/-- A text in quotes. -/
def quoted (text : String) : String :=
  "\"" ++ String.ofList (text.toList.flatMap escaped) ++ "\""

/-- A real number in its shortest form, `null` if it is not finite. -/
def realText (value : Float) : String :=
  if value.isFinite then Decimal.inDocuments.write value else "null"

/-- How the parts of arrays and objects are set: the break in front of a part at a given
depth, and what stands between a name and its value. -/
structure Setting where
  breakAt : Nat → String
  colon : String

/-- Everything on one line, without blanks. -/
def Setting.compact : Setting := ⟨fun _ => "", ":"⟩

/-- Every part on a line of its own. -/
def Setting.spread : Setting :=
  ⟨fun depth => "\n" ++ String.ofList (List.replicate (2 * depth) ' '), ": "⟩

/-- Parts between brackets. -/
def Setting.enclose (setting : Setting) (depth : Nat) (opening closing : String)
    (parts : List String) : String :=
  if parts.isEmpty then opening ++ closing
  else
    opening ++ setting.breakAt (depth + 1) ++
      String.intercalate ("," ++ setting.breakAt (depth + 1)) parts ++
      setting.breakAt depth ++ closing

mutual

/-- Write a value that stands at a given depth. -/
def Setting.write (setting : Setting) (depth : Nat) : Value → String
  | .null => "null"
  | .meaningless => "null"
  | .truth value => if value then "true" else "false"
  | .integer value => toString value
  | .real value => realText value
  | .text value => quoted value
  | .array items => setting.enclose depth "[" "]" (setting.writeItems (depth + 1) items)
  | .object members =>
    setting.enclose depth "\x7b" "\x7d" (setting.writeMembers (depth + 1) members)

/-- Write the items of an array. -/
def Setting.writeItems (setting : Setting) (depth : Nat) : List Value → List String
  | [] => []
  | item :: rest => setting.write depth item :: setting.writeItems depth rest

/-- Write the members of an object. -/
def Setting.writeMembers (setting : Setting) (depth : Nat) :
    List (String × Value) → List String
  | [] => []
  | (name, value) :: rest =>
    (quoted name ++ setting.colon ++ setting.write depth value) ::
      setting.writeMembers depth rest

end

/-- A value on one line. -/
def compact (value : Value) : String :=
  Setting.compact.write 0 value

/-- A value spread over lines. -/
def spread (value : Value) : String :=
  Setting.spread.write 0 value

end Gazetteer.Json
