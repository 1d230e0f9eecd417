import Gazetteer.Toml.Number
import Gazetteer.Toml.Table
import Gazetteer.Toml.Text

/-!
# Reading a settings file

A file in the TOML notation is read line by line into a tree of tables and handed on as
data.  Arrays and tables inside values may be nested to a fixed depth.
-/

namespace Gazetteer.Toml

open Gazetteer.Data (Value)

/-- Values may be nested less deep than this. -/
def depthLimit : Nat := 80

/-- Keys joined by points.  They make tables inside each other, so there are not more of them
than values may be nested. -/
def path? (chars : List Char) : Option (List String × List Char) :=
  (key? (chars.length + 1) chars).filter fun found => found.1.length < depthLimit

mutual

/-- A value.  `depth` says how much deeper values may be nested, `fuel` bounds the reader's
steps. -/
def value? (fuel depth : Nat) (chars : List Char) : Option (Value × List Char) :=
  match fuel with
  | 0 => none
  | fuel + 1 =>
    match chars with
    | [] => none
    | '"' :: _ => (string? chars).map fun (text, rest) => (.text text, rest)
    | '\'' :: _ => (string? chars).map fun (text, rest) => (.text text, rest)
    | '[' :: rest =>
      if depth ≤ 1 then none
      else (items? fuel (depth - 1) rest).map fun (items, rest) => (.array items, rest)
    | '{' :: rest =>
      if depth ≤ 1 then none
      else
        match skipBlank rest with
        | '}' :: rest => some (.object [], rest)
        | rest =>
          (members? fuel (depth - 1) (.mk false false []) rest).map fun (table, rest) =>
            (table.toValue, rest)
    | 't' :: 'r' :: 'u' :: 'e' :: rest => some (.truth true, rest)
    | 'f' :: 'a' :: 'l' :: 's' :: 'e' :: rest => some (.truth false, rest)
    | _ =>
      match dateTime? chars with
      | some found => some found
      | none => number? chars

/-- The items of an array up to its closing bracket.  Line breaks and comments may stand
between them, and a comma behind the last. -/
def items? (fuel depth : Nat) (chars : List Char) : Option (List Value × List Char) :=
  match fuel with
  | 0 => none
  | fuel + 1 =>
    match skipLines (chars.length + 1) chars with
    | ']' :: rest => some ([], rest)
    | rest => do
      let (item, rest) ← value? fuel depth rest
      match skipLines (rest.length + 1) rest with
      | ',' :: rest =>
        let (items, rest) ← items? fuel depth rest
        some (item :: items, rest)
      | ']' :: rest => some ([item], rest)
      | _ => none

/-- The entries of a table inside a value up to its closing brace, all on one line. -/
def members? (fuel depth : Nat) (table : Table) (chars : List Char) :
    Option (Table × List Char) :=
  match fuel with
  | 0 => none
  | fuel + 1 => do
    let (path, rest) ← path? chars
    match rest with
    | '=' :: rest =>
      let (value, rest) ← value? fuel depth (skipBlank rest)
      let table ← table.insert path.dropLast (path.getLast?.getD "") value
      match skipBlank rest with
      | ',' :: rest => members? fuel depth table rest
      | '}' :: rest => some (table, rest)
      | _ => none
    | _ => none

end

/-- The tree so far, and the path of the table that is open. -/
structure Document where
  root : Table
  current : List String

/-- Nothing but the table at the root. -/
def Document.empty : Document := ⟨Table.opened, []⟩

/-- An entry of the open table. -/
def setting? (document : Document) (chars : List Char) : Option (Document × List Char) := do
  let (path, rest) ← path? chars
  match rest with
  | '=' :: rest =>
    let (value, rest) ← value? (2 * rest.length + 2) depthLimit (skipBlank rest)
    let rest ← lineEnd? rest
    let root ← document.root.descend false document.current fun table =>
      table.insert path.dropLast (path.getLast?.getD "") value
    some ({ document with root := root }, rest)
  | _ => none

/-- A header in one or two pairs of brackets. -/
def header? (document : Document) (chars : List Char) : Option (Document × List Char) := do
  let (twice, chars) := match chars with
    | '[' :: rest => (true, rest)
    | _ => (false, chars)
  let (path, rest) ← path? chars
  let rest ← match twice, rest with
    | false, ']' :: rest => some rest
    | true, ']' :: ']' :: rest => some rest
    | _, _ => none
  let rest ← lineEnd? rest
  let key := path.getLast?.getD ""
  let root ←
    if twice then document.root.addTable path.dropLast key
    else document.root.openTable path.dropLast key
  some (⟨root, path⟩, rest)

/-- The lines of a file; every line takes at least one character. -/
def lines? : (fuel : Nat) → Document → List Char → Option Document
  | 0, document, chars => if chars.isEmpty then some document else none
  | fuel + 1, document, chars =>
    match skipBlank chars with
    | [] => some document
    | '[' :: rest => do
      let (document, rest) ← header? document rest
      lines? fuel document rest
    | rest =>
      match lineEnd? rest with
      | some rest => lines? fuel document rest
      | none => do
        let (document, rest) ← setting? document rest
        lines? fuel document rest

/-- Read a whole file; a byte order mark in front of it is passed over. -/
def read? (text : String) : Option Value :=
  let chars := match text.toList with
    | '\ufeff' :: rest => rest
    | chars => chars
  (lines? (chars.length + 1) Document.empty chars).map fun document => document.root.toValue

end Gazetteer.Toml
