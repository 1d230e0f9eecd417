import Gazetteer.Data.Value

/-!
# The tables of a settings file

A settings file describes a tree of tables piece by piece: a header opens a table or adds
one to a list of tables, an entry puts a value under a key of the open table, and keys
joined by points make tables on the way.  No piece may say again what another has said, so
a table remembers how it came about.
-/

namespace Gazetteer.Toml

open Gazetteer.Data (Value)

mutual

/-- What stands under a key. -/
inductive Node where
  | value (value : Value)
  | table (table : Table)
  | tables (tables : List Table)

/-- A table.  It is `implied` as long as no header has opened it, and `pointed` if it was
made by a key with points. -/
inductive Table where
  | mk (implied pointed : Bool) (entries : List (String × Node))

end

namespace Table

/-- A table that a header opens. -/
def opened : Table := .mk false false []

def isImplied : Table → Bool
  | .mk implied _ _ => implied

def isPointed : Table → Bool
  | .mk _ pointed _ => pointed

def entries : Table → List (String × Node)
  | .mk _ _ entries => entries

/-- What stands under a key. -/
def find? (table : Table) (key : String) : Option Node :=
  (table.entries.find? fun entry => entry.1 == key).map Prod.snd

/-- Put something under a key, in place of what was there. -/
def put (table : Table) (key : String) (node : Node) : Table :=
  match table with
  | .mk implied pointed entries =>
    .mk implied pointed ((entries.filter fun entry => entry.1 != key) ++ [(key, node)])

/-- The same table, opened by a header. -/
def open' (table : Table) : Table :=
  .mk false false table.entries

/-- Change the table that a path leads to.  Tables that are missing are made on the way; a
list of tables stands for its last one, and a value is no table.  The path of a key with
points does not lead into tables that a header opened. -/
def descend (pointed : Bool) : List String → Table → (Table → Option Table) → Option Table
  | [], table, change => change table
  | key :: path, table, change =>
    match table.find? key with
    | none => do
      let child ← descend pointed path (.mk true pointed []) change
      some (table.put key (.table child))
    | some (.value _) => none
    | some (.table child) =>
      if pointed && !child.isImplied then none
      else do
        let child ← descend pointed path child change
        some (table.put key (.table child))
    | some (.tables tables) =>
      match tables.getLast? with
      | none => none
      | some last => do
        let last ← descend pointed path last change
        some (table.put key (.tables (tables.dropLast ++ [last])))

/-- Put a value under a key with points.  A key is used only once, and values come into a
table made by keys with points through such keys only. -/
def insert (table : Table) (path : List String) (key : String) (value : Value) : Option Table :=
  table.descend true path fun target =>
    if target.isPointed == path.isEmpty then none
    else if (target.find? key).isSome then none
    else some (target.put key (.value value))

/-- Open the table at a path.  Only a table that other headers imply may be there already. -/
def openTable (table : Table) (path : List String) (key : String) : Option Table :=
  table.descend false path fun target =>
    match target.find? key with
    | none => some (target.put key (.table opened))
    | some (.table child) =>
      if child.isImplied && !child.isPointed then some (target.put key (.table child.open'))
      else none
    | some _ => none

/-- Add a table to the list of tables at a path. -/
def addTable (table : Table) (path : List String) (key : String) : Option Table :=
  table.descend false path fun target =>
    match target.find? key with
    | none => some (target.put key (.tables [opened]))
    | some (.tables tables) => some (target.put key (.tables (tables ++ [opened])))
    | some _ => none

end Table

mutual

/-- The data that a table holds. -/
def Table.toValue : Table → Value
  | .mk _ _ entries => .object (entriesToMembers entries)

/-- The data under a key. -/
def Node.toValue : Node → Value
  | .value value => value
  | .table table => table.toValue
  | .tables tables => .array (tablesToValues tables)

/-- The data of entries. -/
def entriesToMembers : List (String × Node) → List (String × Value)
  | [] => []
  | (key, node) :: rest => (key, node.toValue) :: entriesToMembers rest

/-- The data of a list of tables. -/
def tablesToValues : List Table → List Value
  | [] => []
  | table :: rest => table.toValue :: tablesToValues rest

end

end Gazetteer.Toml
