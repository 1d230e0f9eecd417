/-!
# Tables in files

A table is written row by row with tabulators between the fields.  A field that begins
with a quotation mark goes on to the next single one; a doubled one stands for itself,
and what follows the closing one is taken as it is.  Rows end with a line feed or a
carriage return, may differ in length, and empty lines are no rows.  A byte order mark in
front of the table is passed over.
-/

namespace Gazetteer.Importance

/-- A place in a file: bytes before it, and its line. -/
structure Spot where
  offset : Nat
  line : Nat
deriving DecidableEq, Repr

/-- The first byte of a file. -/
def Spot.first : Spot := ⟨0, 1⟩

def lineFeed : UInt8 := 0x0A
def carriageReturn : UInt8 := 0x0D
def tabulator : UInt8 := 0x09
def quotationMark : UInt8 := 0x22

/-- The place behind a byte. -/
def Spot.after (spot : Spot) (byte : UInt8) : Spot :=
  ⟨spot.offset + 1, if byte = lineFeed then spot.line + 1 else spot.line⟩

/-- Whether a byte ends a row. -/
def isLineEnd (byte : UInt8) : Bool :=
  byte = lineFeed || byte = carriageReturn

/-- A row with the place behind the row before it. -/
structure Row where
  start : Spot
  fields : List (List UInt8)
deriving DecidableEq, Repr

/-- How the field that is being read is written. -/
inductive Quoting where
  /-- Nothing has been read of it. -/
  | undecided
  | plain
  | quoted
  /-- Behind a quotation mark, which either ends the quotation or is the first of two. -/
  | marked
deriving DecidableEq, Repr

/-- What a byte does to the field that is being read. -/
inductive Effect where
  | pass (quoting : Quoting)
  | take (quoting : Quoting)
  | endField
  | endRow
deriving DecidableEq, Repr

/-- The effect of a byte outside a quotation. -/
def plainEffect (byte : UInt8) : Effect :=
  if byte = tabulator then .endField
  else if isLineEnd byte then .endRow
  else .take .plain

/-- The effect of a byte. -/
def effect (quoting : Quoting) (byte : UInt8) : Effect :=
  match quoting with
  | .undecided => if byte = quotationMark then .pass .quoted else plainEffect byte
  | .plain => plainEffect byte
  | .quoted => if byte = quotationMark then .pass .marked else .take .quoted
  | .marked => if byte = quotationMark then .take .quoted else plainEffect byte

/-- A row that is being read, its parts in reverse. -/
structure OpenRow where
  quoting : Quoting := .undecided
  field : List UInt8 := []
  fields : List (List UInt8) := []

/-- The fields of a row that ends here. -/
def OpenRow.close (row : OpenRow) : List (List UInt8) :=
  (row.field.reverse :: row.fields).reverse

/-- The rows from a place on: `start` is the place behind the last row, and `row` what has
been read of the next one. -/
def rowsFrom (start here : Spot) : (row : Option OpenRow) → List UInt8 → List Row
  | none, [] => []
  | some row, [] => [⟨start, row.close⟩]
  | row, byte :: rest =>
    let here := here.after byte
    if row.isNone && isLineEnd byte then rowsFrom start here none rest
    else
      let row := row.getD {}
      match effect row.quoting byte with
      | .pass quoting => rowsFrom start here (some { row with quoting := quoting }) rest
      | .take quoting =>
        rowsFrom start here (some { row with quoting := quoting, field := byte :: row.field }) rest
      | .endField =>
        rowsFrom start here (some ⟨.undecided, [], row.field.reverse :: row.fields⟩) rest
      | .endRow => ⟨start, row.close⟩ :: rowsFrom here here none rest

/-- The rows of a table. -/
def rows : List UInt8 → List Row
  | 0xEF :: 0xBB :: 0xBF :: rest => rowsFrom .first ⟨3, 1⟩ none rest
  | bytes => rowsFrom .first .first none bytes

end Gazetteer.Importance
