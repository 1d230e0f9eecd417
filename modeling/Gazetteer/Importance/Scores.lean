import Gazetteer.Decimal.Reading
import Gazetteer.Importance.Table
import Gazetteer.Text.Utf8
import Std.Data.HashMap

/-!
# Importance scores

How well known things are is read from a table of scores by their numbers in a knowledge
base.  The columns are found by their headings.  A number may have several rows, one for
each language edition; the greatest of its scores counts.
-/

namespace Gazetteer.Importance

/-- Why a table of scores is refused. -/
inductive ScoresFault where
  /-- There is no file. -/
  | missing
  /-- The file cannot be unpacked. -/
  | packed
  /-- A field is no text: the row with its number and place, the field, and the number of
  its bytes that are sound. -/
  | garbled (row : Nat) (start : Spot) (field sound : Nat)
  | missingColumn (heading : String)
deriving DecidableEq, Repr

/-- The wording of a refusal. -/
def ScoresFault.message : ScoresFault → String
  | missing => "Failed to open importance file"
  | packed => "invalid gzip header"
  | garbled row start field sound =>
    "CSV parse error: record " ++ toString row ++ " (line " ++ toString start.line ++
      ", field: " ++ toString field ++ ", byte: " ++ toString start.offset ++
      "): invalid utf-8: invalid UTF-8 in field " ++ toString field ++ " near byte index " ++
      toString sound
  | missingColumn heading => "Column '" ++ heading ++ "' not found"

/-- The texts of fields from the one numbered `field` on. -/
def readFields (row : Nat) (start : Spot) :
    (field : Nat) → List (List UInt8) → Except ScoresFault (List String)
  | _, [] => .ok []
  | field, bytes :: rest =>
    match Text.Utf8.read bytes with
    | .error sound => .error (.garbled row start field sound)
    | .ok text => (readFields row start (field + 1) rest).map fun texts => text :: texts

/-- The texts of rows from the one numbered `row` on. -/
def readRows : (row : Nat) → List Row → Except ScoresFault (List (List String))
  | _, [] => .ok []
  | number, row :: rest => do
    let texts ← readFields number row.start 0 row.fields
    return texts :: (← readRows (number + 1) rest)

/-- The column under a heading. -/
def columnOf (headings : List String) (heading : String) : Except ScoresFault Nat :=
  match headings.idxOf? heading with
  | some column => .ok column
  | none => .error (.missingColumn heading)

/-- The number and the score that a row gives, if it is long enough and its score is a
decimal number. -/
def scored? (scoreColumn numberColumn : Nat) (row : List String) : Option (String × Float) := do
  let number ← row[numberColumn]?
  let score ← row[scoreColumn]?
  some (number, ← (Decimal.readFloat score).toOption)

/-- Scores by number. -/
abbrev Scores := Std.HashMap String Float

/-- Take in one more score, if it is the first for its number or greater than the one
there. -/
def Scores.add (scores : Scores) (entry : String × Float) : Scores :=
  match scores[entry.1]? with
  | none => scores.insert entry.1 entry.2
  | some best => if best < entry.2 then scores.insert entry.1 entry.2 else scores

/-- The scores that entries give. -/
def Scores.ofEntries (entries : List (String × Float)) : Scores :=
  entries.foldl Scores.add ∅

/-- The headings of the columns that are read. -/
def scoreHeading : String := "importance"
def numberHeading : String := "wikidata_id"

/-- The scores that rows give under headings. -/
def Scores.ofRows (heading : Row) (others : List Row) : Except ScoresFault Scores := do
  let headings ← readFields 0 heading.start 0 heading.fields
  let scoreColumn ← columnOf headings scoreHeading
  let numberColumn ← columnOf headings numberHeading
  let texts ← readRows 1 others
  return Scores.ofEntries (texts.filterMap (scored? scoreColumn numberColumn))

/-- The scores of a table; one without rows has no headings either. -/
def Scores.ofTable (bytes : List UInt8) : Except ScoresFault Scores :=
  match rows bytes with
  | [] => .error (.missingColumn scoreHeading)
  | heading :: others => Scores.ofRows heading others

/-- What is found where a table of scores is expected. -/
inductive ScoresFile where
  | missing
  /-- A file that cannot be unpacked. -/
  | garbled
  /-- A file with the bytes that it unpacks to. -/
  | table (bytes : List UInt8)
deriving DecidableEq, Repr

/-- The scores of a file. -/
def Scores.load : ScoresFile → Except ScoresFault Scores
  | .missing => .error .missing
  | .garbled => .error .packed
  | .table bytes => ofTable bytes

end Gazetteer.Importance
