import Gazetteer.Json.Reader
import Gazetteer.Json.Writer
import Gazetteer.Snapshot.Encoding
import Gazetteer.Store
import Gazetteer.Timestamp

/-!
# Snapshots

A snapshot holds all places of a store behind a header that says what it is: the version
of the format, when and from what it was built, and how many places to expect.  A snapshot
is only loaded if the header is right about the version and the number of places and the
places make up a store.
-/

namespace Gazetteer

open Data

/-- What a snapshot says about itself. -/
structure SnapshotHeader where
  formatVersion : Nat
  createdAt : Timestamp
  placeCount : Nat
  /-- The name of the file that the places come from. -/
  sourceFile : String
deriving DecidableEq, Repr

/-- A header and the places behind it. -/
structure Snapshot where
  header : SnapshotHeader
  places : List (Place Float)

/-- What is found where a snapshot is expected. -/
inductive SnapshotFile where
  | missing
  /-- A file that cannot be unpacked. -/
  | garbled
  /-- A file with the text that it unpacks to. -/
  | text (text : String)
deriving DecidableEq, Repr

/-- The version of the format that is written and read. -/
def snapshotVersion : Nat := 1

namespace SnapshotHeader

def toValue (header : SnapshotHeader) : Value :=
  .object [("format_version", .integer header.formatVersion),
    ("created_at", .text header.createdAt.write),
    ("object_count", .integer header.placeCount), ("source_file", .text header.sourceFile)]

def ofValue? (value : Value) : Option SnapshotHeader := do
  match ← value.record? ["format_version", "created_at", "object_count", "source_file"] with
  | [version, createdAt, count, sourceFile] =>
    some ⟨← required (Value.natural? UInt32.size) version,
      ← required (fun value => value.text?.bind Timestamp.read?) createdAt,
      ← required (Value.natural? UInt64.size) count, ← required Value.text? sourceFile⟩
  | _ => none

end SnapshotHeader

namespace Snapshot

def toValue (snapshot : Snapshot) : Value :=
  .object [("header", snapshot.header.toValue),
    ("objects", .array (snapshot.places.map Place.toValue))]

def ofValue? (value : Value) : Option Snapshot := do
  match ← value.record? ["header", "objects"] with
  | [header, places] =>
    some ⟨← required SnapshotHeader.ofValue? header,
      ← required (Value.listOf? Place.ofValue?) places⟩
  | _ => none

/-- The snapshot of some places. -/
def ofPlaces (createdAt : Timestamp) (sourceFile : String) (places : List (Place Float)) :
    Snapshot :=
  ⟨⟨snapshotVersion, createdAt, places.length, sourceFile⟩, places⟩

/-- The text of a snapshot. -/
def write (snapshot : Snapshot) : String :=
  Json.compact snapshot.toValue

/-- The store of a snapshot, with its header. -/
def check (snapshot : Snapshot) : Except SnapshotFault (Store Float × SnapshotHeader) :=
  if snapshot.header.formatVersion ≠ snapshotVersion then
    .error (.version snapshot.header.formatVersion)
  else if snapshot.header.placeCount ≠ snapshot.places.length then
    .error (.count snapshot.header.placeCount snapshot.places.length)
  else (Store.ofPlaces snapshot.places).map fun store => (store, snapshot.header)

/-- Load the store that a data document holds. -/
def loadValue (value : Value) : Except SnapshotFault (Store Float × SnapshotHeader) :=
  match ofValue? value with
  | none => .error .undecodable
  | some snapshot => snapshot.check

/-- Load the store from a file. -/
def load : SnapshotFile → Except (Failure Float) (Store Float × SnapshotHeader)
  | .missing => .error .unreadable
  | .garbled => .error (.snapshot .undecodable)
  | .text text =>
    match Json.read? text with
    | none => .error (.snapshot .undecodable)
    | some value => (loadValue value).mapError .snapshot

end Snapshot

end Gazetteer
