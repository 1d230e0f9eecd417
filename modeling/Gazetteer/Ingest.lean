import Gazetteer.Hierarchy.Parents
import Gazetteer.Importance
import Gazetteer.Osm.Extraction
import Gazetteer.Settings.File
import Gazetteer.Snapshot

/-!
# Building a snapshot

A snapshot is built from a map: its elements become places, the places get their
importance from scores or from their sort, and each finds its parents.  Settings, scores
and map are read in this order, and the first that cannot be read is the reason for
building nothing.
-/

namespace Gazetteer

open Importance (Scores ScoresFault ScoresFile)

/-- What a snapshot is built from. -/
structure IngestSource where
  /-- The settings file that was named, if one was; no text if it cannot be read. -/
  settings : Option (Option String) := none
  /-- The scores that were named, which go before those that the settings name. -/
  scores : Option ScoresFile := none
  /-- What is found under the file names in settings. -/
  lookUp : String → ScoresFile
  /-- The street radius that was given, which goes before that of the settings. -/
  streetRadius : Option Float := none
  /-- The path of the map. -/
  path : String
  /-- The elements of the map, if there is one. -/
  map : Option (List Osm.Element)

/-- Why no snapshot is built. -/
inductive IngestFault where
  | settings (fault : SettingsFileFault)
  | scores (fault : ScoresFault)
  | mapMissing
  | tooManyPlaces
  | places (fault : SnapshotFault)
deriving DecidableEq, Repr

/-- The wording of a refusal. -/
def IngestFault.message : IngestFault → String
  | settings fault => fault.message
  | scores fault => fault.message
  | mapMissing => "Failed to open PBF file"
  | tooManyPlaces => "Too many objects for 32-bit place ids"
  | places fault => (Failure.snapshot fault : Failure Float).message

namespace IngestSource

/-- The name of the file that a path leads to. -/
def fileName? (path : String) : Option String :=
  let steps := (Text.pieces '/' path.toList).filter fun step => step ≠ [] ∧ step ≠ ['.']
  match steps.getLast? with
  | none => none
  | some step => if step = ['.', '.'] then none else some (String.ofList step)

/-- The name that the snapshot gives for its source. -/
def name (source : IngestSource) : String :=
  (fileName? source.path).getD "unknown.osm.pbf"

/-- The scores of the file that was named, if one was. -/
def loadScores (source : IngestSource) (settings : IngestSettings) :
    Except ScoresFault (Option Scores) :=
  match source.scores <|> settings.importanceFile.map source.lookUp with
  | none => .ok none
  | some file => (Scores.load file).map some

/-- The places of a map, with importance and parents. -/
def placesOf (elements : List Osm.Element) (scores : Option Scores) (radius : Float) :
    Except IngestFault (List (Place Float)) :=
  let places := Osm.placesOf elements
  if UInt32.size < places.length then .error .tooManyPlaces
  else (assignParents radius (places.map (Place.withImportance scores))).mapError .places

/-- Build the snapshot. -/
def build (source : IngestSource) (createdAt : Timestamp) : Except IngestFault Snapshot := do
  let settings ← (Settings.ofFile source.settings).mapError IngestFault.settings
  let scores ← (source.loadScores settings.ingest).mapError IngestFault.scores
  let radius := source.streetRadius.getD settings.ingest.streetRadius
  match source.map with
  | none => .error .mapMissing
  | some elements =>
    return Snapshot.ofPlaces createdAt source.name (← placesOf elements scores radius)

end IngestSource

end Gazetteer
