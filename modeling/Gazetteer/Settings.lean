import Gazetteer.Zoom
import Gazetteer.Data.Value

/-!
# Settings

What can be tuned: how places are looked up, where the service listens, and how a snapshot
is built.  Settings are read from a data document; what a document does not say keeps its
default, and what it says beyond that is passed over.  Whether an array may hold more than
a group of settings depends on the notation of the document.
-/

namespace Gazetteer

/-- How places are looked up. -/
structure LookupSettings where
  /-- The number of nearest places that are looked at. -/
  maxCandidates : Nat := 64
  /-- The search radius in degrees. -/
  maxRadius : Float := 0.05
  /-- The least search rank of a nearest place. -/
  minCandidateRank : Rank := 26
  /-- Patterns of places that are never nearest places. -/
  excluded : List String := ["boundary", "landuse"]
  maxChainLength : Nat := 32
  /-- The number of chains remembered; zero for none. -/
  chainCacheSize : Nat := 10000
  zoomRanks : List Rank := ZoomTable.defaultRanks

/-- Where the service listens and what it serves. -/
structure ServerSettings where
  listen : String := "0.0.0.0:3000"
  snapshot : String := "places.json.gz"

/-- How a snapshot is built. -/
structure IngestSettings where
  importanceFile : Option String := none
  /-- The radius in degrees within which a building finds its street. -/
  streetRadius : Float := 0.005

/-- All settings. -/
structure Settings where
  lookup : LookupSettings := {}
  server : ServerSettings := {}
  ingest : IngestSettings := {}

namespace LookupSettings

/-- The first fault in the settings, in a fixed order of checks. -/
def fault? (settings : LookupSettings) : Option SettingsFault :=
  if settings.zoomRanks.length ≠ zoomLevels then
    some (.zoomRanksLength settings.zoomRanks.length)
  else if settings.zoomRanks.any fun rank => Rank.building < rank then some .zoomRanksTooDetailed
  else if ¬ settings.zoomRanks.Pairwise (· ≤ ·) then some .zoomRanksDecrease
  else if settings.maxChainLength = 0 then some .chainLengthZero
  else if settings.maxCandidates = 0 then some .candidatesZero
  else if !settings.maxRadius.isFinite || settings.maxRadius ≤ 0.0 then some .radiusNotPositive
  else none

/-- The settings themselves, if there is nothing wrong with them. -/
def validate (settings : LookupSettings) : Except SettingsFault LookupSettings :=
  match settings.fault? with
  | some fault => .error fault
  | none => .ok settings

open Data in
/-- Read the settings of the lookup. -/
def ofValue? (surplus : Value.Surplus) (value : Value) : Option LookupSettings := do
  let usual : LookupSettings := {}
  let number := Value.natural? UInt64.size
  let rank (item : Value) : Option Rank := (item.natural? 256).map UInt8.ofNat
  match ← value.fields? surplus ["max_candidates", "max_radius_deg", "min_candidate_rank",
      "excluded_categories", "max_chain_len", "chain_cache_size", "zoom_ranks"] with
  | [maxCandidates, maxRadius, minCandidateRank, excluded, maxChainLength, chainCacheSize,
      zoomRanks] =>
    some {
      maxCandidates := ← optional usual.maxCandidates number maxCandidates
      maxRadius := ← optional usual.maxRadius Value.real? maxRadius
      minCandidateRank := ← optional usual.minCandidateRank rank minCandidateRank
      excluded := ← optional usual.excluded (Value.listOf? Value.text?) excluded
      maxChainLength := ← optional usual.maxChainLength number maxChainLength
      chainCacheSize := ← optional usual.chainCacheSize number chainCacheSize
      zoomRanks := ← optional usual.zoomRanks (Value.listOf? rank) zoomRanks }
  | _ => none

end LookupSettings

namespace ServerSettings

open Data in
/-- Read the settings of the service. -/
def ofValue? (surplus : Value.Surplus) (value : Value) : Option ServerSettings := do
  let usual : ServerSettings := {}
  match ← value.fields? surplus ["listen", "snapshot"] with
  | [listen, snapshot] =>
    some {
      listen := ← optional usual.listen Value.text? listen
      snapshot := ← optional usual.snapshot Value.text? snapshot }
  | _ => none

end ServerSettings

namespace IngestSettings

open Data in
/-- Read the settings of the build. -/
def ofValue? (surplus : Value.Surplus) (value : Value) : Option IngestSettings := do
  let usual : IngestSettings := {}
  match ← value.fields? surplus ["importance_file", "street_radius_deg"] with
  | [importanceFile, streetRadius] =>
    some {
      importanceFile := ← optional none (fun item => item.text?.map some) importanceFile
      streetRadius := ← optional usual.streetRadius Value.real? streetRadius }
  | _ => none

end IngestSettings

namespace Settings

open Data in
/-- Read all settings. -/
def ofValue? (surplus : Value.Surplus) (value : Value) : Option Settings := do
  match ← value.fields? surplus ["resolver", "server", "ingest"] with
  | [lookup, server, ingest] =>
    some {
      lookup := ← optional {} (LookupSettings.ofValue? surplus) lookup
      server := ← optional {} (ServerSettings.ofValue? surplus) server
      ingest := ← optional {} (IngestSettings.ofValue? surplus) ingest }
  | _ => none

end Settings

end Gazetteer
