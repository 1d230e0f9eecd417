import Gazetteer.Answer
import Gazetteer.Hierarchy.Cache
import Gazetteer.Plane.Binary64
import Gazetteer.Selection
import Gazetteer.Settings

/-!
# The geocoder

From a coordinate to the place that describes it: the nearest suitable place, or else the
tightest area around the coordinate, is matched; its chain is climbed and cut to the zoom;
the first level that is left is the answer, with its address.
-/

namespace Gazetteer

/-- A store of places and its index, with the settings of the lookup. -/
structure Geocoder (K : Type) [Scalar K] where
  store : Store K
  index : SpatialIndex K
  /-- The index is the one over the store.  In which order it comes to places at one distance is
  its own choice: that order is not fixed for an index, and no theorem uses it. -/
  indexed : index = store.index := by rfl
  suitability : Suitability
  zoom : ZoomTable
  maxCandidates : Nat
  maxRadius : K
  maxChainLength : Nat

namespace Geocoder

variable {K : Type} [Scalar K]

/-- The nearest suitable place within the radius, with its distance. -/
def nearestMatch? (geocoder : Geocoder K) (p : Coord K) : Option (Place K × K) :=
  match geocoder.index.nearest p geocoder.maxCandidates geocoder.maxRadius with
  | .error _ => none
  | .ok candidates =>
    (Candidate.select geocoder.suitability candidates).map fun best => (best.place, best.distance)

/-- The tightest area around a point, at distance zero. -/
def areaMatch? (geocoder : Geocoder K) (p : Coord K) : Option (Place K × K) :=
  (Place.foremost? ((geocoder.store.containing p).filter fun place =>
    0 < place.addressRank)).map fun place => (place, 0)

/-- The place that is matched to a point. -/
def findMatch? (geocoder : Geocoder K) (p : Coord K) : Option (Place K × K) :=
  geocoder.nearestMatch? p <|> geocoder.areaMatch? p

/-- The shape that a request asks for. -/
def geometryOutput? (place : Place K) (request : Request K) : Option (GeometryOutput K) :=
  if request.format = .none then none
  else
    let tolerance := request.effectiveTolerance
    some ⟨request.format, tolerance, place.geometry.simplify tolerance⟩

/-- The answer that describes `place`, the first of the levels `entries`. -/
def describe (geocoder : Geocoder K) (request : Request K) (place : Place K) (distance : K)
    (entries : List ChainEntry) (truncated : Bool) : Answer K :=
  let address := Address.assemble geocoder.store entries request.languages
  let name := place.name? request.languages
  { place := place
    name := name
    displayName := if address.displayName.isEmpty then name.getD "" else address.displayName
    distance := distance
    address := if request.addressDetails then some address.lines else none
    extraTags := if request.extraTags then some place.extraTags else none
    nameDetails := if request.nameDetails then some place.names else none
    geometry := geometryOutput? place request
    hierarchyTruncated := truncated }

/-- The answer for a matched place and its chain.  Where the zoom keeps no level of the
chain there is none. -/
def answer (geocoder : Geocoder K) (request : Request K) (matched : Place K) (distance : K)
    (chain : Chain) : Except (Failure K) (Answer K) :=
  let entries := geocoder.zoom.truncate chain request.zoom
  match entries.head?.bind fun entry => geocoder.store.get? entry.id with
  | none => .error .noCoverage
  | some place =>
    let distance :=
      if place.id = matched.id then distance else place.distance request.position
    .ok (geocoder.describe request place distance entries chain.truncated)

/-- Answer a request from scratch. -/
def resolve (geocoder : Geocoder K) (request : Request K) : Except (Failure K) (Answer K) := do
  request.validate
  match geocoder.findMatch? request.position with
  | none => .error .noCoverage
  | some (matched, distance) =>
    geocoder.answer request matched distance
      (Chain.build geocoder.store matched geocoder.maxChainLength)

/-- Answer a request with the help of remembered chains. -/
def resolveWith (geocoder : Geocoder K) (hierarchy : Hierarchy) (request : Request K) :
    Except (Failure K) (Answer K) × Hierarchy :=
  match request.validate with
  | .error failure => (.error failure, hierarchy)
  | .ok _ =>
    match geocoder.findMatch? request.position with
    | none => (.error .noCoverage, hierarchy)
    | some (matched, distance) =>
      let (chain, hierarchy) := hierarchy.resolve geocoder.store matched
      (geocoder.answer request matched distance chain, hierarchy)

/-- Answer requests one after the other with one memory of chains. -/
def resolveAll (geocoder : Geocoder K) :
    Hierarchy → List (Request K) → List (Except (Failure K) (Answer K))
  | _, [] => []
  | hierarchy, request :: rest =>
    let (result, hierarchy) := geocoder.resolveWith hierarchy request
    result :: geocoder.resolveAll hierarchy rest

/-- The memory of chains that the geocoder starts with. -/
def hierarchy (geocoder : Geocoder K) (cacheSize : Nat) : Hierarchy :=
  Hierarchy.ofSize geocoder.maxChainLength cacheSize

/-- A geocoder over a store; settings with a fault are refused. -/
def ofSettings (store : Store Float) (settings : LookupSettings) :
    Except SettingsFault (Geocoder Float) := do
  let settings ← settings.validate
  let zoom ← ZoomTable.ofRanks settings.zoomRanks
  return {
    store := store
    index := store.index
    suitability := ⟨settings.minCandidateRank, settings.excluded⟩
    zoom := zoom
    maxCandidates := settings.maxCandidates
    maxRadius := settings.maxRadius
    maxChainLength := settings.maxChainLength }

end Geocoder

end Gazetteer
