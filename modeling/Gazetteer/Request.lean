import Gazetteer.Failure
import Gazetteer.Language
import Gazetteer.Plane.Simplify
import Gazetteer.Zoom

/-!
# Requests

What a caller asks for: a coordinate, how detailed the answer shall be, in which languages,
and which extras come with it.
-/

namespace Gazetteer

/-- The encodings in which the shape of a place may be asked for. -/
inductive GeometryFormat where
  | none
  | geoJson
  | kml
  | svg
  | text
deriving DecidableEq, Repr

namespace GeometryFormat

/-- The name of a format. -/
def name : GeometryFormat → String
  | none => "none"
  | geoJson => "geojson"
  | kml => "kml"
  | svg => "svg"
  | text => "text"

/-- The format with a given name, in any case of letters.  An unknown name is handed back in
small letters. -/
def ofName (name : String) : Except String GeometryFormat :=
  let name := Text.lower name
  match name with
  | "none" => .ok none
  | "geojson" => .ok geoJson
  | "kml" => .ok kml
  | "svg" => .ok svg
  | "text" => .ok text
  | "wkt" => .ok text
  | _ => .error name

/-- The wording for a name that no format has. -/
def unknownMessage (name : String) : String :=
  "unknown geometry format '" ++ name ++ "'"

/-- The format chosen by separate switches, of which at most one may be set. -/
def ofSwitches {K : Type} (switches : List (GeometryFormat × Bool)) :
    Except (Failure K) GeometryFormat :=
  match switches.filter Prod.snd with
  | [] => .ok none
  | [(format, _)] => .ok format
  | _ => .error .conflictingFormats

/-- The formats that have switches of their own, in order. -/
def switched : List GeometryFormat := [geoJson, kml, svg, text]

end GeometryFormat

/-- What a caller asks for. -/
structure Request (K : Type) where
  lat : K
  lon : K
  zoom : Int := ZoomTable.maxZoom
  /-- Preferred languages, most preferred first. -/
  languages : List String := []
  format : GeometryFormat := .none
  /-- How far the shape may deviate, in degrees. -/
  tolerance : K
  addressDetails : Bool := true
  extraTags : Bool := false
  nameDetails : Bool := false

namespace Request

variable {K : Type} [Scalar K]

/-- The position that is asked about. -/
def position (request : Request K) : Coord K :=
  ⟨request.lon, request.lat⟩

/-- Whether a number is finite and at most `bound` away from zero. -/
def isWithin (bound value : K) : Bool :=
  Scalar.isFinite value && (-bound ≤ value && value ≤ bound)

/-- A coordinate that is not on the globe is refused. -/
def validate (request : Request K) : Except (Failure K) Unit :=
  if isWithin (90.0 : K) request.lat && isWithin (180.0 : K) request.lon then .ok ()
  else .error (.invalidCoordinate request.lat request.lon)

/-- The tolerance that is applied to the shape. -/
def effectiveTolerance (request : Request K) : K :=
  (tolerance? request.tolerance).getD 0

end Request

end Gazetteer
