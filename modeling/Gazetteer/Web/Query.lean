import Gazetteer.Decimal.Reading
import Gazetteer.Request
import Gazetteer.Text.Form

/-!
# Queries

A request as it stands in a web address.  Parameters are read from left to right, and the
first that is given twice or cannot be read is the reason for refusing the query; only then
is it asked whether the coordinate is there.  Unknown parameters are passed over.
-/

namespace Gazetteer.Web

/-- The parameters of a query. -/
inductive Parameter where
  | lat
  | lon
  | zoom
  | languages
  | geoJson
  | kml
  | svg
  | text
  | threshold
  | addressDetails
  | extraTags
  | nameDetails
deriving DecidableEq, Repr

namespace Parameter

/-- The name of a parameter. -/
def name : Parameter → String
  | lat => "lat"
  | lon => "lon"
  | zoom => "zoom"
  | languages => "accept-language"
  | geoJson => "polygon_geojson"
  | kml => "polygon_kml"
  | svg => "polygon_svg"
  | text => "polygon_text"
  | threshold => "polygon_threshold"
  | addressDetails => "addressdetails"
  | extraTags => "extratags"
  | nameDetails => "namedetails"

/-- All parameters. -/
def all : List Parameter :=
  [lat, lon, zoom, languages, geoJson, kml, svg, text, threshold, addressDetails, extraTags,
    nameDetails]

/-- The parameter with a name. -/
def ofName? (name : String) : Option Parameter :=
  all.find? fun parameter => parameter.name == name

/-- A name reads back as its parameter. -/
@[simp] theorem ofName?_name (parameter : Parameter) :
    ofName? parameter.name = some parameter := by
  cases parameter <;> rfl

end Parameter

/-- Why a query is refused. -/
inductive QueryFault where
  | repeated (parameter : Parameter)
  | number (parameter : Parameter) (fault : Decimal.NumberFault)
  | integer (parameter : Parameter) (fault : Decimal.IntegerFault)
  | missing (parameter : Parameter)
deriving DecidableEq, Repr

/-- The wording of a refusal. -/
def QueryFault.message (fault : QueryFault) : String :=
  "Failed to deserialize query string: " ++
    match fault with
    | repeated parameter => "duplicate field `" ++ parameter.name ++ "`"
    | number parameter fault => parameter.name ++ ": " ++ fault.message
    | integer parameter fault => parameter.name ++ ": " ++ fault.message
    | missing parameter => "missing field `" ++ parameter.name ++ "`"

/-- What has been read of a query. -/
structure Query where
  given : List Parameter := []
  numbers : List (Parameter × Float) := []
  zoom : Option Int := none
  texts : List (Parameter × String) := []

namespace Query

/-- Read one parameter. -/
def take (query : Query) (parameter : Parameter) (value : String) : Except QueryFault Query :=
  if parameter ∈ query.given then .error (.repeated parameter)
  else
    let query := { query with given := parameter :: query.given }
    match parameter with
    | .lat | .lon | .threshold =>
      match Decimal.readFloat value with
      | .ok number => .ok { query with numbers := (parameter, number) :: query.numbers }
      | .error fault => .error (.number parameter fault)
    | .zoom =>
      match Decimal.readInteger Int32.minValue.toInt Int32.maxValue.toInt value with
      | .ok zoom => .ok { query with zoom := some zoom }
      | .error fault => .error (.integer parameter fault)
    | _ => .ok { query with texts := (parameter, value) :: query.texts }

/-- Read one pair of form data. -/
def takePair (query : Query) (pair : String × String) : Except QueryFault Query :=
  match Parameter.ofName? pair.1 with
  | some parameter => query.take parameter pair.2
  | none => .ok query

/-- Read the text behind the question mark, up to a fragment if there is one. -/
def read (text : String) : Except QueryFault Query :=
  (Text.Form.pairs (text.toList.takeWhile (· ≠ '#'))).foldlM takePair {}

/-- The number that a parameter gives. -/
def number? (query : Query) (parameter : Parameter) : Option Float :=
  query.numbers.lookup parameter

/-- The number that a parameter has to give. -/
def required (query : Query) (parameter : Parameter) : Except QueryFault Float :=
  match query.number? parameter with
  | some number => .ok number
  | none => .error (.missing parameter)

/-- Whether a parameter switches something on.  Left out or blank it means `default`;
otherwise everything but `0`, `false` and `no` does. -/
def switch (query : Query) (parameter : Parameter) (default : Bool) : Bool :=
  match (query.texts.lookup parameter).map Text.trim with
  | none => default
  | some value => if value.isEmpty then default else value ∉ ["0", "false", "no"]

/-- The output formats with their switches. -/
def formatSwitches (query : Query) : List (GeometryFormat × Bool) :=
  [(.geoJson, query.switch .geoJson false), (.kml, query.switch .kml false),
    (.svg, query.switch .svg false), (.text, query.switch .text false)]

end Query

/-- Characters that a header may hold: the tabulator, the blank, and visible ASCII. -/
def isHeaderChar (c : Char) : Bool :=
  c = '\t' || (0x20 ≤ c.toNat && c.toNat < 0x7F)

/-- The text of a header; one with other characters counts as absent. -/
def headerText? (header : Option String) : Option String :=
  header.filter fun text => text.toList.all isHeaderChar

/-- What is wrong with a query: it cannot be read, or asks for what cannot be had. -/
inductive QueryRefusal where
  | unreadable (fault : QueryFault)
  | unanswerable (failure : Failure Float)

/-- The request that a query makes.  Languages given in the query go before those of the
header. -/
def Query.request (query : Query) (header : Option String) :
    Except QueryRefusal (Request Float) := do
  let lat ← (query.required .lat).mapError .unreadable
  let lon ← (query.required .lon).mapError .unreadable
  let format ← (GeometryFormat.ofSwitches query.formatSwitches).mapError .unanswerable
  let languages := query.texts.lookup .languages <|> headerText? header
  return {
    lat := lat
    lon := lon
    zoom := query.zoom.getD ZoomTable.maxZoom
    languages := Language.parse (languages.getD "")
    format := format
    tolerance := (query.number? .threshold).getD 0
    addressDetails := query.switch .addressDetails true
    extraTags := query.switch .extraTags false
    nameDetails := query.switch .nameDetails false }

/-- The request that the text of a query makes. -/
def requestOf (text : String) (header : Option String) :
    Except QueryRefusal (Request Float) := do
  (← (Query.read text).mapError .unreadable).request header

end Gazetteer.Web
