import Gazetteer.Command.Options
import Gazetteer.Settings.File
import Gazetteer.Snapshot
import Gazetteer.Web.Endpoint
import Gazetteer.Web.Reply

/-!
# The command line

A snapshot is either served or asked once.  Files are only read when the words of the
command line make sense, first the settings and then the snapshot, and where they come
from is left to the caller: `run` works in any monad that can read them.
-/

namespace Gazetteer.Command

/-- What is to be done with a snapshot. -/
inductive Task where
  | serve (endpoint : Option String)
  | reverse (request : Request Float)

/-- What a command line asks for. -/
structure Invocation where
  settings : Option String
  snapshot : Option String
  task : Task

/-- What a command line comes to. -/
inductive Reading where
  | run (invocation : Invocation)
  | help
  | misused

/-- Texts of real numbers. -/
def isNumber (value : String) : Bool :=
  (Decimal.readFloat value).toOption.isSome

/-- A zoom fits thirty-two bits. -/
def zoom? (value : String) : Option Int :=
  (Decimal.readInteger Int32.minValue.toInt Int32.maxValue.toInt value).toOption

/-- Options that apply with and without a command in front of them. -/
def commonOptions : List OptionForm :=
  [{ long := "config", short := some 'c', accepts := fun value => !value.isEmpty },
    { long := "snapshot", short := some 's', accepts := fun value => !value.isEmpty }]

/-- The options of the service. -/
def serveOptions : List OptionForm :=
  { long := "listen", short := some 'l' } :: commonOptions

/-- The options of a single lookup. -/
def reverseOptions : List OptionForm :=
  [{ long := "lat", arity := .anyValue, accepts := isNumber },
    { long := "lon", arity := .anyValue, accepts := isNumber },
    { long := "zoom", arity := .anyValue, accepts := fun value => (zoom? value).isSome },
    { long := "lang" },
    { long := "polygon-output",
      accepts := fun value => (GeometryFormat.ofName value).toOption.isSome },
    { long := "polygon-threshold", accepts := isNumber },
    { long := "no-addressdetails", arity := .switch },
    { long := "extratags", arity := .switch },
    { long := "namedetails", arity := .switch }] ++ commonOptions

/-- The number that an option gives. -/
def number? (given : Given) (long : String) : Option Float :=
  (given.lookup long).bind fun value => (Decimal.readFloat value).toOption

/-- The request that options make; they have to give a coordinate. -/
def requestOf? (given : Given) : Option (Request Float) := do
  let lat ← number? given "lat"
  let lon ← number? given "lon"
  let format := (given.lookup "polygon-output").bind fun value =>
    (GeometryFormat.ofName value).toOption
  some {
    lat := lat
    lon := lon
    zoom := ((given.lookup "zoom").bind zoom?).getD ZoomTable.maxZoom
    languages := Language.parse ((given.lookup "lang").getD "")
    format := format.getD .none
    tolerance := (number? given "polygon-threshold").getD 0
    addressDetails := (given.lookup "no-addressdetails").isNone
    extraTags := (given.lookup "extratags").isSome
    nameDetails := (given.lookup "namedetails").isSome }

/-- Read the options of a command.  What they say about files goes before what was said in
front of the command. -/
def readTask (before : Given) (options : List OptionForm) (task? : Given → Option Task)
    (words : List String) : Reading :=
  match readWords options [] none [] words with
  | some (_, .help) => .help
  | some (given, .finished) =>
    match task? given with
    | some task =>
      .run ⟨given.lookup "config" <|> before.lookup "config",
        given.lookup "snapshot" <|> before.lookup "snapshot", task⟩
    | none => .misused
  | _ => .misused

/-- The commands that help can be asked for. -/
def helpTopics : List String := ["serve", "reverse", "help"]

/-- Read the words of a command line. -/
def read (words : List String) : Reading :=
  match readWords commonOptions ["serve", "reverse", "help"] none [] words with
  | some (_, .help) => .help
  | some (given, .command "serve" rest) =>
    readTask given serveOptions (fun given => some (.serve (given.lookup "listen"))) rest
  | some (given, .command "reverse" rest) =>
    readTask given reverseOptions (fun given => (requestOf? given).map .reverse) rest
  | some (_, .command "help" []) => .help
  | some (_, .command "help" [topic]) => if topic ∈ helpTopics then .help else .misused
  | _ => .misused

/-- How a run ends. -/
inductive Outcome where
  | printed (text : String)
  | failed (message : String)
  /-- The service is to be started at an address. -/
  | served (endpoint : String) (geocoder : Geocoder Float) (hierarchy : Hierarchy)
  | help
  | misused

/-- What is printed for the result of a lookup. -/
def outcomeOf : Except (Failure Float) (Answer Float) → Outcome
  | .ok answer => .printed (Json.spread answer.toValue)
  | .error .noCoverage => .printed (Json.spread Web.noCoverageValue)
  | .error failure => .failed failure.message

/-- Do with a geocoder what a command line asks for. -/
def perform (settings : Settings) (geocoder : Geocoder Float) : Task → Outcome
  | .reverse request => outcomeOf (geocoder.resolve request)
  | .serve endpoint =>
    let endpoint := endpoint.getD settings.server.listen
    if Web.Endpoint.isValid endpoint then
      .served endpoint geocoder (geocoder.hierarchy settings.lookup.chainCacheSize)
    else .failed "Invalid listen address"

/-- The geocoder over the snapshot in a file. -/
def geocoderOf? (settings : Settings) (file : SnapshotFile) : Option (Geocoder Float) := do
  let (store, _) ← (Snapshot.load file).toOption
  (Geocoder.ofSettings store settings.lookup).toOption

/-- How files are read. -/
structure Files (m : Type → Type) where
  /-- The text of a settings file, if it can be read. -/
  settings : String → m (Option String)
  snapshot : String → m SnapshotFile

/-- Do what a command line asks for. -/
def invoke {m : Type → Type} [Monad m] (files : Files m) (invocation : Invocation) :
    m Outcome := do
  let file ← invocation.settings.mapM files.settings
  match Settings.ofFile file with
  | .error fault => return .failed fault.message
  | .ok settings =>
    let path := invocation.snapshot.getD settings.server.snapshot
    match geocoderOf? settings (← files.snapshot path) with
    | none => return .failed ("Failed to load snapshot " ++ path)
    | some geocoder => return perform settings geocoder invocation.task

/-- Run a command line. -/
def run {m : Type → Type} [Monad m] (files : Files m) (words : List String) : m Outcome :=
  match read words with
  | .misused => return .misused
  | .help => return .help
  | .run invocation => invoke files invocation

end Gazetteer.Command
