import Gazetteer.Answer.Encoding
import Gazetteer.Geocoder
import Gazetteer.Json.Writer
import Gazetteer.Plane.Binary64
import Gazetteer.Web.Query

/-!
# Replies

What the service says to a query.  That nothing is known about a coordinate is an ordinary
reply; a request that makes no sense and a failure of the service are told apart by the
status.
-/

namespace Gazetteer.Web

open Data (Value)

/-- What is sent back: data, or a plain text. -/
inductive Body where
  | data (value : Value)
  | text (message : String)

/-- A status with a body. -/
structure Reply where
  status : Nat
  body : Body

/-- A message as data. -/
def errorValue (message : String) : Value :=
  .object [("error", .text message)]

/-- The data for a coordinate that nothing is known about. -/
def noCoverageValue : Value :=
  errorValue "Unable to geocode"

namespace Reply

/-- The reply to a failure. -/
def ofFailure (failure : Failure Float) : Reply :=
  match failure with
  | .noCoverage => ⟨200, .data noCoverageValue⟩
  | failure =>
    ⟨if failure.isBadRequest then 400 else 500, .data (errorValue failure.message)⟩

/-- The reply to a query that is refused. -/
def ofRefusal : QueryRefusal → Reply
  | .unreadable fault => ⟨400, .text fault.message⟩
  | .unanswerable failure => ofFailure failure

/-- The reply that carries an answer. -/
def ofResult : Except (Failure Float) (Answer Float) → Reply
  | .error failure => ofFailure failure
  | .ok answer => ⟨200, .data answer.toValue⟩

/-- That the service is up, and how many places it knows. -/
def health (geocoder : Geocoder Float) : Reply :=
  ⟨200, .data (.object [("status", .text "ok"), ("objects", .integer geocoder.store.size)])⟩

end Reply

/-- Reply to a query, with the help of remembered chains. -/
def reply (geocoder : Geocoder Float) (hierarchy : Hierarchy) (query : String)
    (header : Option String) : Reply × Hierarchy :=
  match requestOf query header with
  | .error refusal => (.ofRefusal refusal, hierarchy)
  | .ok request =>
    let (result, hierarchy) := geocoder.resolveWith hierarchy request
    (.ofResult result, hierarchy)

/-- The text of a body. -/
def Body.write : Body → String
  | .data value => Json.compact value
  | .text message => message

end Gazetteer.Web
