import Gazetteer.Json.Token

/-!
# Reading JSON

A text is read as one value with nothing but white space around it.  The tokens are taken
one by one; the arrays and objects that are still open form a stack, so that a text may be
nested to any depth.

Nothing but the grammar decides whether a text can be read.  A text without content and a
number without value become a value without meaning, and so does an object with a name
without content: whoever needs such a value fails, and whoever passes over it does not.
-/

namespace Gazetteer.Json

open Gazetteer.Data (Value)

/-- An array or an object that is still open, with its parts so far, the last one first.  In
an object, `sound` says whether all names have content, and `name` is the last of them. -/
inductive Frame where
  | array (reversed : List Value)
  | object (sound : Bool) (reversed : List (String × Value)) (name : String)

/-- What has to come next. -/
inductive Awaited where
  | value
  | valueOrEnd
  | name
  | nameOrEnd
  | colon
  | commaOrEnd
  | nothing (value : Value)

/-- A text that has been read in part: what is open, the innermost first, and what has to
come next. -/
structure Progress where
  frames : List Frame
  awaited : Awaited

namespace Progress

/-- A value is complete and becomes part of what is open. -/
def complete (value : Value) : List Frame → Progress
  | [] => ⟨[], .nothing value⟩
  | .array reversed :: frames => ⟨.array (value :: reversed) :: frames, .commaOrEnd⟩
  | .object sound reversed name :: frames =>
    ⟨.object sound ((name, value) :: reversed) "" :: frames, .commaOrEnd⟩

/-- A token that begins a value. -/
def value? (frames : List Frame) : Token → Option Progress
  | .word value => some (complete value frames)
  | .text (some content) => some (complete (.text content) frames)
  | .text none => some (complete .meaningless frames)
  | .openArray => some ⟨.array [] :: frames, .valueOrEnd⟩
  | .openObject => some ⟨.object true [] "" :: frames, .nameOrEnd⟩
  | _ => none

/-- A token that names a member. -/
def name? : List Frame → Token → Option Progress
  | .object sound reversed _ :: frames, .text content =>
    some ⟨.object (sound && content.isSome) reversed (content.getD "") :: frames, .colon⟩
  | _, _ => none

/-- A token that closes what is open. -/
def close? : List Frame → Token → Option Progress
  | .array reversed :: frames, .closeArray => some (complete (.array reversed.reverse) frames)
  | .object sound reversed _ :: frames, .closeObject =>
    some (complete (if sound then .object reversed.reverse else .meaningless) frames)
  | _, _ => none

/-- A comma, behind which the next part follows. -/
def comma? : List Frame → Token → Option Progress
  | .array reversed :: frames, .comma => some ⟨.array reversed :: frames, .value⟩
  | .object sound reversed name :: frames, .comma =>
    some ⟨.object sound reversed name :: frames, .name⟩
  | _, _ => none

/-- The next token. -/
def step? (progress : Progress) (token : Token) : Option Progress :=
  let frames := progress.frames
  match progress.awaited, token with
  | .value, token => value? frames token
  | .valueOrEnd, token => value? frames token <|> close? frames token
  | .name, token => name? frames token
  | .nameOrEnd, token => name? frames token <|> close? frames token
  | .colon, .colon => some ⟨frames, .value⟩
  | .commaOrEnd, token => comma? frames token <|> close? frames token
  | _, _ => none

/-- The value that has been read, if it is complete. -/
def value : Progress → Option Value
  | ⟨_, .nothing value⟩ => some value
  | _ => none

end Progress

/-- Read a whole text as one value. -/
def read? (text : String) : Option Value := do
  let tokens ← tokens? text.toList
  (← tokens.foldlM Progress.step? ⟨[], .value⟩).value

end Gazetteer.Json
