import Gazetteer.Decimal.Binary

/-!
# Values of a data document

The values that a document in one of the two data notations holds, snapshots being in
one and settings in the other, and how typed data is taken out of them.  Whole numbers
and real numbers are told apart: a whole number may stand for a real one, never the
reverse.
-/

namespace Gazetteer.Data

/-- A value of a data document.  The members of an object keep their order and may repeat
a name.  A document can hold what has no meaning, such as a number out of range; that can be
passed over but not read as anything. -/
inductive Value where
  | null
  | meaningless
  | truth (value : Bool)
  | integer (value : Int)
  | real (value : Float)
  | text (value : String)
  | array (items : List Value)
  | object (members : List (String × Value))

namespace Value

/-- The text that a value holds. -/
def text? : Value → Option String
  | .text value => some value
  | _ => none

/-- A whole number between two bounds. -/
def integer? (least greatest : Int) : Value → Option Int
  | .integer value => if least ≤ value ∧ value ≤ greatest then some value else none
  | _ => none

/-- A natural number below `bound`. -/
def natural? (bound : Nat) : Value → Option Nat
  | .integer (.ofNat value) => if value < bound then some value else none
  | _ => none

/-- The binary64 number nearest to a whole number. -/
def floatOfInt (value : Int) : Float :=
  Decimal.ofPattern (value < 0) (Decimal.binary64.nearest value.natAbs 1)

/-- A real number; a whole number is taken as the real one nearest to it. -/
def real? : Value → Option Float
  | .real value => some value
  | .integer value => some (floatOfInt value)
  | _ => none

/-- The items of an array, each read by `decode`. -/
def listOf? {α : Type} (decode : Value → Option α) : Value → Option (List α)
  | .array items => items.mapM decode
  | _ => none

/-- What `decode` makes of a value, `null` standing for nothing. -/
def optional? {α : Type} (decode : Value → Option α) : Value → Option (Option α)
  | .null => some none
  | value => (decode value).map some

/-- One of several names: the name itself, or an object with the name as its only key and
`null` behind it. -/
def choice? : Value → Option String
  | .text name => some name
  | .object [(name, .null)] => some name
  | _ => none

/-- The value of a named member: nothing when there is none, a refusal when there are two. -/
def member? (name : String) (members : List (String × Value)) : Option (Option Value) :=
  match members.filter fun member => member.1 = name with
  | [] => some none
  | [member] => some (some member.2)
  | _ => none

/-- Whether a value can be kept for later: it has meaning in all its parts, and at most
`levels` arrays and objects stand inside each other. -/
def isKeepable : (levels : Nat) → Value → Bool
  | _, .meaningless => false
  | 0, .array _ => false
  | 0, .object _ => false
  | levels + 1, .array items => items.all (isKeepable levels)
  | levels + 1, .object members => members.all fun member => isKeepable levels member.2
  | _, _ => true

/-- Whether a value is an object in which a member of one name comes before those of
another. -/
def putsFirst (first second : String) : Value → Bool
  | .object members =>
    (members.find? fun member => member.1 = first || member.1 = second).any fun member =>
      member.1 = first
  | _ => false

/-- What becomes of the items of an array beyond the fields of a record. -/
inductive Surplus where
  | refused
  | passedOver
deriving DecidableEq, Repr

/-- The fields of a record, in the order of their `names`.  A record is an object, of which
members with other names are passed over, or an array of the first fields in order. -/
def fields? (surplus : Surplus) (names : List String) : Value → Option (List (Option Value))
  | .object members => names.mapM fun name => member? name members
  | .array items =>
    if surplus = .refused ∧ names.length < items.length then none
    else
      some ((items.take names.length).map some ++
        List.replicate (names.length - items.length) none)
  | _ => none

/-- The fields of a record of which no array may be longer. -/
def record? (names : List String) (value : Value) : Option (List (Option Value)) :=
  value.fields? .refused names

/-- A record of which only objects are accepted. -/
def table? : Value → Option (List (String × Value))
  | .object members => some members
  | _ => none

end Value

/-- A field that has to be there. -/
def required {α : Type} (decode : Value → Option α) (field : Option Value) : Option α :=
  field.bind decode

/-- A field that may be left out for a default. -/
def optional {α : Type} (default : α) (decode : Value → Option α) : Option Value → Option α
  | none => some default
  | some value => decode value

end Gazetteer.Data
