import Gazetteer.Text.Blank
import Gazetteer.Text.Pieces
import Gazetteer.Decimal.Reading

/-!
# Preferred languages

A header such as `de, en;q=0.8` names languages with weights.  Languages without a weight
that counts are left out, the others follow by falling weight; behind them come the base
languages of regional codes, `en` for `en-gb`, unless they are named themselves.
-/

namespace Gazetteer.Language

/-- A language code with its weight: the pattern of a positive single-precision number, so
that weights compare as their patterns do. -/
structure Weighted where
  code : String
  weight : Nat
deriving DecidableEq, Repr

/-- The weight of a language that is named without one. -/
def fullWeight : Nat := Decimal.binary32.nearest 1 1

/-- A code in its one spelling: small letters, and hyphens for underscores. -/
def normalize (code : List Char) : String :=
  String.ofList ((Text.trimChars code).map fun c => if c.toLower = '_' then '-' else c.toLower)

/-- What a parameter `q=…` says about the weight: nothing if it is no number. -/
def weightParameter? (parameter : List Char) : Option Decimal.Reading := do
  let value ← Text.after? ['q', '='] (Text.trimChars parameter)
  (Decimal.binary32.read (String.ofList (Text.trimChars value))).toOption

/-- A weight that counts: a positive number, possibly infinite. -/
def positive? : Decimal.Reading → Option Nat
  | .magnitude false pattern => if 0 < pattern then some pattern else none
  | _ => none

/-- The weight that the parameters behind a code give it.  The first parameter that can be
read decides, and without one the weight is full. -/
def weight? (parameters : List (List Char)) : Option Nat :=
  match parameters.findSome? weightParameter? with
  | some reading => positive? reading
  | none => some fullWeight

/-- One entry of a header; nothing for a blank code, the wildcard, and a weight that does
not count. -/
def weighted? (part : List Char) : Option Weighted :=
  match Text.pieces ';' part with
  | [] => none
  | code :: parameters =>
    let code := normalize code
    if code = "" ∨ code = "*" then none
    else (weight? parameters).map fun weight => ⟨code, weight⟩

/-- The entries of a header by falling weight, those of one weight in their order. -/
def ranked (header : String) : List Weighted :=
  ((Text.pieces ',' header.toList).filterMap weighted?).mergeSort fun first second =>
    second.weight ≤ first.weight

/-- The language that a regional code belongs to: what is before the first hyphen. -/
def base? (code : String) : Option String :=
  (Text.cut? '-' code.toList).map fun parts => String.ofList parts.1

/-- Codes behind those that are already there, each only once. -/
def appendNew (codes : List String) : List String → List String
  | [] => codes
  | code :: rest =>
    if codes.contains code then appendNew codes rest else appendNew (codes ++ [code]) rest

/-- The languages of a header, most preferred first. -/
def parse (header : String) : List String :=
  let codes := (ranked header).map Weighted.code
  appendNew (appendNew [] codes) (codes.filterMap base?)

end Gazetteer.Language
