/-!
# Expansions

Sums, differences and products of binary64 numbers without loss.  What rounding takes away
from such a result is a binary64 number again, as long as nothing leaves the range of the
format, and it can be had from rounded operations alone.  An expansion is a list of numbers,
the smallest first, that stands for their exact sum; its last number tells the sign.
-/

namespace Gazetteer.Binary64

/-- A rounded result together with what rounding took away from it. -/
structure Rounded where
  value : Float
  error : Float

namespace Rounded

/-- The sum of two numbers. -/
def sum (a b : Float) : Rounded :=
  let value := a + b
  let fromB := value - a
  let fromA := value - fromB
  ⟨value, (a - fromA) + (b - fromB)⟩

/-- The difference of two numbers. -/
def difference (a b : Float) : Rounded :=
  let value := a - b
  let fromB := a - value
  let fromA := value + fromB
  ⟨value, (a - fromA) + (fromB - b)⟩

/-- A number as the sum of two of half as many digits, the greater first. -/
def halves (a : Float) : Float × Float :=
  let scaled := 134217729.0 * a
  let high := scaled - (scaled - a)
  (high, a - high)

/-- The product of two numbers. -/
def product (a b : Float) : Rounded :=
  let value := a * b
  let (aHigh, aLow) := halves a
  let (bHigh, bLow) := halves b
  let excess := value - aHigh * bHigh - aLow * bHigh - aHigh * bLow
  ⟨value, aLow * bLow - excess⟩

end Rounded

/-- Numbers, the smallest first, that stand for their exact sum. -/
abbrev Expansion : Type := List Float

namespace Expansion

/-- The difference of two rounded results, their errors included. -/
def ofDifference (a b : Rounded) : Expansion :=
  let lowest := Rounded.difference a.error b.error
  let upper := Rounded.sum a.value lowest.value
  let lower := Rounded.difference upper.error b.value
  let highest := Rounded.sum upper.value lower.value
  [lowest.error, lower.error, highest.error, highest.value]

/-- The numbers of two expansions in the order of their magnitudes. -/
def merge : Expansion → Expansion → Expansion
  | [], second => second
  | first, [] => first
  | a :: first, b :: second =>
    if (b > a) == (b > -a) then a :: merge first (b :: second)
    else b :: merge (a :: first) second

/-- Add numbers up in order of magnitude: the errors on the way, without zeros, and then the
rounded total. -/
def accumulate (total : Float) : List Float → Expansion
  | [] => if total == 0 then [] else [total]
  | next :: rest =>
    let sum := Rounded.sum total next
    if sum.error == 0 then accumulate sum.value rest
    else sum.error :: accumulate sum.value rest

/-- The sum of two expansions. -/
def add (first second : Expansion) : Expansion :=
  match merge first second with
  | [] => []
  | smallest :: rest => accumulate smallest rest

/-- The rounded sum, from the smallest number on. -/
def estimate (expansion : Expansion) : Float :=
  expansion.foldl (· + ·) 0

/-- The number that outweighs all others together, zero if there is none. -/
def leading (expansion : Expansion) : Float :=
  expansion.getLast?.getD 0

end Expansion

end Gazetteer.Binary64
