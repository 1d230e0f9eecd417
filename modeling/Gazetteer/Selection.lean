import Gazetteer.Spatial

/-!
# Selecting the nearest suitable place

An answer describes the nearest place that is suitable, which need not be the nearest
place: an unnamed path right under the point gives way to the house beside it.  Places
that are practically at one distance are told apart by rank and number.
-/

namespace Gazetteer

/-- Which places are suitable. -/
structure Suitability where
  minRank : Rank
  excluded : List String
deriving Repr

namespace Suitability

variable {K : Type}

/-- A suitable place has both ranks, is detailed enough, and falls under no excluded
pattern. -/
def isEligible (suitability : Suitability) (place : Place K) : Bool :=
  place.searchRank != 0 && place.addressRank != 0 && suitability.minRank ≤ place.searchRank &&
    !suitability.excluded.any place.fallsUnder

end Suitability

namespace Candidate

variable {K : Type} [Scalar K]

/-- Candidates whose distances differ by no more than this are at one distance. -/
def tieBand : K := 1e-12

/-- Whether a candidate lies beyond all that could still tie with another. -/
def isBeyond (candidate best : Candidate K) : Bool :=
  best.distance + tieBand < candidate.distance

/-- Go through candidates in ascending distance with the best one so far.  It ends at the
first candidate beyond the best; a later one only takes over if its place precedes. -/
def selectFrom (eligible : Place K → Bool) :
    (best : Option (Candidate K)) → List (Candidate K) → Option (Candidate K)
  | best, [] => best
  | none, candidate :: rest =>
    selectFrom eligible (if eligible candidate.place then some candidate else none) rest
  | some best, candidate :: rest =>
    if candidate.isBeyond best then some best
    else if eligible candidate.place && candidate.place.precedes best.place then
      selectFrom eligible (some candidate) rest
    else selectFrom eligible (some best) rest

/-- The nearest suitable candidate. -/
def select (suitability : Suitability) (candidates : List (Candidate K)) :
    Option (Candidate K) :=
  selectFrom suitability.isEligible none candidates

end Candidate

end Gazetteer
