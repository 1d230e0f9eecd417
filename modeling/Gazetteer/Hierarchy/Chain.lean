import Gazetteer.Store

/-!
# Chains

The chain of a place is the place itself and the wider places around it, from the most
detailed to the most general.  It is climbed through the parents: the next level is the
tightest place below the present rank among the parents of all levels so far.  Ranks
fall strictly along a chain.
-/

namespace Gazetteer

/-- One level of a chain. -/
structure ChainEntry where
  id : PlaceId
  rank : Rank
deriving DecidableEq, Repr

/-- A place and the wider places around it, most detailed first. -/
structure Chain where
  entries : List ChainEntry
  /-- Whether the climb stopped at the length limit and not at the top. -/
  truncated : Bool
deriving DecidableEq, Repr

namespace Place

variable {K : Type}

/-- The level of a place in a chain. -/
def entry (place : Place K) : ChainEntry :=
  ⟨place.id, place.addressRank⟩

end Place

namespace Chain

variable {K : Type}

/-- The next level above a rank: the foremost place among `pool` whose rank is below it,
places that are in no address left out. -/
def next? (store : Store K) (pool : List PlaceId) (rank : Rank) : Option (Place K) :=
  Place.foremost? ((pool.filterMap store.get?).filter fun place =>
    0 < place.addressRank && place.addressRank < rank)

/-- The next level is strictly above, that is, of a lower rank. -/
theorem rank_lt_of_next? {store : Store K} {pool : List PlaceId} {rank : Rank} {place : Place K}
    (found : next? store pool rank = some place) : place.addressRank < rank := by
  have member := Place.mem_of_foremost? found
  simp only [List.mem_filter, Bool.and_eq_true, decide_eq_true_eq] at member
  exact member.2.2

/-- Climb on from a rank.  `visited` are the levels so far, `pool` their parents; the climb
stops at `limit` levels, or where it would come to a level for a second time. -/
def climb (store : Store K) (limit : Nat) (visited pool : List PlaceId) (rank : Rank) : Chain :=
  match _found : next? store pool rank with
  | none => ⟨[], false⟩
  | some place =>
    if limit ≤ visited.length || visited.contains place.id then ⟨[], true⟩
    else
      let above := climb store limit (place.id :: visited) (pool ++ place.parents) place.addressRank
      ⟨place.entry :: above.entries, above.truncated⟩
termination_by rank.toNat
decreasing_by exact UInt8.lt_iff_toNat_lt.1 (rank_lt_of_next? _found)

/-- The chain of a place, with at most `limit` levels; there is always the place itself. -/
def build (store : Store K) (start : Place K) (limit : Nat) : Chain :=
  let above := climb store limit [start.id] start.parents start.addressRank
  ⟨start.entry :: above.entries, above.truncated⟩

/-- The places of a chain. -/
def ids (chain : Chain) : List PlaceId :=
  chain.entries.map ChainEntry.id

end Chain

end Gazetteer
