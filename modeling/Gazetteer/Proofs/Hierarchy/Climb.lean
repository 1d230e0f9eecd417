import Gazetteer.Hierarchy.Chain
import Gazetteer.Proofs.Preference
import Gazetteer.Proofs.Store

/-!
# Climbing a chain

What one step of a climb finds, and what holds after any number of steps.  The invariant
`Climbing` ties the visited numbers and the pool to the levels of the chain so far.  With it
a climb never comes to a level for a second time, and since every step goes to a lower rank
a limit is never reached that leaves room for all ranks below the first.
-/

namespace Gazetteer

namespace Chain

variable {K : Type}

/-! ## One step -/

/-- A place that the next level may be: one of the pool that is in an address and below a
rank. -/
structure IsAbove (store : Store K) (pool : List PlaceId) (rank : Rank) (place : Place K) :
    Prop where
  stored : store.get? place.id = some place
  listed : place.id ∈ pool
  positive : 0 < place.addressRank
  below : place.addressRank < rank

theorem mem_levels_iff {store : Store K} {pool : List PlaceId} {rank : Rank} {place : Place K} :
    place ∈ ((pool.filterMap store.get?).filter fun place =>
      0 < place.addressRank && place.addressRank < rank) ↔ IsAbove store pool rank place := by
  simp only [List.mem_filter, List.mem_filterMap, Bool.and_eq_true, decide_eq_true_eq]
  constructor
  · rintro ⟨⟨id, listed, found⟩, positive, below⟩
    obtain rfl := Store.id_of_get? found
    exact ⟨found, listed, positive, below⟩
  · intro above
    exact ⟨⟨place.id, above.listed, above.stored⟩, above.positive, above.below⟩

theorem next?_eq_none_iff {store : Store K} {pool : List PlaceId} {rank : Rank} :
    next? store pool rank = none ↔ ∀ place, ¬ IsAbove store pool rank place := by
  rw [next?, Place.foremost?_eq_none_iff, List.eq_nil_iff_forall_not_mem]
  exact forall_congr' fun place => not_congr mem_levels_iff

/-- The next level is a place above, and no other place above precedes it. -/
theorem isAbove_of_next? {store : Store K} {pool : List PlaceId} {rank : Rank} {place : Place K}
    (found : next? store pool rank = some place) : IsAbove store pool rank place :=
  mem_levels_iff.mp (Place.mem_of_foremost? found)

theorem precedes_next?_eq_false {store : Store K} {pool : List PlaceId} {rank : Rank}
    {place other : Place K} (found : next? store pool rank = some place)
    (above : IsAbove store pool rank other) : other.precedes place = false :=
  Place.precedes_foremost?_eq_false found (mem_levels_iff.mpr above)

/-- Without a next level the climb is at the top. -/
theorem climb_of_next?_eq_none {store : Store K} {pool : List PlaceId} {rank : Rank}
    (top : next? store pool rank = none) (limit : Nat) (visited : List PlaceId) :
    climb store limit visited pool rank = ⟨[], false⟩ := by
  rw [climb]
  split
  · rfl
  · rename_i found
    rw [top] at found
    contradiction

/-- With a next level the climb stops short of it or goes on from it. -/
theorem climb_of_next?_eq_some {store : Store K} {pool : List PlaceId} {rank : Rank}
    {place : Place K} (next : next? store pool rank = some place) (limit : Nat)
    (visited : List PlaceId) :
    climb store limit visited pool rank =
      if limit ≤ visited.length || visited.contains place.id then ⟨[], true⟩
      else
        let above :=
          climb store limit (place.id :: visited) (pool ++ place.parents) place.addressRank
        ⟨place.entry :: above.entries, above.truncated⟩ := by
  rw [climb]
  split
  · rename_i found
    rw [next] at found
    contradiction
  · rename_i found
    obtain rfl := Option.some.inj (next.symm.trans found)
    rfl

/-! ## All steps -/

/-- Every level that is climbed to is in an address and below the rank it is climbed from. -/
theorem rank_of_mem_climb {store : Store K} {limit : Nat} {visited pool : List PlaceId}
    {rank : Rank} {entry : ChainEntry}
    (member : entry ∈ (climb store limit visited pool rank).entries) :
    0 < entry.rank ∧ entry.rank < rank := by
  fun_induction climb store limit visited pool rank with
  | case1 => simp at member
  | case2 => simp at member
  | case3 visited pool rank place found _ above ih =>
      have here := isAbove_of_next? found
      rcases List.mem_cons.mp member with rfl | later
      · exact ⟨here.positive, here.below⟩
      · obtain ⟨positive, below⟩ := ih later
        exact ⟨positive, UInt8.lt_trans below here.below⟩

/-- Ranks fall strictly along a climb. -/
theorem pairwise_climb (store : Store K) (limit : Nat) (visited pool : List PlaceId)
    (rank : Rank) :
    (climb store limit visited pool rank).entries.Pairwise fun lower upper =>
      upper.rank < lower.rank := by
  fun_induction climb store limit visited pool rank with
  | case1 => exact List.Pairwise.nil
  | case2 => exact List.Pairwise.nil
  | case3 visited pool rank place found _ above ih =>
      exact List.pairwise_cons.mpr ⟨fun _ later => (rank_of_mem_climb later).2, ih⟩

/-- Every level that is climbed to is the entry of a stored place. -/
theorem stored_of_mem_climb {store : Store K} {limit : Nat} {visited pool : List PlaceId}
    {rank : Rank} {entry : ChainEntry}
    (member : entry ∈ (climb store limit visited pool rank).entries) :
    ∃ place, store.get? entry.id = some place ∧ place.entry = entry := by
  fun_induction climb store limit visited pool rank with
  | case1 => simp at member
  | case2 => simp at member
  | case3 visited pool rank place found _ above ih =>
      rcases List.mem_cons.mp member with rfl | later
      · exact ⟨place, (isAbove_of_next? found).stored, rfl⟩
      · exact ih later

/-- Ranks fall strictly along a chain. -/
theorem pairwise_build (store : Store K) (start : Place K) (limit : Nat) :
    (build store start limit).entries.Pairwise fun lower upper => upper.rank < lower.rank :=
  List.pairwise_cons.mpr
    ⟨fun _ later => (rank_of_mem_climb later).2, pairwise_climb store limit _ _ _⟩

/-- Every level of the chain of a stored place is the entry of a stored place. -/
theorem stored_of_mem_build {store : Store K} {start : Place K}
    (stored : store.get? start.id = some start) {limit : Nat} {entry : ChainEntry}
    (member : entry ∈ (build store start limit).entries) :
    ∃ place, store.get? entry.id = some place ∧ place.entry = entry := by
  rcases List.mem_cons.mp member with rfl | later
  · exact ⟨start, stored, rfl⟩
  · exact stored_of_mem_climb later

/-! ## The invariant -/

/-- What holds on the way up, after the levels `levels`: they are stored places of at least
the present rank, the visited numbers are theirs, and the pool holds just their parents. -/
structure Climbing (store : Store K) (levels : List ChainEntry) (visited pool : List PlaceId)
    (rank : Rank) : Prop where
  visited_eq : visited = (levels.map ChainEntry.id).reverse
  stored : ∀ level ∈ levels, ∃ place, store.get? level.id = some place ∧ place.entry = level
  detailed : ∀ level ∈ levels, rank ≤ level.rank
  mem_pool_iff : ∀ id, id ∈ pool ↔
    ∃ level ∈ levels, ∃ child, store.get? level.id = some child ∧ id ∈ child.parents
  short : levels.length + rank.toNat ≤ 256

namespace Climbing

variable {store : Store K} {levels : List ChainEntry} {visited pool : List PlaceId}
  {rank : Rank}

/-- A climb starts with one level. -/
theorem initial {start : Place K} (stored : store.get? start.id = some start) :
    Climbing store [start.entry] [start.id] start.parents start.addressRank where
  visited_eq := rfl
  stored := by
    intro level member
    obtain rfl := List.mem_singleton.mp member
    exact ⟨start, stored, rfl⟩
  detailed := by
    intro level member
    obtain rfl := List.mem_singleton.mp member
    exact UInt8.le_refl _
  mem_pool_iff := by
    intro id
    simp [Place.entry, stored]
  short := by
    have bound := start.addressRank.toNat_lt
    rw [List.length_singleton]
    exact Nat.add_comm _ _ ▸ bound

/-- A step adds a level and its parents. -/
theorem step (climbing : Climbing store levels visited pool rank) {place : Place K}
    (found : next? store pool rank = some place) :
    Climbing store (levels ++ [place.entry]) (place.id :: visited) (pool ++ place.parents)
      place.addressRank := by
  have above := isAbove_of_next? found
  constructor
  · rw [climbing.visited_eq, List.map_append, List.reverse_append]
    rfl
  · intro level member
    rcases List.mem_append.mp member with earlier | last
    · exact climbing.stored level earlier
    · obtain rfl := List.mem_singleton.mp last
      exact ⟨place, above.stored, rfl⟩
  · intro level member
    rcases List.mem_append.mp member with earlier | last
    · exact UInt8.le_trans (UInt8.le_of_lt above.below) (climbing.detailed level earlier)
    · obtain rfl := List.mem_singleton.mp last
      exact UInt8.le_refl _
  · intro id
    have own : (∃ child, store.get? place.entry.id = some child ∧ id ∈ child.parents) ↔
        id ∈ place.parents := by
      simp [Place.entry, above.stored]
    simp only [List.mem_append, List.mem_singleton, or_and_right, exists_or, exists_eq_left,
      climbing.mem_pool_iff, own]
  · have lower := UInt8.lt_iff_toNat_lt.mp above.below
    have short := climbing.short
    simp only [List.length_append, List.length_singleton]
    omega

/-- The next level has not been visited, because every visited one is more detailed. -/
theorem not_mem_visited (climbing : Climbing store levels visited pool rank) {place : Place K}
    (found : next? store pool rank = some place) : place.id ∉ visited := by
  intro again
  rw [climbing.visited_eq, List.mem_reverse, List.mem_map] at again
  obtain ⟨level, member, same⟩ := again
  obtain ⟨earlier, stored, rfl⟩ := climbing.stored level member
  have above := isAbove_of_next? found
  rw [same, above.stored] at stored
  obtain rfl := Option.some.inj stored
  exact UInt8.not_lt.mpr (climbing.detailed _ member) above.below

/-- With room for a level of every rank below the present one, a climb goes on for as long as
there is a next level. -/
theorem not_stopped_of_room (climbing : Climbing store levels visited pool rank) {limit : Nat}
    (room : visited.length + rank.toNat ≤ limit + 1) {place : Place K}
    (found : next? store pool rank = some place) :
    ¬ (limit ≤ visited.length || visited.contains place.id) = true := by
  have above := isAbove_of_next? found
  have positive := UInt8.lt_iff_toNat_lt.mp above.positive
  have lower := UInt8.lt_iff_toNat_lt.mp above.below
  have fresh := climbing.not_mem_visited found
  simp only [Bool.or_eq_true, decide_eq_true_eq, List.contains_iff_mem, not_or]
  exact ⟨by omega, fresh⟩

/-- With 256 levels allowed there is always room. -/
theorem room (climbing : Climbing store levels visited pool rank) {limit : Nat}
    (long : 256 ≤ limit) : visited.length + rank.toNat ≤ limit + 1 := by
  have short := climbing.short
  have size : visited.length = levels.length := by simp [climbing.visited_eq]
  omega

/-- With room for all ranks below, a climb reaches the top. -/
theorem not_truncated_of_room (climbing : Climbing store levels visited pool rank) {limit : Nat}
    (room : visited.length + rank.toNat ≤ limit + 1) :
    (climb store limit visited pool rank).truncated = false := by
  induction visited, pool, rank using climb.induct store limit generalizing levels with
  | case1 visited pool rank top =>
      rw [climb_of_next?_eq_none top]
  | case2 visited pool rank next found stopped =>
      exact absurd stopped (climbing.not_stopped_of_room room found)
  | case3 visited pool rank next found goesOn ih =>
      rw [climb_of_next?_eq_some found, if_neg goesOn]
      apply ih (climbing.step found)
      have lower := UInt8.lt_iff_toNat_lt.mp (rank_lt_of_next? found)
      rw [List.length_cons]
      omega

end Climbing

/-- The chain of a stored place reaches the top if there may be as many levels as its rank
says. -/
theorem build_not_truncated {store : Store K} {start : Place K} {limit : Nat}
    (stored : store.get? start.id = some start) (long : start.addressRank.toNat ≤ limit) :
    (build store start limit).truncated = false := by
  apply (Climbing.initial stored).not_truncated_of_room
  rw [List.length_singleton]
  omega

end Chain

end Gazetteer
