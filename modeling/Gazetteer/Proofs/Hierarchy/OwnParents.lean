import Gazetteer.Proofs.Hierarchy.Completeness

/-!
# Own parents and those of other levels

A place that lists a parent of a rank has a level of that rank in its chain.  The level need not
be one of its own parents: all levels above the rank offer theirs, and the smallest number wins
wherever it comes from.  So an own parent is displaced exactly if another level lists a place of
the same rank with a smaller number.
-/

namespace Gazetteer.Chain

variable {K : Type} {store : Store K} {start : Place K} {limit more : Nat} {rank : Rank}

/-- A stored place of a rank that a place lists as a parent itself. -/
structure IsOwnParent (store : Store K) (start : Place K) (rank : Rank) (parent : Place K) :
    Prop where
  stored : store.get? parent.id = some parent
  rank_eq : parent.addressRank = rank
  listed : parent.id ∈ start.parents

/-- A level offers a place of a rank that comes before all own parents of that rank. -/
structure Displaces (store : Store K) (levels : List ChainEntry) (start : Place K) (rank : Rank)
    (other : Place K) : Prop where
  offers : Offers store levels rank other
  before : ∀ parent, IsOwnParent store start rank parent → other.id < parent.id

/-! ## Limits that are not reached -/

/-- A climb that reaches the top goes the same way with more levels allowed. -/
theorem climb_eq_of_not_truncated {visited pool : List PlaceId}
    (complete : (climb store limit visited pool rank).truncated = false) (allowed : limit ≤ more) :
    climb store more visited pool rank = climb store limit visited pool rank := by
  induction visited, pool, rank using climb.induct store limit with
  | case1 visited pool rank top =>
      rw [climb_of_next?_eq_none top, climb_of_next?_eq_none top]
  | case2 visited pool rank next found stopped =>
      rw [climb_of_next?_eq_some found, if_pos stopped] at complete
      contradiction
  | case3 visited pool rank next found goesOn ih =>
      rw [climb_of_next?_eq_some found, if_neg goesOn] at complete
      have goesOnToo : ¬ (more ≤ visited.length || visited.contains next.id) = true := by
        simp only [Bool.or_eq_true, decide_eq_true_eq, not_or, Nat.not_le] at goesOn ⊢
        exact ⟨Nat.lt_of_lt_of_le goesOn.1 allowed, goesOn.2⟩
      rw [climb_of_next?_eq_some found, climb_of_next?_eq_some found, if_neg goesOn,
        if_neg goesOnToo, ih complete]

/-- A chain that reaches the top is complete, however few levels are allowed. -/
theorem completeAt_of_not_truncated (stored : store.get? start.id = some start)
    (complete : (build store start limit).truncated = false) (positive : 0 < rank)
    (below : rank < start.addressRank) :
    CompleteAt store (build store start limit).entries rank := by
  have same := climb_eq_of_not_truncated complete (Nat.le_max_left limit 256)
  have all := (Climbing.initial stored).completeAt (Nat.le_max_right limit 256) positive below
  rwa [same] at all

/-! ## Own parents -/

/-- What a place lists itself is offered by the first level of its chain. -/
theorem IsOwnParent.offers (stored : store.get? start.id = some start)
    (below : rank < start.addressRank) {parent : Place K}
    (own : IsOwnParent store start rank parent) :
    Offers store (build store start limit).entries rank parent where
  stored := own.stored
  rank_eq := own.rank_eq
  listed := ⟨start.entry, List.mem_cons_self, below, start, stored, own.listed⟩

/-- The chain of a place that lists a parent of a rank has a level of that rank, which is one of
its own parents exactly if no level offers a place of that rank before them. -/
theorem mem_parents_iff_not_displaced (store : Store K) (start : Place K)
    (member : start ∈ store.toList) (limit : Nat)
    (complete : (build store start limit).truncated = false) (rank : Rank) (positive : 0 < rank)
    (below : rank < start.addressRank) (own : ∃ parent, IsOwnParent store start rank parent) :
    (∃ level ∈ (build store start limit).entries, level.rank = rank) ∧
      ∀ level ∈ (build store start limit).entries, level.rank = rank →
        (level.id ∈ start.parents ↔
          ¬ ∃ other, Displaces store (build store start limit).entries start rank other) := by
  have stored := Store.get?_id_of_mem member
  have all := completeAt_of_not_truncated stored complete positive below
  constructor
  · obtain ⟨parent, isOwn⟩ := own
    exact all.exists_iff.mpr ⟨parent, isOwn.offers stored below⟩
  · intro level isLevel same
    obtain ⟨place, offer, rfl, least⟩ := all.least level isLevel same
    constructor
    · rintro listed ⟨other, displaces⟩
      have before := displaces.before place ⟨offer.stored, offer.rank_eq, listed⟩
      exact absurd before (UInt32.not_lt.mpr (least other displaces.offers))
    · intro notDisplaced
      by_contra notListed
      refine notDisplaced ⟨place, offer, fun parent isOwn => ?_⟩
      have differ : place.id ≠ parent.id := by
        intro sameId
        apply notListed
        rw [Place.entry, sameId]
        exact isOwn.listed
      exact UInt32.lt_of_le_of_ne (least parent (isOwn.offers stored below)) differ

/-! ## A house between two suburbs -/

/-- A house that lists the suburb with the smaller number, on a street that lists the other. -/
def houseAhead : Store Float :=
  ⟨#[.pin 0 30 [1, 2], .pin 1 26 [3], .pin 2 20 [], .pin 3 20 []], rfl⟩

/-- A house that lists the suburb with the greater number, on a street that lists the other. -/
def streetAhead : Store Float :=
  ⟨#[.pin 0 30 [1, 3], .pin 1 26 [2], .pin 2 20 [], .pin 3 20 []], rfl⟩

theorem mem_parents_iff_not_displaced_houseAhead :
    Place.pin 0 30 [1, 2] ∈ houseAhead.toList ∧
      build houseAhead (.pin 0 30 [1, 2]) 32 = ⟨[⟨0, 30⟩, ⟨1, 26⟩, ⟨2, 20⟩], false⟩ ∧
      IsOwnParent houseAhead (.pin 0 30 [1, 2]) 20 (.pin 2 20 []) ∧
      ¬ ∃ other, Displaces houseAhead (build houseAhead (.pin 0 30 [1, 2]) 32).entries
        (.pin 0 30 [1, 2]) 20 other := by
  have member : Place.pin 0 30 [1, 2] ∈ houseAhead.toList := List.mem_cons_self
  have climbed : build houseAhead (.pin 0 30 [1, 2]) 32 =
      ⟨[⟨0, 30⟩, ⟨1, 26⟩, ⟨2, 20⟩], false⟩ := by decide +kernel
  have own : IsOwnParent houseAhead (.pin 0 30 [1, 2]) 20 (.pin 2 20 []) :=
    ⟨rfl, rfl, by decide⟩
  obtain ⟨_, kept⟩ := mem_parents_iff_not_displaced houseAhead (.pin 0 30 [1, 2]) member 32
    (by rw [climbed]) 20 (by decide) (by decide) ⟨_, own⟩
  refine ⟨member, climbed, own, (kept ⟨2, 20⟩ ?_ rfl).mp (by decide)⟩
  rw [climbed]
  decide

/-- The street's suburb takes the place of the one that the house itself lists. -/
theorem not_mem_parents_streetAhead :
    Place.pin 0 30 [1, 3] ∈ streetAhead.toList ∧
      IsOwnParent streetAhead (.pin 0 30 [1, 3]) 20 (.pin 3 20 []) ∧
      build streetAhead (.pin 0 30 [1, 3]) 32 = ⟨[⟨0, 30⟩, ⟨1, 26⟩, ⟨2, 20⟩], false⟩ ∧
      ¬ ∃ level ∈ (build streetAhead (.pin 0 30 [1, 3]) 32).entries,
        level.rank = 20 ∧ level.id ∈ (Place.pin 0 30 [1, 3]).parents := by
  have climbed : build streetAhead (.pin 0 30 [1, 3]) 32 =
      ⟨[⟨0, 30⟩, ⟨1, 26⟩, ⟨2, 20⟩], false⟩ := by decide +kernel
  refine ⟨List.mem_cons_self, ⟨rfl, rfl, by decide⟩, climbed, ?_⟩
  rw [climbed]
  decide

end Gazetteer.Chain
