import Gazetteer.Proofs.Hierarchy.ParentOrder
import Mathlib.Tactic.Tauto

/-!
# Chains are complete

A chain neither skips nor invents a level.  It has a level of a rank exactly if a more
detailed level of the chain lists a place of that rank among its parents, and of several such
places the level is the one with the smallest number.  The argument follows the climb: what
the levels so far offer below the present rank is what the pool holds, and the next level is
the foremost of it.
-/

namespace Gazetteer.Chain

variable {K : Type}

/-- A stored place of a rank that one of the levels above that rank lists as a parent. -/
structure Offers (store : Store K) (levels : List ChainEntry) (rank : Rank) (place : Place K) :
    Prop where
  stored : store.get? place.id = some place
  rank_eq : place.addressRank = rank
  listed : ∃ level ∈ levels, rank < level.rank ∧
    ∃ child, store.get? level.id = some child ∧ place.id ∈ child.parents

/-- There is a level of a rank just if the levels above it offer one, and it is then the
offer with the smallest number. -/
structure CompleteAt (store : Store K) (levels : List ChainEntry) (rank : Rank) : Prop where
  exists_iff : (∃ level ∈ levels, level.rank = rank) ↔ ∃ place, Offers store levels rank place
  least : ∀ level ∈ levels, level.rank = rank → ∃ place, Offers store levels rank place ∧
    place.entry = level ∧ ∀ other, Offers store levels rank other → place.id ≤ other.id

/-- A rank that no level has and nothing is offered for. -/
theorem CompleteAt.of_absent {store : Store K} {levels : List ChainEntry} {rank : Rank}
    (noLevel : ∀ level ∈ levels, level.rank ≠ rank)
    (noOffer : ∀ place, ¬ Offers store levels rank place) : CompleteAt store levels rank where
  exists_iff := by
    constructor
    · rintro ⟨level, member, same⟩
      exact absurd same (noLevel level member)
    · rintro ⟨place, offer⟩
      exact absurd offer (noOffer place)
  least level member same := absurd same (noLevel level member)

namespace Climbing

variable {store : Store K} {levels : List ChainEntry} {visited pool : List PlaceId}
  {rank : Rank}

/-- Levels at or below a rank offer nothing for it, so what is offered is in the pool. -/
theorem isAbove_of_offers (climbing : Climbing store levels visited pool rank) {target : Rank}
    (positive : 0 < target) (below : target < rank) {later : List ChainEntry}
    (coarse : ∀ level ∈ later, level.rank ≤ target) {place : Place K}
    (offer : Offers store (levels ++ later) target place) : IsAbove store pool rank place := by
  obtain ⟨level, member, detailed, child, stored, parent⟩ := offer.listed
  rcases List.mem_append.mp member with earlier | isLater
  · exact {
      stored := offer.stored
      listed := (climbing.mem_pool_iff place.id).mpr ⟨level, earlier, child, stored, parent⟩
      positive := offer.rank_eq ▸ positive
      below := offer.rank_eq ▸ below }
  · exact absurd detailed (UInt8.not_lt.mpr (coarse level isLater))

/-- What is in the pool is offered, whatever levels follow. -/
theorem offers_of_isAbove (climbing : Climbing store levels visited pool rank)
    (later : List ChainEntry) {place : Place K} (above : IsAbove store pool rank place) :
    Offers store (levels ++ later) place.addressRank place where
  stored := above.stored
  rank_eq := rfl
  listed := by
    obtain ⟨level, member, child, stored, parent⟩ :=
      (climbing.mem_pool_iff place.id).mp above.listed
    exact ⟨level, List.mem_append_left later member,
      UInt8.lt_of_lt_of_le above.below (climbing.detailed level member), child, stored, parent⟩

theorem rank_ne_of_mem (climbing : Climbing store levels visited pool rank) {target : Rank}
    (below : target < rank) {level : ChainEntry} (member : level ∈ levels) :
    level.rank ≠ target := by
  rintro rfl
  exact UInt8.not_lt.mpr (climbing.detailed level member) below

/-- At the top nothing is left to offer. -/
theorem completeAt_top (climbing : Climbing store levels visited pool rank)
    (top : next? store pool rank = none) {target : Rank} (positive : 0 < target)
    (below : target < rank) : CompleteAt store (levels ++ []) target := by
  apply CompleteAt.of_absent
  · intro level member
    exact climbing.rank_ne_of_mem below (by simpa using member)
  · intro place offer
    exact next?_eq_none_iff.mp top place
      (climbing.isAbove_of_offers positive below (by simp) offer)

/-- Between the present rank and the next level nothing is offered. -/
theorem completeAt_gap (climbing : Climbing store levels visited pool rank) {next : Place K}
    (found : next? store pool rank = some next) {later : List ChainEntry}
    (lower : ∀ level ∈ later, level.rank ≤ next.addressRank) {target : Rank}
    (above : next.addressRank < target) (below : target < rank) :
    CompleteAt store (levels ++ later) target := by
  have coarse : ∀ level ∈ later, level.rank < target := fun level member =>
    UInt8.lt_of_le_of_lt (lower level member) above
  have positive := UInt8.lt_trans (isAbove_of_next? found).positive above
  apply CompleteAt.of_absent
  · intro level member
    rcases List.mem_append.mp member with earlier | isLater
    · exact climbing.rank_ne_of_mem below earlier
    · exact UInt8.ne_of_lt (coarse level isLater)
  · intro place offer
    have candidate := climbing.isAbove_of_offers positive below
      (fun level member => UInt8.le_of_lt (coarse level member)) offer
    have behind := precedes_next?_eq_false found candidate
    have preferred : place.precedes next = true :=
      Place.precedes_iff.mpr (Or.inl (offer.rank_eq.symm ▸ above))
    rw [behind] at preferred
    contradiction

/-- At the rank of the next level, that level is the best offer. -/
theorem completeAt_next (climbing : Climbing store levels visited pool rank) {next : Place K}
    (found : next? store pool rank = some next) {later : List ChainEntry}
    (lower : ∀ level ∈ later, level.rank < next.addressRank) :
    CompleteAt store (levels ++ next.entry :: later) next.addressRank := by
  have here := isAbove_of_next? found
  have offered := climbing.offers_of_isAbove (next.entry :: later) here
  have isNext : next.entry ∈ levels ++ next.entry :: later := by simp
  constructor
  · exact ⟨fun _ => ⟨next, offered⟩, fun _ => ⟨next.entry, isNext, rfl⟩⟩
  · intro level member same
    have isEntry : next.entry = level := by
      rcases List.mem_append.mp member with earlier | isLater
      · exact absurd same (climbing.rank_ne_of_mem here.below earlier)
      · rcases List.mem_cons.mp isLater with rfl | isLater
        · rfl
        · exact absurd same (UInt8.ne_of_lt (lower level isLater))
    refine ⟨next, offered, isEntry, ?_⟩
    intro other offer
    have coarse : ∀ level ∈ next.entry :: later, level.rank ≤ next.addressRank := by
      intro level member
      rcases List.mem_cons.mp member with rfl | isLater
      · exact UInt8.le_refl _
      · exact UInt8.le_of_lt (lower level isLater)
    have candidate := climbing.isAbove_of_offers here.positive here.below coarse offer
    have behind := precedes_next?_eq_false found candidate
    exact (Place.precedes_eq_false_iff.mp behind).2 offer.rank_eq

/-- The levels so far and those still to be climbed to are complete below the present rank. -/
theorem completeAt (climbing : Climbing store levels visited pool rank) {limit : Nat}
    (long : 256 ≤ limit) {target : Rank} (positive : 0 < target) (below : target < rank) :
    CompleteAt store (levels ++ (climb store limit visited pool rank).entries) target := by
  induction visited, pool, rank using climb.induct store limit generalizing levels with
  | case1 visited pool rank top =>
      rw [climb_of_next?_eq_none top]
      exact climbing.completeAt_top top positive below
  | case2 visited pool rank next found stopped =>
      exact absurd stopped (climbing.not_stopped_of_room (climbing.room long) found)
  | case3 visited pool rank next found goesOn ih =>
      rw [climb_of_next?_eq_some found, if_neg goesOn]
      have fallen : ∀ level ∈ (climb store limit (next.id :: visited) (pool ++ next.parents)
          next.addressRank).entries, level.rank < next.addressRank :=
        fun level member => (rank_of_mem_climb member).2
      rcases Std.lt_trichotomy target next.addressRank with lower | same | higher
      · have rest := ih (climbing.step found) lower
        rwa [List.append_assoc] at rest
      · subst same
        exact climbing.completeAt_next found fallen
      · apply climbing.completeAt_gap found _ higher below
        intro level member
        rcases List.mem_cons.mp member with rfl | isLater
        · exact UInt8.le_refl _
        · exact UInt8.le_of_lt (fallen level isLater)

/-- With 256 levels allowed, a climb reaches the top. -/
theorem not_truncated (climbing : Climbing store levels visited pool rank) {limit : Nat}
    (long : 256 ≤ limit) : (climb store limit visited pool rank).truncated = false :=
  climbing.not_truncated_of_room (climbing.room long)

end Climbing

/-- With 256 levels allowed, the chain of a stored place starts with the place, falls in
rank, reaches the top, and is complete at every rank below that of the place.  It is the same
in every store that differs only in the order and the repetition of parents. -/
theorem build_complete (store : Store K) (start : Place K) (member : start ∈ store.toList)
    (limit : Nat) (long : 256 ≤ limit) :
    let chain := build store start limit
    chain.entries.head? = some start.entry ∧
      chain.entries.Pairwise (fun lower upper => upper.rank < lower.rank) ∧
      chain.truncated = false ∧
      (∀ rank, 0 < rank → rank < start.addressRank → CompleteAt store chain.entries rank) ∧
      ∀ other twin, store.SameUpToParentOrder other → other.get? start.id = some twin →
        build other twin limit = chain := by
  have stored := Store.get?_id_of_mem member
  have climbing := Climbing.initial stored
  refine ⟨rfl, pairwise_build store start limit, climbing.not_truncated long, ?_, ?_⟩
  · intro rank positive below
    exact climbing.completeAt long positive below
  · intro other twin same found
    obtain ⟨agreeing, twinFound, agree⟩ := same.exists_get? stored
    obtain rfl := Option.some.inj (twinFound.symm.trans found)
    exact build_eq_of_same same agree limit

/-! ## A village with two cities -/

/-- A house on a street that lists two cities and, in a circle, the house; the country lists
the house again. -/
def village : Store Float :=
  ⟨#[.pin 0 30 [1, 5, 1], .pin 1 26 [3, 2, 0], .pin 2 16 [4], .pin 3 16 [5], .pin 4 12 [5, 1],
    .pin 5 4 [0]], rfl⟩

/-- The village with parents in another order. -/
def shuffledVillage : Store Float :=
  ⟨#[.pin 0 30 [5, 1], .pin 1 26 [0, 2, 3, 2], .pin 2 16 [4], .pin 3 16 [5], .pin 4 12 [1, 5],
    .pin 5 4 [0, 0]], rfl⟩

theorem build_complete_village :
    Place.pin 0 30 [1, 5, 1] ∈ village.toList ∧
      CompleteAt village (build village (.pin 0 30 [1, 5, 1]) 256).entries 16 ∧
      village.SameUpToParentOrder shuffledVillage ∧
      build shuffledVillage (.pin 0 30 [5, 1]) 256 = build village (.pin 0 30 [1, 5, 1]) 256 := by
  have member : Place.pin 0 30 [1, 5, 1] ∈ village.toList := List.mem_cons_self
  have same : village.SameUpToParentOrder shuffledVillage := by
    refine .cons ⟨rfl, ?_⟩ (.cons ⟨rfl, ?_⟩ (.cons ⟨rfl, ?_⟩ (.cons ⟨rfl, ?_⟩ (.cons ⟨rfl, ?_⟩
      (.cons ⟨rfl, ?_⟩ .nil)))))
    all_goals
      intro id
      simp only [Place.pin, List.mem_cons, List.not_mem_nil] <;> tauto
  obtain ⟨_, _, _, complete, order⟩ :=
    build_complete village (.pin 0 30 [1, 5, 1]) member 256 (Nat.le_refl 256)
  exact ⟨member, complete 16 (by decide) (by decide), same,
    order shuffledVillage (.pin 0 30 [5, 1]) same rfl⟩

end Gazetteer.Chain
