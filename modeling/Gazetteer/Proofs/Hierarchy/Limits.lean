import Gazetteer.Proofs.Hierarchy.Climb

/-!
# Limits of a chain

A limit cuts a chain short and does nothing else.  The climb to fewer levels takes the same
steps as the climb to the top, because a step looks at the levels so far and never at how many
may follow.  Since ranks fall with every step, the climb to the top has no more levels than
the rank of its first place says, and it never meets a level again: the test for a second visit
does not decide anything, whatever circles the parents form.
-/

namespace Gazetteer.Chain

variable {K : Type} {store : Store K} {start : Place K} {limit : Nat} {visited pool : List PlaceId}
  {rank : Rank}

/-! ## Where a climb comes to -/

/-- The climb from a place comes to a rank, with the levels visited so far, the last one first,
and the pool of their parents. -/
inductive ComesTo (store : Store K) (start : Place K) (limit : Nat) :
    (visited pool : List PlaceId) → (rank : Rank) → Prop where
  | first : ComesTo store start limit [start.id] start.parents start.addressRank
  | next {visited pool : List PlaceId} {rank : Rank} {place : Place K}
      (before : ComesTo store start limit visited pool rank)
      (found : next? store pool rank = some place)
      (goesOn : ¬ (limit ≤ visited.length || visited.contains place.id) = true) :
      ComesTo store start limit (place.id :: visited) (pool ++ place.parents) place.addressRank

/-- What a climb comes to belongs to the chain: it is the levels so far and what is still
climbed to. -/
theorem ComesTo.exists_build_eq (comes : ComesTo store start limit visited pool rank) :
    ∃ levels, levels.map ChainEntry.id = visited.reverse ∧
      build store start limit =
        ⟨levels ++ (climb store limit visited pool rank).entries,
          (climb store limit visited pool rank).truncated⟩ := by
  induction comes with
  | first => exact ⟨[start.entry], rfl, rfl⟩
  | next before found goesOn ih =>
      rename_i visited pool rank place
      obtain ⟨levels, ids, whole⟩ := ih
      refine ⟨levels ++ [place.entry], ?_, ?_⟩
      · rw [List.map_append, ids, List.reverse_cons]
        rfl
      · rw [whole, climb_of_next?_eq_some found, if_neg goesOn, List.append_assoc]
        rfl

/-- All that a climb comes to keeps the invariant. -/
theorem ComesTo.exists_climbing (stored : store.get? start.id = some start)
    (comes : ComesTo store start limit visited pool rank) :
    ∃ levels, Climbing store levels visited pool rank := by
  induction comes with
  | first => exact ⟨_, .initial stored⟩
  | next before found goesOn ih =>
      obtain ⟨levels, climbing⟩ := ih
      exact ⟨_, climbing.step found⟩

/-! ## How far a climb goes -/

/-- A climb has at most one level for each rank in an address below the one it starts from. -/
theorem length_climb_le (store : Store K) (limit : Nat) (visited pool : List PlaceId)
    (rank : Rank) : (climb store limit visited pool rank).entries.length ≤ rank.toNat - 1 := by
  fun_induction climb store limit visited pool rank with
  | case1 => exact Nat.zero_le _
  | case2 => exact Nat.zero_le _
  | case3 visited pool rank place found _ above ih =>
      have here := isAbove_of_next? found
      have positive := UInt8.lt_iff_toNat_lt.mp here.positive
      have lower := UInt8.lt_iff_toNat_lt.mp here.below
      have rest : above.entries.length ≤ place.addressRank.toNat - 1 := ih
      rw [List.length_cons]
      omega

theorem length_build_le (store : Store K) (start : Place K) (limit : Nat) :
    (build store start limit).entries.length ≤ max 1 start.addressRank.toNat := by
  have fewer := length_climb_le store limit [start.id] start.parents start.addressRank
  rw [build, List.length_cons]
  omega

/-! ## What a limit cuts off -/

/-- A climb with a limit takes the first steps of the climb to the top, and is cut short just
if there are more. -/
theorem Climbing.climb_eq_take {levels : List ChainEntry}
    (climbing : Climbing store levels visited pool rank) {long : Nat} (reaches : 256 ≤ long)
    (limit : Nat) :
    (climb store limit visited pool rank).entries =
        (climb store long visited pool rank).entries.take (limit - visited.length) ∧
      ((climb store limit visited pool rank).truncated = true ↔
        limit - visited.length < (climb store long visited pool rank).entries.length) := by
  induction visited, pool, rank using climb.induct store long generalizing levels with
  | case1 visited pool rank top =>
      rw [climb_of_next?_eq_none top, climb_of_next?_eq_none top]
      simp
  | case2 visited pool rank next found stopped =>
      exact absurd stopped (climbing.not_stopped_of_room (climbing.room reaches) found)
  | case3 visited pool rank next found goesOn ih =>
      have fresh := climbing.not_mem_visited found
      rw [climb_of_next?_eq_some found, climb_of_next?_eq_some found, if_neg goesOn]
      by_cases full : limit ≤ visited.length
      · have none : limit - visited.length = 0 := Nat.sub_eq_zero_of_le full
        rw [if_pos (by simp [full]), none]
        simp
      · have one : limit - visited.length = limit - (next.id :: visited).length + 1 := by
          rw [List.length_cons]
          omega
        obtain ⟨entries, truncated⟩ := ih (climbing.step found)
        rw [if_neg (by simp [full, fresh]), one]
        dsimp only
        rw [entries, truncated, List.take_succ_cons, List.length_cons (a := next.entry)]
        exact ⟨rfl, Nat.succ_lt_succ_iff.symm⟩

/-- The chain of a stored place with a limit has the first levels of the chain that reaches the
top, at least the place itself, and is marked as truncated exactly if that chain has more.  That
chain has at most as many levels as the rank of the place says.  Wherever the climb comes to, it
goes on to the chain, and the next level has not been visited. -/
theorem build_eq_take (store : Store K) (start : Place K) (member : start ∈ store.toList)
    (limit : Nat) :
    let whole := build store start 256
    (build store start limit).entries = whole.entries.take (max 1 limit) ∧
      ((build store start limit).truncated = true ↔ max 1 limit < whole.entries.length) ∧
      whole.entries.length ≤ max 1 start.addressRank.toNat ∧
      ∀ visited pool rank, ComesTo store start limit visited pool rank →
        (∃ levels, levels.map ChainEntry.id = visited.reverse ∧
          build store start limit =
            ⟨levels ++ (climb store limit visited pool rank).entries,
              (climb store limit visited pool rank).truncated⟩) ∧
        ∀ next, next? store pool rank = some next → next.id ∉ visited := by
  have stored := Store.get?_id_of_mem member
  obtain ⟨entries, truncated⟩ :=
    (Climbing.initial stored).climb_eq_take (Nat.le_refl 256) limit
  have oneMore : max 1 limit = limit - 1 + 1 := by omega
  refine ⟨?_, ?_, length_build_le store start 256, ?_⟩
  · rw [oneMore]
    exact congrArg (start.entry :: ·) entries
  · rw [oneMore]
    exact truncated.trans Nat.succ_lt_succ_iff.symm
  · intro visited pool rank comes
    obtain ⟨levels, climbing⟩ := comes.exists_climbing stored
    exact ⟨comes.exists_build_eq, fun next found => climbing.not_mem_visited found⟩

/-! ## A circle of parents -/

/-- A house, a street and a town that list each other and themselves. -/
def circle : Store Float :=
  ⟨#[.pin 0 30 [1, 0, 2], .pin 1 26 [2, 1, 0], .pin 2 16 [0, 1, 2]], rfl⟩

theorem build_eq_take_circle :
    Place.pin 0 30 [1, 0, 2] ∈ circle.toList ∧
      (build circle (.pin 0 30 [1, 0, 2]) 2).entries = [⟨0, 30⟩, ⟨1, 26⟩] ∧
      (build circle (.pin 0 30 [1, 0, 2]) 2).truncated = true ∧
      ComesTo circle (.pin 0 30 [1, 0, 2]) 2 [1, 0] [1, 0, 2, 2, 1, 0] 26 ∧
      ∀ next, next? circle [1, 0, 2, 2, 1, 0] 26 = some next → next.id ∉ [1, 0] := by
  have member : Place.pin 0 30 [1, 0, 2] ∈ circle.toList := List.mem_cons_self
  have whole : build circle (.pin 0 30 [1, 0, 2]) 256 =
      ⟨[⟨0, 30⟩, ⟨1, 26⟩, ⟨2, 16⟩], false⟩ := by decide +kernel
  have found : next? circle [1, 0, 2] 30 = some (.pin 1 26 [2, 1, 0]) := rfl
  have goesOn : ¬ (2 ≤ [(0 : PlaceId)].length || [(0 : PlaceId)].contains 1) = true := by decide
  have house : ComesTo circle (.pin 0 30 [1, 0, 2]) 2 [0] [1, 0, 2] 30 := .first
  have comes : ComesTo circle (.pin 0 30 [1, 0, 2]) 2 [1, 0] [1, 0, 2, 2, 1, 0] 26 :=
    house.next found goesOn
  obtain ⟨entries, truncated, _, fresh⟩ := build_eq_take circle (.pin 0 30 [1, 0, 2]) member 2
  rw [whole] at entries truncated
  exact ⟨member, entries, truncated.mpr (by decide), comes, (fresh _ _ _ comes).2⟩

end Gazetteer.Chain
