import Gazetteer.Proofs.Hierarchy.Climb
import Mathlib.Data.List.Forall2

/-!
# The order of parents

A chain does not depend on the order in which places list their parents, nor on parents
that are listed more than once: two stores that differ in nothing else have the same chains.
-/

namespace Gazetteer

variable {K : Type}

/-- Two places that differ at most in the order and the repetition of their parents. -/
structure Place.SameUpToParentOrder (first second : Place K) : Prop where
  rest : second = { first with parents := second.parents }
  mem_parents_iff : ∀ id, id ∈ first.parents ↔ id ∈ second.parents

namespace Place.SameUpToParentOrder

variable {first second : Place K}

theorem id_eq (same : first.SameUpToParentOrder second) : second.id = first.id := by
  rw [same.rest]

theorem addressRank_eq (same : first.SameUpToParentOrder second) :
    second.addressRank = first.addressRank := by
  rw [same.rest]

theorem entry_eq (same : first.SameUpToParentOrder second) : second.entry = first.entry := by
  rw [Place.entry, Place.entry, same.id_eq, same.addressRank_eq]

theorem symm (same : first.SameUpToParentOrder second) : second.SameUpToParentOrder first where
  rest := by
    rw [same.rest]
  mem_parents_iff id := (same.mem_parents_iff id).symm

end Place.SameUpToParentOrder

/-- Two stores that differ at most in the order and the repetition of parents. -/
def Store.SameUpToParentOrder (first second : Store K) : Prop :=
  List.Forall₂ Place.SameUpToParentOrder first.toList second.toList

namespace Store.SameUpToParentOrder

variable {first second : Store K}

theorem symm (same : first.SameUpToParentOrder second) : second.SameUpToParentOrder first :=
  List.Forall₂.flip (same.imp fun _ _ agree => agree.symm)

/-- Such stores have such places under every number. -/
theorem exists_get? (same : first.SameUpToParentOrder second) {id : PlaceId} {place : Place K}
    (found : first.get? id = some place) :
    ∃ twin, second.get? id = some twin ∧ place.SameUpToParentOrder twin := by
  obtain ⟨lengths, places⟩ := List.forall₂_iff_get.mp same
  have present : first.toList[id.toNat]? = some place := by simpa [get?, toList] using found
  obtain ⟨bound, here⟩ := List.getElem?_eq_some_iff.mp present
  have agree := places id.toNat bound (lengths ▸ bound)
  simp only [List.get_eq_getElem, here] at agree
  refine ⟨_, ?_, agree⟩
  simp [get?, toList]

end Store.SameUpToParentOrder

namespace Chain

variable {store other : Store K} {pool otherPool : List PlaceId} {rank : Rank}

theorem IsAbove.twin (same : store.SameUpToParentOrder other)
    (pools : ∀ id, id ∈ pool ↔ id ∈ otherPool) {place : Place K}
    (above : IsAbove store pool rank place) :
    ∃ twin, IsAbove other otherPool rank twin ∧ place.SameUpToParentOrder twin := by
  obtain ⟨twin, found, agree⟩ := same.exists_get? above.stored
  refine ⟨twin, ?_, agree⟩
  exact {
    stored := agree.id_eq ▸ found
    listed := agree.id_eq ▸ (pools place.id).mp above.listed
    positive := agree.addressRank_eq ▸ above.positive
    below := agree.addressRank_eq ▸ above.below }

/-- The next level is the same place, whatever the order of the pool. -/
theorem next?_of_same (same : store.SameUpToParentOrder other)
    (pools : ∀ id, id ∈ pool ↔ id ∈ otherPool) {place : Place K}
    (found : next? store pool rank = some place) :
    ∃ twin, next? other otherPool rank = some twin ∧ place.SameUpToParentOrder twin := by
  obtain ⟨twin, twinAbove, agree⟩ := (isAbove_of_next? found).twin same pools
  cases best : next? other otherPool rank with
  | none => exact absurd twinAbove (next?_eq_none_iff.mp best twin)
  | some winner =>
      obtain ⟨rival, rivalAbove, rivalAgree⟩ :=
        (isAbove_of_next? best).twin same.symm fun id => (pools id).symm
      have behind : rival.precedes place = false := precedes_next?_eq_false found rivalAbove
      have ahead : twin.precedes winner = false := precedes_next?_eq_false best twinAbove
      have level : winner.precedes twin = false := by
        simpa [Place.precedes, agree.id_eq, agree.addressRank_eq, rivalAgree.id_eq,
          rivalAgree.addressRank_eq] using behind
      have sameId := (Place.entry_eq_of_level level ahead).2
      have winnerStored := (isAbove_of_next? best).stored
      rw [sameId, twinAbove.stored] at winnerStored
      obtain rfl := Option.some.inj winnerStored
      exact ⟨twin, rfl, agree⟩

theorem next?_eq_none_of_same (same : store.SameUpToParentOrder other)
    (pools : ∀ id, id ∈ pool ↔ id ∈ otherPool) (top : next? store pool rank = none) :
    next? other otherPool rank = none := by
  rw [next?_eq_none_iff] at top ⊢
  intro place above
  obtain ⟨twin, twinAbove, _⟩ := above.twin same.symm fun id => (pools id).symm
  exact top twin twinAbove

/-- A climb does not depend on the order of the pool. -/
theorem climb_eq_of_same (same : store.SameUpToParentOrder other) (limit : Nat)
    (visited : List PlaceId) (pools : ∀ id, id ∈ pool ↔ id ∈ otherPool) :
    climb other limit visited otherPool rank = climb store limit visited pool rank := by
  induction visited, pool, rank using climb.induct store limit generalizing otherPool with
  | case1 visited pool rank top =>
      rw [climb_of_next?_eq_none top,
        climb_of_next?_eq_none (next?_eq_none_of_same same pools top)]
  | case2 visited pool rank place found stopped =>
      obtain ⟨twin, twinFound, agree⟩ := next?_of_same same pools found
      rw [climb_of_next?_eq_some found, climb_of_next?_eq_some twinFound, agree.id_eq,
        if_pos stopped, if_pos stopped]
  | case3 visited pool rank place found goesOn ih =>
      obtain ⟨twin, twinFound, agree⟩ := next?_of_same same pools found
      have grown : ∀ id, id ∈ pool ++ place.parents ↔ id ∈ otherPool ++ twin.parents := by
        intro id
        rw [List.mem_append, List.mem_append, pools id, agree.mem_parents_iff id]
      rw [climb_of_next?_eq_some found, climb_of_next?_eq_some twinFound, agree.id_eq,
        if_neg goesOn, if_neg goesOn, agree.entry_eq, agree.addressRank_eq, ih grown]

/-- The chain of a place does not depend on the order of anyone's parents. -/
theorem build_eq_of_same (same : store.SameUpToParentOrder other) {start twin : Place K}
    (agree : start.SameUpToParentOrder twin) (limit : Nat) :
    build other twin limit = build store start limit := by
  rw [build, build, agree.id_eq, agree.entry_eq, agree.addressRank_eq,
    climb_eq_of_same same limit _ agree.mem_parents_iff]

end Chain

end Gazetteer
