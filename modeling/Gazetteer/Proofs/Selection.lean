import Gazetteer.Proofs.Plane.Exact
import Gazetteer.Proofs.Preference
import Gazetteer.Selection
import Mathlib.Tactic.Linarith
import Mathlib.Tactic.NormNum.OfScientific

/-!
# What is selected

Of candidates in ascending distance, one takes over from the best so far if its place
precedes and it stands within the band of ties behind the best.  The band moves along with
the best, so a run of takeovers may lead farther than one band.  What such a run comes to is
preceded by no suitable candidate up to a band behind it, and of the candidates that are
nearer, each was passed by one within a band of it.

So the candidate selected is the foremost of those within a band of the nearest suitable one
exactly if no run leads out of that band.
-/

namespace Gazetteer.Candidate

/-- Candidates are listed from the nearest to the farthest. -/
def Ascending {K : Type} [Scalar K] (candidates : List (Candidate K)) : Prop :=
  candidates.Pairwise fun nearer farther => nearer.distance ≤ farther.distance

variable {K : Type} [LinearOrder K] [Field K] [ExactRoot K]

theorem Ascending.first_le {first candidate : Candidate K} {rest : List (Candidate K)}
    (ascending : Ascending (first :: rest)) (member : candidate ∈ first :: rest) :
    first.distance ≤ candidate.distance := by
  rcases List.mem_cons.mp member with rfl | later
  · exact le_refl _
  · exact (List.pairwise_cons.mp ascending).1 candidate later

theorem isBeyond_iff {candidate best : Candidate K} :
    candidate.isBeyond best = true ↔ best.distance + tieBand < candidate.distance := by
  simp [isBeyond]

theorem isBeyond_eq_false_iff {candidate best : Candidate K} :
    candidate.isBeyond best = false ↔ candidate.distance ≤ best.distance + tieBand := by
  simp [isBeyond]

/-! ## A run of takeovers -/

/-- What going through candidates comes to. -/
structure Selected (eligible : Place K → Bool) (candidates : List (Candidate K))
    (selected : Candidate K) : Prop where
  mem : selected ∈ candidates
  isEligible : eligible selected.place = true
  /-- Nothing suitable up to a band behind it precedes it. -/
  foremost : ∀ rival ∈ candidates, eligible rival.place = true →
    rival.distance ≤ selected.distance + tieBand → rival.place.precedes selected.place = false
  /-- What is nearer was passed by a candidate within a band of it. -/
  passed : ∀ nearer ∈ candidates, eligible nearer.place = true →
    nearer.distance < selected.distance →
      ∃ rival ∈ candidates, eligible rival.place = true ∧
        rival.distance ≤ nearer.distance + tieBand ∧
        rival.place.precedes nearer.place = true

variable [IsStrictOrderedRing K]

theorem tieBand_pos : (0 : K) < tieBand := by
  unfold tieBand
  norm_num

theorem Ascending.first_le_band {first candidate : Candidate K} {rest : List (Candidate K)}
    (ascending : Ascending (first :: rest)) (member : candidate ∈ first :: rest) :
    first.distance ≤ candidate.distance + tieBand :=
  (ascending.first_le member).trans (le_add_of_nonneg_right tieBand_pos.le)

namespace Selected

variable {eligible : Place K → Bool} {best candidate selected : Candidate K}
  {rest : List (Candidate K)}

omit [IsStrictOrderedRing K] in
/-- A candidate that is not suitable makes no difference. -/
theorem skip (unsuitable : eligible candidate.place = false)
    (after : Selected eligible rest selected) : Selected eligible (candidate :: rest) selected where
  mem := List.mem_cons_of_mem _ after.mem
  isEligible := after.isEligible
  foremost rival member suitable near := by
    rcases List.mem_cons.mp member with rfl | later
    · exact absurd suitable (Bool.eq_false_iff.mp unsuitable)
    · exact after.foremost rival later suitable near
  passed nearer member suitable less := by
    rcases List.mem_cons.mp member with rfl | later
    · exact absurd suitable (Bool.eq_false_iff.mp unsuitable)
    · obtain ⟨rival, among, others⟩ := after.passed nearer later suitable less
      exact ⟨rival, List.mem_cons_of_mem _ among, others⟩

omit [IsStrictOrderedRing K] in
/-- The best candidate so far stays where there is none left. -/
theorem last (isEligible : eligible best.place = true) : Selected eligible [best] best where
  mem := List.mem_singleton_self best
  isEligible := isEligible
  foremost rival member _ _ := by
    obtain rfl := List.mem_singleton.mp member
    exact Place.precedes_self rival.place
  passed nearer member _ less := by
    obtain rfl := List.mem_singleton.mp member
    exact absurd less (lt_irrefl _)

omit [IsStrictOrderedRing K] in
/-- The best candidate so far stays where the next one is beyond it, because then all others
are. -/
theorem stop (ascending : Ascending (best :: candidate :: rest))
    (isEligible : eligible best.place = true) (beyond : candidate.isBeyond best = true) :
    Selected eligible (best :: candidate :: rest) best where
  mem := List.mem_cons_self
  isEligible := isEligible
  foremost rival member _ near := by
    rcases List.mem_cons.mp member with rfl | later
    · exact Place.precedes_self rival.place
    · have farther : candidate.distance ≤ rival.distance :=
        Ascending.first_le (List.pairwise_cons.mp ascending).2 later
      exact absurd ((isBeyond_iff.mp beyond).trans_le farther) (not_lt.mpr near)
  passed nearer member _ less := absurd less (not_lt.mpr (ascending.first_le member))

/-- A candidate that takes over leaves the best one so far behind for good. -/
theorem takeOver (ascending : Ascending (best :: candidate :: rest))
    (inReach : candidate.isBeyond best = false) (isEligible : eligible candidate.place = true)
    (ahead : candidate.place.precedes best.place = true)
    (after : Selected eligible (candidate :: rest) selected) :
    Selected eligible (best :: candidate :: rest) selected where
  mem := List.mem_cons_of_mem _ after.mem
  isEligible := after.isEligible
  foremost rival member suitable near := by
    rcases List.mem_cons.mp member with rfl | later
    · have reaches : candidate.distance ≤ selected.distance + tieBand :=
        Ascending.first_le_band (List.pairwise_cons.mp ascending).2 after.mem
      exact Place.precedes_eq_false_trans (Place.precedes_asymm ahead)
        (after.foremost candidate List.mem_cons_self isEligible reaches)
    · exact after.foremost rival later suitable near
  passed nearer member suitable less := by
    rcases List.mem_cons.mp member with rfl | later
    · exact ⟨candidate, List.mem_cons_of_mem _ List.mem_cons_self, isEligible,
        isBeyond_eq_false_iff.mp inReach, ahead⟩
    · obtain ⟨rival, among, others⟩ := after.passed nearer later suitable less
      exact ⟨rival, List.mem_cons_of_mem _ among, others⟩

/-- A candidate that does not take over from the best one so far does not matter later
either: whatever passes the best passes it too. -/
theorem stay (ascending : Ascending (best :: candidate :: rest))
    (isEligible : eligible best.place = true)
    (behind : eligible candidate.place = true → candidate.place.precedes best.place = false)
    (after : Selected eligible (best :: rest) selected) :
    Selected eligible (best :: candidate :: rest) selected := by
  have kept : (best :: rest).Sublist (best :: candidate :: rest) :=
    (List.sublist_cons_self candidate rest).cons_cons best
  have reaches : best.distance ≤ selected.distance + tieBand :=
    Ascending.first_le_band (ascending.sublist kept) after.mem
  have split : ∀ other ∈ best :: candidate :: rest,
      other = candidate ∨ other ∈ best :: rest := by
    intro other member
    simp only [List.mem_cons] at member ⊢
    tauto
  refine ⟨kept.subset after.mem, after.isEligible, ?_, ?_⟩
  · intro rival member suitable near
    rcases split rival member with rfl | among
    · exact Place.precedes_eq_false_trans (behind suitable)
        (after.foremost best List.mem_cons_self isEligible reaches)
    · exact after.foremost rival among suitable near
  · intro nearer member suitable less
    rcases split nearer member with rfl | among
    · have order : best.distance ≤ nearer.distance := ascending.first_le member
      obtain ⟨rival, among, rivalSuitable, near, ahead⟩ :=
        after.passed best List.mem_cons_self isEligible (order.trans_lt less)
      refine ⟨rival, kept.subset among, rivalSuitable, by linarith, ?_⟩
      by_contra notAhead
      have notBest := Place.precedes_eq_false_trans (Bool.eq_false_iff.mpr notAhead)
        (behind suitable)
      exact absurd ahead (Bool.eq_false_iff.mp notBest)
    · obtain ⟨rival, isAmong, others⟩ := after.passed nearer among suitable less
      exact ⟨rival, kept.subset isAmong, others⟩

end Selected

theorem exists_selectFrom {eligible : Place K → Bool} {best : Candidate K}
    (isEligible : eligible best.place = true) {candidates : List (Candidate K)}
    (ascending : Ascending (best :: candidates)) :
    ∃ selected, selectFrom eligible (some best) candidates = some selected ∧
      Selected eligible (best :: candidates) selected := by
  induction candidates generalizing best with
  | nil => exact ⟨best, rfl, .last isEligible⟩
  | cons candidate rest ih =>
      rw [selectFrom]
      by_cases beyond : candidate.isBeyond best = true
      · rw [if_pos beyond]
        exact ⟨best, rfl, .stop ascending isEligible beyond⟩
      · rw [if_neg beyond]
        by_cases takes : (eligible candidate.place && candidate.place.precedes best.place) = true
        · rw [if_pos takes]
          obtain ⟨suitable, ahead⟩ := Bool.and_eq_true_iff.mp takes
          obtain ⟨selected, found, after⟩ := ih suitable (List.pairwise_cons.mp ascending).2
          exact ⟨selected, found,
            .takeOver ascending (Bool.eq_false_iff.mpr beyond) suitable ahead after⟩
        · rw [if_neg takes]
          have kept : (best :: rest).Sublist (best :: candidate :: rest) :=
            (List.sublist_cons_self candidate rest).cons_cons best
          obtain ⟨selected, found, after⟩ := ih isEligible (ascending.sublist kept)
          refine ⟨selected, found, .stay ascending isEligible ?_ after⟩
          intro suitable
          simpa [suitable] using takes

/-- Nothing is selected where no candidate is suitable, and otherwise the end of a run of
takeovers. -/
theorem select_cases (suitability : Suitability) {candidates : List (Candidate K)}
    (ascending : Ascending candidates) :
    (select suitability candidates = none ∧
        ∀ candidate ∈ candidates, suitability.isEligible candidate.place = false) ∨
      ∃ selected, select suitability candidates = some selected ∧
        Selected suitability.isEligible candidates selected := by
  unfold select
  induction candidates with
  | nil => exact Or.inl ⟨rfl, by simp⟩
  | cons candidate rest ih =>
      rw [selectFrom]
      by_cases suitable : suitability.isEligible candidate.place = true
      · rw [if_pos suitable]
        exact Or.inr (exists_selectFrom suitable ascending)
      · rw [if_neg suitable]
        have unsuitable := Bool.eq_false_iff.mpr suitable
        rcases ih (List.pairwise_cons.mp ascending).2 with ⟨nothing, none⟩ | ⟨selected, found, run⟩
        · exact Or.inl ⟨nothing, List.forall_mem_cons.mpr ⟨unsuitable, none⟩⟩
        · exact Or.inr ⟨selected, found, run.skip unsuitable⟩

/-! ## The band of the nearest suitable candidate -/

/-- A suitable candidate that is at most a band farther than any other. -/
structure InBand (suitability : Suitability) (candidates : List (Candidate K))
    (candidate : Candidate K) : Prop where
  mem : candidate ∈ candidates
  isEligible : suitability.isEligible candidate.place = true
  near : ∀ other ∈ candidates, suitability.isEligible other.place = true →
    candidate.distance ≤ other.distance + tieBand

/-- What the nearest suitable candidate is: none if no candidate is suitable, otherwise the
foremost of those within a band of the nearest suitable one. -/
structure IsNearestSuitable (suitability : Suitability) (candidates : List (Candidate K))
    (result : Option (Candidate K)) : Prop where
  eq_none_iff : result = none ↔
    ∀ candidate ∈ candidates, suitability.isEligible candidate.place = false
  inBand : ∀ best ∈ result, InBand suitability candidates best
  foremost : ∀ best ∈ result, ∀ rival, InBand suitability candidates rival →
    rival.place.precedes best.place = false

variable {suitability : Suitability} {candidates : List (Candidate K)}

omit [IsStrictOrderedRing K] in
/-- What is selected is right as soon as it is within the band. -/
theorem Selected.isNearestSuitable {selected : Candidate K}
    (run : Selected suitability.isEligible candidates selected)
    (inBand : InBand suitability candidates selected) :
    IsNearestSuitable suitability candidates (some selected) where
  eq_none_iff := by
    constructor
    · intro nothing
      contradiction
    · intro none
      exact absurd run.isEligible (Bool.eq_false_iff.mp (none selected run.mem))
  inBand best found := Option.some.inj found ▸ inBand
  foremost best found rival isRival := by
    obtain rfl := Option.some.inj found
    exact run.foremost rival isRival.mem isRival.isEligible
      (isRival.near selected run.mem run.isEligible)

/-- The nearest suitable candidate is selected exactly if some candidate within a band of the
nearest suitable one is preceded by none of the suitable candidates up to a band behind
itself, also of those that are farther than a band from the nearest. -/
theorem select_isNearestSuitable_iff (suitability : Suitability)
    {candidates : List (Candidate K)} (ascending : Ascending candidates) :
    IsNearestSuitable suitability candidates (select suitability candidates) ↔
      ((∃ candidate ∈ candidates, suitability.isEligible candidate.place = true) →
        ∃ winner, InBand suitability candidates winner ∧
          ∀ rival ∈ candidates, suitability.isEligible rival.place = true →
            rival.distance ≤ winner.distance + tieBand →
              rival.place.precedes winner.place = false) := by
  rcases select_cases suitability ascending with ⟨nothing, none⟩ | ⟨selected, found, run⟩
  · rw [nothing]
    constructor
    · rintro _ ⟨candidate, member, suitable⟩
      exact absurd suitable (Bool.eq_false_iff.mp (none candidate member))
    · intro _
      exact ⟨iff_of_true rfl none, by simp, by simp⟩
  · rw [found]
    constructor
    · intro nearest _
      exact ⟨selected, nearest.inBand selected rfl, run.foremost⟩
    · intro settled
      obtain ⟨winner, inBand, foremost⟩ := settled ⟨selected, run.mem, run.isEligible⟩
      -- otherwise something within a band of the winner precedes it
      have notPassed : selected.distance ≤ winner.distance := by
        by_contra farther
        obtain ⟨rival, member, suitable, near, ahead⟩ :=
          run.passed winner inBand.mem inBand.isEligible (not_le.mp farther)
        exact absurd ahead (Bool.eq_false_iff.mp (foremost rival member suitable near))
      refine run.isNearestSuitable ⟨run.mem, run.isEligible, ?_⟩
      intro other member suitable
      exact notPassed.trans (inBand.near other member suitable)

/-! ## Benches in a row -/

/-- A bench of a rank, seen from a distance. -/
def bench (id : PlaceId) (rank : Rank) (distance : ℚ) : Candidate ℚ where
  distance := distance
  place :=
    { id := id
      element := .node
      elementId := 0
      category := "amenity"
      placeType := "bench"
      geometry := .point ⟨0, 0⟩
      bounds := ⟨0, 0, 0, 0⟩
      centroid := ⟨0, 0⟩
      searchRank := 30
      addressRank := rank }

/-- Two benches at one distance, and one that is too far. -/
def benches : List (Candidate ℚ) :=
  [bench 0 26 0.5, bench 1 30 0.5, bench 2 30 0.6]

theorem select_isNearestSuitable_iff_benches :
    Ascending benches ∧ IsNearestSuitable ⟨26, []⟩ benches (select ⟨26, []⟩ benches) := by
  have ascending : Ascending benches := by
    unfold Ascending
    decide +kernel
  refine ⟨ascending, (select_isNearestSuitable_iff ⟨26, []⟩ ascending).mpr fun _ => ?_⟩
  refine ⟨bench 1 30 0.5, ⟨by simp [benches], by decide +kernel, ?_⟩, ?_⟩
  · decide +kernel
  · decide +kernel

/-- Three benches, each of which is in a tie with the next. -/
def driftingBenches : List (Candidate ℚ) :=
  [bench 0 26 0, bench 1 27 0.8e-12, bench 2 30 1.6e-12]

/-- The third of them is selected, though it is not in a tie with the first. -/
theorem not_isNearestSuitable_of_drift :
    Ascending driftingBenches ∧
      (select ⟨26, []⟩ driftingBenches).map Candidate.distance = some 1.6e-12 ∧
      ¬ IsNearestSuitable ⟨26, []⟩ driftingBenches (select ⟨26, []⟩ driftingBenches) := by
  have third : (select ⟨26, []⟩ driftingBenches).map Candidate.distance = some 1.6e-12 := by
    decide +kernel
  refine ⟨by unfold Ascending; decide +kernel, third, fun nearest => ?_⟩
  obtain ⟨selected, found, distance⟩ := Option.map_eq_some_iff.mp third
  have near : selected.distance ≤ 0 + tieBand :=
    (nearest.inBand selected found).near (bench 0 26 0) (by simp [driftingBenches])
      (by decide +kernel)
  rw [distance] at near
  exact absurd near (by decide +kernel)

end Gazetteer.Candidate
