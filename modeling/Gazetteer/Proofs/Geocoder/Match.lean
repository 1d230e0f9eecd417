import Gazetteer.Geocoder
import Gazetteer.Proofs.Hierarchy.Climb
import Gazetteer.Proofs.Spatial.Contents

/-!
# What is matched, and what an answer is made of

Whichever way a place is matched to a point, it is a place of the store, so its chain is made
of stored places and an answer fails only where the zoom keeps nothing of the chain.
-/

namespace Gazetteer

variable {K : Type} [Scalar K]

/-! ## The match is stored -/

theorem Candidate.mem_of_selectFrom {eligible : Place K → Bool} {best : Option (Candidate K)}
    {candidates : List (Candidate K)} {selected : Candidate K}
    (found : selectFrom eligible best candidates = some selected) :
    best = some selected ∨ selected ∈ candidates := by
  fun_induction selectFrom eligible best candidates with
  | case1 best => exact Or.inl found
  | case2 candidate rest ih =>
      rcases ih found with first | later
      · obtain rfl := Option.some.inj (Option.ite_none_right_eq_some.mp first).2
        exact Or.inr List.mem_cons_self
      · exact Or.inr (List.mem_cons_of_mem _ later)
  | case3 candidate rest best _ => exact Or.inl found
  | case4 candidate rest best _ _ ih =>
      rcases ih found with first | later
      · obtain rfl := Option.some.inj first
        exact Or.inr List.mem_cons_self
      · exact Or.inr (List.mem_cons_of_mem _ later)
  | case5 candidate rest best _ _ ih =>
      rcases ih found with first | later
      · exact Or.inl first
      · exact Or.inr (List.mem_cons_of_mem _ later)

/-- What is selected is suitable. -/
theorem Candidate.isEligible_of_selectFrom {eligible : Place K → Bool}
    {best : Option (Candidate K)} {candidates : List (Candidate K)} {selected : Candidate K}
    (suitable : ∀ candidate ∈ best, eligible candidate.place = true)
    (found : selectFrom eligible best candidates = some selected) :
    eligible selected.place = true := by
  fun_induction selectFrom eligible best candidates with
  | case1 best => exact suitable selected found
  | case2 candidate rest ih =>
      refine ih (fun first isFirst => ?_) found
      obtain ⟨isEligible, same⟩ := Option.ite_none_right_eq_some.mp isFirst
      exact Option.some.inj same ▸ isEligible
  | case3 candidate rest best _ => exact suitable selected found
  | case4 candidate rest best _ takes ih =>
      refine ih (fun first isFirst => ?_) found
      exact Option.some.inj isFirst ▸ (Bool.and_eq_true_iff.mp takes).1
  | case5 candidate rest best _ _ ih => exact ih suitable found

/-- A selection comes to nothing exactly where it has nothing yet and no candidate left is
suitable. -/
theorem Candidate.selectFrom_eq_none_iff {eligible : Place K → Bool}
    {best : Option (Candidate K)} {candidates : List (Candidate K)} :
    selectFrom eligible best candidates = none ↔
      best = none ∧ ∀ candidate ∈ candidates, eligible candidate.place = false := by
  fun_induction selectFrom eligible best candidates with
  | case1 best => simp
  | case2 candidate rest ih => simp [ih]
  | case3 candidate rest best _ => simp
  | case4 candidate rest best _ _ ih => simp [ih]
  | case5 candidate rest best _ _ ih => simp [ih]

theorem Candidate.select_eq_none_iff {suitability : Suitability}
    {candidates : List (Candidate K)} :
    select suitability candidates = none ↔
      ∀ candidate ∈ candidates, suitability.isEligible candidate.place = false := by
  rw [select, selectFrom_eq_none_iff]
  exact and_iff_right rfl

namespace Geocoder

variable {geocoder : Geocoder K} {p : Coord K} {matched : Place K} {distance : K}

/-- Whether or not there is a place within the radius, one is selected from those there are. -/
theorem nearestMatch?_eq_select (geocoder : Geocoder K) (p : Coord K) :
    geocoder.nearestMatch? p =
      (Candidate.select geocoder.suitability
        ((geocoder.index.candidates p geocoder.maxCandidates).takeWhile fun candidate =>
          candidate.distance ≤ geocoder.maxRadius)).map fun best =>
            (best.place, best.distance) := by
  rw [nearestMatch?, SpatialIndex.nearest]
  cases (geocoder.index.candidates p geocoder.maxCandidates).takeWhile fun candidate =>
    candidate.distance ≤ geocoder.maxRadius with
  | nil => rfl
  | cons candidate rest => rfl

theorem mem_of_nearestMatch? (found : geocoder.nearestMatch? p = some (matched, distance)) :
    matched ∈ geocoder.store.toList := by
  unfold nearestMatch? at found
  split at found
  · contradiction
  · rename_i candidates near
    obtain ⟨best, selected, same⟩ := Option.map_eq_some_iff.mp found
    obtain ⟨rfl, rfl⟩ := Prod.mk.inj same
    have among : best ∈ candidates := by
      rcases Candidate.mem_of_selectFrom selected with none | among
      · contradiction
      · exact among
    rw [geocoder.indexed] at near
    exact SpatialIndex.mem_of_mem_nearest near among

theorem mem_of_areaMatch? (found : geocoder.areaMatch? p = some (matched, distance)) :
    matched ∈ geocoder.store.toList := by
  obtain ⟨place, best, same⟩ := Option.map_eq_some_iff.mp found
  obtain ⟨rfl, rfl⟩ := Prod.mk.inj same
  have member := Place.mem_of_foremost? best
  exact (List.mem_filter.mp (List.mem_filter.mp member).1).1

/-- The place that is matched to a point is a place of the store. -/
theorem mem_of_findMatch? (found : geocoder.findMatch? p = some (matched, distance)) :
    matched ∈ geocoder.store.toList := by
  simp only [findMatch?, Option.orElse_eq_orElse, Option.orElse_eq_or,
    Option.or_eq_some_iff] at found
  rcases found with near | ⟨_, area⟩
  · exact mem_of_nearestMatch? near
  · exact mem_of_areaMatch? area

/-! ## The levels that are kept -/

/-- The levels of the chain of the match that the zoom of a request keeps; none without a
match. -/
def retained (geocoder : Geocoder K) (request : Request K) : List ChainEntry :=
  match geocoder.findMatch? request.position with
  | none => []
  | some (matched, _) =>
    geocoder.zoom.truncate (Chain.build geocoder.store matched geocoder.maxChainLength)
      request.zoom

theorem retained_of_findMatch?_eq_none (request : Request K)
    (nothing : geocoder.findMatch? request.position = none) :
    geocoder.retained request = [] := by
  rw [retained, nothing]

theorem retained_of_findMatch? (request : Request K)
    (found : geocoder.findMatch? request.position = some (matched, distance)) :
    geocoder.retained request =
      geocoder.zoom.truncate (Chain.build geocoder.store matched geocoder.maxChainLength)
        request.zoom := by
  rw [retained, found]

theorem resolve_of_findMatch?_eq_none {request : Request K} (valid : request.validate = .ok ())
    (nothing : geocoder.findMatch? request.position = none) :
    geocoder.resolve request = .error .noCoverage := by
  simp [resolve, valid, nothing, bind, Except.bind]

/-- An answer describes the first level that is kept, in the order of the levels kept. -/
theorem resolve_eq_ok_iff {request : Request K} {answer : Answer K} :
    geocoder.resolve request = .ok answer ↔
      request.validate = .ok () ∧ ∃ matched distance place,
        geocoder.findMatch? request.position = some (matched, distance) ∧
        ((geocoder.retained request).head?.bind fun entry => geocoder.store.get? entry.id) =
          some place ∧
        geocoder.describe request place
            (if place.id = matched.id then distance else place.distance request.position)
            (geocoder.retained request)
            (Chain.build geocoder.store matched geocoder.maxChainLength).truncated = answer := by
  unfold resolve
  cases request.validate with
  | error failure => simp [bind, Except.bind]
  | ok valid =>
      cases found : geocoder.findMatch? request.position with
      | none => simp [bind, Except.bind]
      | some pair =>
          obtain ⟨matched, distance⟩ := pair
          rw [retained_of_findMatch? request found]
          simp only [bind, Except.bind, Geocoder.answer]
          generalize geocoder.zoom.truncate _ request.zoom = levels
          cases levels.head?.bind fun entry => geocoder.store.get? entry.id with
          | none => simp
          | some place => simp

end Geocoder

end Gazetteer
