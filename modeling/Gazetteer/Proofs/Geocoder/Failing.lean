import Gazetteer.Proofs.Geocoder.Detail

/-!
# When there is no answer

A request fails for one of two reasons.  Its coordinate is not on the globe; or the geocoder
covers nothing there at the zoom that is asked for: nothing is matched, or every level around
the match is too detailed.  Because ranks fall along a chain, the last level alone decides
about that, and because every level is a stored place, nothing else can go wrong.  A chain
that was cut short is answered like any other and only leaves its mark on the answer.
-/

namespace Gazetteer

variable {K : Type} [Scalar K]

/-! ## The coordinate -/

/-- The coordinate is made of finite numbers, a latitude and a longitude. -/
structure Request.OnGlobe (request : Request K) : Prop where
  lat : Scalar.isFinite request.lat = true ∧ -90.0 ≤ request.lat ∧ request.lat ≤ 90.0
  lon : Scalar.isFinite request.lon = true ∧ -180.0 ≤ request.lon ∧ request.lon ≤ 180.0

/-- A coordinate is refused exactly if it is not on the globe. -/
theorem Request.validate_cases (request : Request K) :
    (request.OnGlobe ∧ request.validate = .ok ()) ∨
      (¬ request.OnGlobe ∧
        request.validate = .error (.invalidCoordinate request.lat request.lon)) := by
  have checked : (isWithin (90.0 : K) request.lat && isWithin (180.0 : K) request.lon) = true ↔
      request.OnGlobe := by
    simp only [isWithin, Bool.and_eq_true, decide_eq_true_eq]
    constructor
    · rintro ⟨lat, lon⟩
      exact ⟨lat, lon⟩
    · intro onGlobe
      exact ⟨onGlobe.lat, onGlobe.lon⟩
  rw [← checked, validate]
  split
  · rename_i accepted
    exact Or.inl ⟨accepted, rfl⟩
  · rename_i refused
    exact Or.inr ⟨refused, rfl⟩

namespace Geocoder

variable {geocoder : Geocoder K} {p : Coord K} {request : Request K} {matched : Place K}
  {distance : K}

/-! ## The match -/

/-- The candidates within the radius. -/
def within (geocoder : Geocoder K) (p : Coord K) : List (Candidate K) :=
  (geocoder.index.candidates p geocoder.maxCandidates).takeWhile fun candidate =>
    candidate.distance ≤ geocoder.maxRadius

/-- No candidate within the radius is suitable, and no area with a rank contains the point. -/
structure Uncovered (geocoder : Geocoder K) (p : Coord K) : Prop where
  unsuitable : ∀ candidate ∈ geocoder.within p,
    geocoder.suitability.isEligible candidate.place = false
  unranked : ∀ area ∈ geocoder.store.containing p, area.addressRank = 0

theorem nearestMatch?_eq_none_iff :
    geocoder.nearestMatch? p = none ↔ ∀ candidate ∈ geocoder.within p,
      geocoder.suitability.isEligible candidate.place = false := by
  rw [nearestMatch?_eq_select, Option.map_eq_none_iff, Candidate.select_eq_none_iff, within]

theorem areaMatch?_eq_none_iff :
    geocoder.areaMatch? p = none ↔
      ∀ area ∈ geocoder.store.containing p, area.addressRank = 0 := by
  rw [areaMatch?, Option.map_eq_none_iff, Place.foremost?_eq_none_iff, List.filter_eq_nil_iff]
  refine forall₂_congr fun area _ => ?_
  rw [decide_eq_true_eq, UInt8.not_lt, UInt8.le_zero_iff]

theorem findMatch?_eq_none_iff : geocoder.findMatch? p = none ↔ geocoder.Uncovered p := by
  simp only [findMatch?, Option.orElse_eq_orElse, Option.orElse_eq_or, Option.or_eq_none_iff,
    nearestMatch?_eq_none_iff, areaMatch?_eq_none_iff]
  constructor
  · rintro ⟨unsuitable, unranked⟩
    exact ⟨unsuitable, unranked⟩
  · intro uncovered
    exact ⟨uncovered.unsuitable, uncovered.unranked⟩

/-! ## The levels of the match -/

/-- The zoom is not the most detailed one, and even the last level around the match is too
detailed for it. -/
def TooDetailed (geocoder : Geocoder K) (request : Request K) (matched : Place K) : Prop :=
  ZoomTable.clamp request.zoom < ZoomTable.maxZoom ∧
    ∃ last, (Chain.build geocoder.store matched geocoder.maxChainLength).entries.getLast? =
        some last ∧
      geocoder.zoom.maxRank request.zoom < last.rank

theorem retained_eq_nil_iff
    (found : geocoder.findMatch? request.position = some (matched, distance)) :
    geocoder.retained request = [] ↔ geocoder.TooDetailed request matched := by
  obtain ⟨last, final⟩ : ∃ last, (Chain.build geocoder.store matched
      geocoder.maxChainLength).entries.getLast? = some last :=
    ⟨_, List.getLast?_eq_some_getLast (List.cons_ne_nil _ _)⟩
  rw [retained_of_findMatch? request found,
    ZoomTable.truncate_eq_nil_iff _ (Chain.pairwise_build ..) final, TooDetailed, final]
  simp

/-- That a chain was cut short is told in the answer and changes nothing else. -/
theorem answer_eq_map_answer (geocoder : Geocoder K) (request : Request K) (matched : Place K)
    (distance : K) (chain : Chain) :
    geocoder.answer request matched distance chain =
      (geocoder.answer request matched distance { chain with truncated := false }).map
        fun answer => { answer with hierarchyTruncated := chain.truncated } := by
  have sameLevels : geocoder.zoom.truncate { chain with truncated := false } request.zoom =
      geocoder.zoom.truncate chain request.zoom := rfl
  simp only [answer, sameLevels]
  cases (geocoder.zoom.truncate chain request.zoom).head?.bind fun entry =>
    geocoder.store.get? entry.id with
  | none => rfl
  | some place => rfl

theorem resolve_of_findMatch? (valid : request.validate = .ok ())
    (found : geocoder.findMatch? request.position = some (matched, distance)) :
    geocoder.resolve request = geocoder.answer request matched distance
      (Chain.build geocoder.store matched geocoder.maxChainLength) := by
  simp [resolve, valid, found, bind, Except.bind]

/-- An answer fails only where no level is kept. -/
theorem answer_cases
    (found : geocoder.findMatch? request.position = some (matched, distance)) :
    (geocoder.TooDetailed request matched ∧
        geocoder.answer request matched distance
          (Chain.build geocoder.store matched geocoder.maxChainLength) = .error .noCoverage) ∨
      (¬ geocoder.TooDetailed request matched ∧
        ∃ plain, geocoder.answer request matched distance
          { Chain.build geocoder.store matched geocoder.maxChainLength with
              truncated := false } = .ok plain) := by
  rw [← retained_eq_nil_iff found]
  by_cases empty : geocoder.retained request = []
  · refine Or.inl ⟨empty, ?_⟩
    rw [retained_of_findMatch? request found] at empty
    simp [answer, empty]
  · refine Or.inr ⟨empty, ?_⟩
    obtain ⟨place, first⟩ := exists_first_of_ne_nil empty
    rw [retained_of_findMatch? request found] at first
    change ((geocoder.zoom.truncate { Chain.build geocoder.store matched
      geocoder.maxChainLength with truncated := false } request.zoom).head?.bind _) = _ at first
    simp [answer, first]

/-! ## The whole request -/

/-- Nothing is matched, or the levels of the match are too detailed. -/
def NotCovered (geocoder : Geocoder K) (request : Request K) : Prop :=
  geocoder.Uncovered request.position ∨
    ∃ matched distance, geocoder.findMatch? request.position = some (matched, distance) ∧
      geocoder.TooDetailed request matched

theorem notCovered_iff_of_findMatch?
    (found : geocoder.findMatch? request.position = some (matched, distance)) :
    geocoder.NotCovered request ↔ geocoder.TooDetailed request matched := by
  constructor
  · rintro (uncovered | ⟨_, _, again, tooDetailed⟩)
    · rw [findMatch?_eq_none_iff.mpr uncovered] at found
      contradiction
    · obtain ⟨rfl, -⟩ := Prod.mk.inj (Option.some.inj (found.symm.trans again))
      exact tooDetailed
  · intro tooDetailed
    exact Or.inr ⟨matched, distance, found, tooDetailed⟩

/-- What becomes of a request. -/
inductive Outcome (geocoder : Geocoder K) (request : Request K) :
    Except (Failure K) (Answer K) → Prop where
  | refused (away : ¬ request.OnGlobe) :
      Outcome geocoder request (.error (.invalidCoordinate request.lat request.lon))
  | unanswered (onGlobe : request.OnGlobe) (notCovered : geocoder.NotCovered request) :
      Outcome geocoder request (.error .noCoverage)
  | answered {matched : Place K} {distance : K} {plain : Answer K} (onGlobe : request.OnGlobe)
      (covered : ¬ geocoder.NotCovered request)
      (found : geocoder.findMatch? request.position = some (matched, distance))
      (described : geocoder.answer request matched distance
        { Chain.build geocoder.store matched geocoder.maxChainLength with truncated := false } =
          .ok plain) :
      Outcome geocoder request (.ok { plain with hierarchyTruncated :=
        (Chain.build geocoder.store matched geocoder.maxChainLength).truncated })

theorem outcome_resolve (geocoder : Geocoder K) (request : Request K) :
    Outcome geocoder request (geocoder.resolve request) := by
  rcases request.validate_cases with ⟨onGlobe, valid⟩ | ⟨away, invalid⟩
  · cases found : geocoder.findMatch? request.position with
    | none =>
        rw [resolve_of_findMatch?_eq_none valid found]
        exact .unanswered onGlobe (Or.inl (findMatch?_eq_none_iff.mp found))
    | some pair =>
        obtain ⟨matched, distance⟩ := pair
        rw [resolve_of_findMatch? valid found]
        rcases answer_cases found with ⟨tooDetailed, fails⟩ | ⟨kept, plain, described⟩
        · rw [fails]
          exact .unanswered onGlobe (Or.inr ⟨matched, distance, found, tooDetailed⟩)
        · rw [answer_eq_map_answer, described]
          exact .answered onGlobe (mt (notCovered_iff_of_findMatch? found).mp kept) found
            described
  · have fails : geocoder.resolve request =
        .error (.invalidCoordinate request.lat request.lon) := by
      simp [resolve, invalid, bind, Except.bind]
    rw [fails]
    exact .refused away

/-- A request is refused exactly if its coordinate is not on the globe.  Otherwise it is
without coverage exactly if nothing is matched, or if the zoom is not the most detailed one
and the last level around the match is too detailed for it.  In every other case there is an
answer, on which the chain that is cut short leaves only its mark.  There is no other
failure. -/
theorem resolve_fails_iff (geocoder : Geocoder K) (request : Request K) :
    (geocoder.resolve request = .error (.invalidCoordinate request.lat request.lon) ↔
        ¬ request.OnGlobe) ∧
      (geocoder.resolve request = .error .noCoverage ↔
        request.OnGlobe ∧ geocoder.NotCovered request) ∧
      ((∃ answer, geocoder.resolve request = .ok answer) ↔
        request.OnGlobe ∧ ¬ geocoder.NotCovered request) ∧
      (∀ answer, geocoder.resolve request = .ok answer →
        ∃ matched distance plain,
          geocoder.findMatch? request.position = some (matched, distance) ∧
          geocoder.answer request matched distance
            { Chain.build geocoder.store matched geocoder.maxChainLength with
                truncated := false } = .ok plain ∧
          answer = { plain with hierarchyTruncated :=
            (Chain.build geocoder.store matched geocoder.maxChainLength).truncated }) ∧
      ∀ failure, geocoder.resolve request = .error failure →
        failure = .invalidCoordinate request.lat request.lon ∨ failure = .noCoverage := by
  have outcome := geocoder.outcome_resolve request
  generalize geocoder.resolve request = result at outcome
  cases outcome with
  | refused away => simp [away]
  | unanswered onGlobe notCovered => simp [onGlobe, notCovered]
  | answered onGlobe covered found described =>
      refine ⟨by simp [onGlobe], by simp [covered], by simp [onGlobe, covered], ?_, by simp⟩
      intro answer same
      exact ⟨_, _, _, found, described, (Except.ok.inj same).symm⟩

end Geocoder

end Gazetteer
