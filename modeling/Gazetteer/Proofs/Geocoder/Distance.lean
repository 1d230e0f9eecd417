import Gazetteer.Proofs.Geocoder.Match
import Gazetteer.Proofs.Spatial.Order
import Gazetteer.Proofs.Store

/-!
# The distance of an answer

Three rules give an answer its distance: the root of a square if the answer is the nearest
suitable place, zero if it is an area around the point, and a fresh measurement if the zoom
left a wider place than the match.  All of them give the distance of the place that the answer
describes, as long as the roots of squares of distances are exact.
-/

namespace Gazetteer

variable {K : Type} [Scalar K]

/-- The distances from a point to the places of a store are the roots of their squares. -/
def Store.HasRoots (store : Store K) (p : Coord K) : Prop :=
  ∀ place ∈ store.toList, Scalar.sqrt (place.distance p * place.distance p) = place.distance p

/-- An answer whose place is stored under its number, at the distance of the answer. -/
structure Answer.IsMeasured (answer : Answer K) (store : Store K) (p : Coord K) : Prop where
  stored : store.get? answer.place.id = some answer.place
  distance : answer.distance = answer.place.distance p

/-- An area is at distance zero of every point that it contains. -/
theorem Place.distance_of_contains {place : Place K} {p : Coord K}
    (contains : place.contains p = true) : place.distance p = 0 := by
  unfold Place.contains at contains
  split at contains
  · rename_i polygons shape
    rw [Place.distance, shape, Geometry.distance, if_pos contains]
  · contradiction

/-- A candidate stands at the root of the square of its place's distance. -/
theorem SpatialIndex.distance_of_mem_candidates {index : SpatialIndex K} {p : Coord K}
    {limit : Nat} {candidate : Candidate K} (member : candidate ∈ index.candidates p limit) :
    candidate.distance = candidate.place.toldDistance p := by
  rw [candidates_eq] at member
  obtain ⟨place, _, rfl⟩ := List.mem_map.mp member
  rfl

namespace Geocoder

variable {geocoder : Geocoder K} {p : Coord K} {matched : Place K} {distance : K}

/-! ## The match -/

theorem distance_of_nearestMatch? (roots : geocoder.store.HasRoots p)
    (found : geocoder.nearestMatch? p = some (matched, distance)) :
    distance = matched.distance p := by
  have stored := mem_of_nearestMatch? found
  rw [nearestMatch?_eq_select] at found
  obtain ⟨best, selected, same⟩ := Option.map_eq_some_iff.mp found
  cases same
  rcases Candidate.mem_of_selectFrom selected with none | near
  · contradiction
  · have measured := SpatialIndex.distance_of_mem_candidates
      ((List.takeWhile_sublist _).subset near)
    exact measured.trans (roots best.place stored)

theorem distance_of_areaMatch? (found : geocoder.areaMatch? p = some (matched, distance)) :
    distance = matched.distance p := by
  obtain ⟨area, best, same⟩ := Option.map_eq_some_iff.mp found
  cases same
  have around := (List.mem_filter.mp (Place.mem_of_foremost? best)).1
  have contains := (Bool.and_eq_true_iff.mp (List.mem_filter.mp around).2).2
  exact (Place.distance_of_contains contains).symm

/-- Whichever way a place is matched, it is matched at its distance. -/
theorem distance_of_findMatch? (roots : geocoder.store.HasRoots p)
    (found : geocoder.findMatch? p = some (matched, distance)) :
    distance = matched.distance p := by
  simp only [findMatch?, Option.orElse_eq_orElse, Option.orElse_eq_or,
    Option.or_eq_some_iff] at found
  rcases found with near | ⟨_, area⟩
  · exact distance_of_nearestMatch? roots near
  · exact distance_of_areaMatch? area

/-! ## The answer -/

/-- An answer about a match at its distance is measured, whichever levels the chain has. -/
theorem isMeasured_of_answer {request : Request K} {chain : Chain} {answer : Answer K}
    (stored : matched ∈ geocoder.store.toList)
    (measured : distance = matched.distance request.position)
    (answered : geocoder.answer request matched distance chain = .ok answer) :
    answer.IsMeasured geocoder.store request.position := by
  cases first : (geocoder.zoom.truncate chain request.zoom).head?.bind
      fun entry => geocoder.store.get? entry.id with
  | none =>
      simp only [Geocoder.answer, first] at answered
      contradiction
  | some place =>
      simp only [Geocoder.answer, first] at answered
      cases answered
      obtain ⟨entry, _, listed⟩ := Option.bind_eq_some_iff.mp first
      have member := Store.mem_of_get? listed
      constructor
      · exact Store.get?_id_of_mem member
      · by_cases same : place.id = matched.id
        · cases Store.eq_of_id_eq member stored same
          exact (if_pos rfl).trans measured
        · exact if_neg same

/-- The distance of an answer is the distance from the point to the place that is stored under
the number of the answer: at every zoom, and whatever chains are remembered. -/
theorem isMeasured_of_resolve (geocoder : Geocoder K) (request : Request K)
    (roots : geocoder.store.HasRoots request.position) {answer : Answer K} :
    (geocoder.resolve request = .ok answer →
        answer.IsMeasured geocoder.store request.position) ∧
      ∀ hierarchy, (geocoder.resolveWith hierarchy request).1 = .ok answer →
        answer.IsMeasured geocoder.store request.position := by
  unfold resolve resolveWith
  cases request.validate with
  | error failure => exact ⟨nofun, fun _ => nofun⟩
  | ok _ =>
      cases found : geocoder.findMatch? request.position with
      | none => exact ⟨nofun, fun _ => nofun⟩
      | some pair =>
          have stored := mem_of_findMatch? found
          have measured := distance_of_findMatch? roots found
          constructor
          · intro resolved
            exact isMeasured_of_answer stored measured resolved
          · intro hierarchy resolved
            exact isMeasured_of_answer stored measured resolved

/-- A square, and a house beside it that belongs to it. -/
def plaza : Store Float :=
  ⟨#[{ Place.pin 0 16 [] with
        geometry := .area [⟨[⟨0, 0⟩, ⟨3, 0⟩, ⟨3, 3⟩, ⟨0, 3⟩, ⟨0, 0⟩], []⟩]
        bounds := ⟨0, 0, 3, 3⟩ },
    { Place.pin 1 30 [0] with
        geometry := .point ⟨6, 8⟩
        bounds := ⟨6, 8, 6, 8⟩
        searchRank := 30 }], rfl⟩

def plazaGeocoder : Geocoder Float where
  store := plaza
  index := plaza.index
  suitability := ⟨26, []⟩
  zoom := .standard
  maxCandidates := 64
  maxRadius := 2
  maxChainLength := 32

/-- A question about the point one degree below the house and five degrees off the square. -/
def besidePlaza : Request Float where
  lat := 7
  lon := 6
  tolerance := 0

/-- Questions with the number and the distance of the place in their answers: the house is the
nearest place, at a lower zoom it gives way to the square, and on the square there is no house
within the radius. -/
def plazaAnswers : List (Request Float × PlaceId × Float) :=
  [(besidePlaza, 1, 1), ({ besidePlaza with zoom := 12 }, 0, 5),
    ({ besidePlaza with lat := 1, lon := 1 }, 0, 0)]

theorem isMeasured_of_resolve_plaza :
    (∀ told ∈ plazaAnswers, plaza.HasRoots told.1.position) ∧
      ∀ told ∈ plazaAnswers, ∃ answer, plazaGeocoder.resolve told.1 = .ok answer ∧
        answer.IsMeasured plaza told.1.position ∧
        (answer.place.id, answer.distance) = told.2 := by
  have roots : ∀ told ∈ plazaAnswers, plaza.HasRoots told.1.position := by
    unfold Store.HasRoots
    decide +kernel
  have answers : ∀ told ∈ plazaAnswers, (plazaGeocoder.resolve told.1).toOption.map
      (fun answer => (answer.place.id, answer.distance)) = some told.2 := by
    decide +kernel
  refine ⟨roots, fun told member => ?_⟩
  obtain ⟨answer, found, same⟩ := Option.map_eq_some_iff.mp (answers told member)
  have resolved : plazaGeocoder.resolve told.1 = .ok answer := by
    cases outcome : plazaGeocoder.resolve told.1 with
    | ok other =>
        rw [outcome] at found
        exact congrArg Except.ok (Option.some.inj found)
    | error failure =>
        rw [outcome] at found
        contradiction
  exact ⟨answer, resolved,
    (isMeasured_of_resolve plazaGeocoder told.1 (roots told member)).1 resolved, same⟩

end Geocoder

end Gazetteer
