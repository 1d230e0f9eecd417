import Gazetteer.Proofs.Geocoder.Distance
import Gazetteer.Proofs.Geocoder.Failing
import Gazetteer.Proofs.Spatial.Limit

/-!
# Suitable places behind unsuitable ones

The limit of a lookup counts all places, and only then are the unsuitable ones left out.  So a
suitable place within the radius is matched exactly if one of them is among the places that are
examined.  Where unsuitable places are nearer and use up the limit, the point is matched as if
nothing suitable were within the radius.
-/

namespace Gazetteer.Geocoder

variable {K : Type} [Scalar K] {geocoder : Geocoder K} {p : Coord K} {place matched : Place K}
  {distance : K}

/-- A suitable place of the store within the radius. -/
structure IsEligibleNear (geocoder : Geocoder K) (p : Coord K) (place : Place K) : Prop where
  mem : place ∈ geocoder.store.toList
  isEligible : geocoder.suitability.isEligible place = true
  within : place.toldDistance p ≤ geocoder.maxRadius

/-- The place is among those that a lookup examines, suitable or not. -/
def Examines (geocoder : Geocoder K) (p : Coord K) (place : Place K) : Prop :=
  geocoder.index.Reaches p geocoder.maxCandidates place

theorem mem_of_examines (examined : geocoder.Examines p place) :
    place ∈ geocoder.store.toList := by
  rw [Examines, geocoder.indexed] at examined
  exact SpatialIndex.mem_of_reaches examined

variable [DistanceOrder K]

theorem mem_within_iff (inOrder : geocoder.index.IsInOrder p) {candidate : Candidate K} :
    candidate ∈ geocoder.within p ↔
      geocoder.Examines p candidate.place ∧
        candidate.place.toldDistance p ≤ geocoder.maxRadius ∧
        candidate.distance = candidate.place.toldDistance p := by
  rw [within, inOrder.takeWhile_candidates, List.mem_map]
  constructor
  · rintro ⟨place, member, rfl⟩
    obtain ⟨reached, near⟩ := List.mem_filter.mp member
    exact ⟨reached, of_decide_eq_true near, rfl⟩
  · rintro ⟨reached, near, told⟩
    refine ⟨candidate.place, List.mem_filter.mpr ⟨reached, decide_eq_true near⟩, ?_⟩
    rw [← told]

/-! ## The nearest suitable place -/

/-- The lookup comes to nothing where every suitable place within the radius is left out. -/
theorem nearestMatch?_eq_none_iff_examines (inOrder : geocoder.index.IsInOrder p) :
    geocoder.nearestMatch? p = none ↔
      ∀ place, geocoder.IsEligibleNear p place → ¬ geocoder.Examines p place := by
  rw [nearestMatch?_eq_none_iff]
  constructor
  · intro unsuitable place near examined
    have listed : ⟨place, place.toldDistance p⟩ ∈ geocoder.within p :=
      (mem_within_iff inOrder).mpr ⟨examined, near.within, rfl⟩
    exact Bool.eq_false_iff.mp (unsuitable _ listed) near.isEligible
  · intro left candidate listed
    obtain ⟨examined, near, _⟩ := (mem_within_iff inOrder).mp listed
    refine Bool.eq_false_iff.mpr fun isEligible => ?_
    exact left candidate.place ⟨mem_of_examines examined, isEligible, near⟩ examined

/-- What the lookup comes to is a suitable place within the radius, at its distance. -/
theorem isEligibleNear_of_nearestMatch? (inOrder : geocoder.index.IsInOrder p)
    (found : geocoder.nearestMatch? p = some (matched, distance)) :
    geocoder.IsEligibleNear p matched ∧ distance = matched.toldDistance p := by
  rw [nearestMatch?_eq_select] at found
  obtain ⟨best, selected, same⟩ := Option.map_eq_some_iff.mp found
  cases same
  have isEligible := Candidate.isEligible_of_selectFrom (by simp) selected
  rcases Candidate.mem_of_selectFrom selected with none | listed
  · contradiction
  · obtain ⟨examined, near, told⟩ := (mem_within_iff inOrder).mp listed
    exact ⟨⟨mem_of_examines examined, isEligible, near⟩, told⟩

/-! ## The match -/

/-- A point is matched to a suitable place within the radius, and not to an area around it,
exactly if such a place is among those examined; otherwise it is matched as if there were no
such place.  A place within the radius is examined where there are no more places up to its
distance than the limit, and it is not where there are as many that are nearer, suitable or
not. -/
theorem exists_isEligibleNear_findMatch?_iff (geocoder : Geocoder K) (p : Coord K)
    (inOrder : geocoder.index.IsInOrder p) :
    ((∃ place, geocoder.IsEligibleNear p place ∧
          geocoder.nearestMatch? p = some (place, place.toldDistance p) ∧
          geocoder.findMatch? p = some (place, place.toldDistance p)) ↔
        ∃ place, geocoder.IsEligibleNear p place ∧ geocoder.Examines p place) ∧
      ((∀ place, geocoder.IsEligibleNear p place → ¬ geocoder.Examines p place) →
        geocoder.findMatch? p = geocoder.areaMatch? p) ∧
      ∀ place, geocoder.IsEligibleNear p place →
        (Place.countNotFarther geocoder.store.toList p place ≤ geocoder.maxCandidates →
          geocoder.Examines p place) ∧
        (geocoder.Examines p place →
          Place.countNearer geocoder.store.toList p place < geocoder.maxCandidates) := by
  refine ⟨⟨?_, ?_⟩, ?_, ?_⟩
  · rintro ⟨place, _, found, _⟩
    by_contra none
    have nothing := (nearestMatch?_eq_none_iff_examines inOrder).mpr fun place near examined =>
      none ⟨place, near, examined⟩
    rw [found] at nothing
    contradiction
  · rintro ⟨place, near, examined⟩
    have something : geocoder.nearestMatch? p ≠ none := fun nothing =>
      (nearestMatch?_eq_none_iff_examines inOrder).mp nothing place near examined
    obtain ⟨⟨matched, distance⟩, found⟩ := Option.ne_none_iff_exists'.mp something
    obtain ⟨matchedNear, rfl⟩ := isEligibleNear_of_nearestMatch? inOrder found
    exact ⟨matched, matchedNear, found, by simp [findMatch?, found]⟩
  · intro left
    simp [findMatch?, (nearestMatch?_eq_none_iff_examines inOrder).mpr left]
  · intro place near
    have ordered := inOrder
    rw [geocoder.indexed] at ordered
    rw [Examines, geocoder.indexed]
    exact ⟨ordered.reaches_of_countNotFarther_le near.mem near.within,
      ordered.countNearer_lt_of_reaches⟩

/-! ## A house behind a field -/

/-- A place at a longitude on the equator, known by its ranks only. -/
def onEquator (id : PlaceId) (lon : Float) (search address : Rank) : Place Float where
  id := id
  element := .node
  elementId := 0
  category := "place"
  placeType := "locality"
  geometry := .point ⟨lon, 0⟩
  bounds := ⟨lon, 0, lon, 0⟩
  centroid := ⟨lon, 0⟩
  searchRank := search
  addressRank := address

/-- A field, which is in no address, and a house at some distance from it. -/
def fieldAndHouse : Store Float :=
  ⟨#[onEquator 0 0 25 0, onEquator 1 0.01 30 30], rfl⟩

/-- A geocoder that examines a number of places. -/
def examining (limit : Nat) : Geocoder Float where
  store := fieldAndHouse
  index := fieldAndHouse.index
  suitability := ⟨26, ["boundary", "landuse"]⟩
  zoom := .standard
  maxCandidates := limit
  maxRadius := 0.05
  maxChainLength := 32

theorem isInOrder_fieldAndHouse (limit : Nat) : (examining limit).index.IsInOrder ⟨0, 0⟩ :=
  SpatialIndex.isInOrder_iff.mpr
    (by decide +kernel : (fieldAndHouse.index.order ⟨0, 0⟩).Pairwise _)

theorem isEligibleNear_fieldAndHouse (limit : Nat) :
    (examining limit).IsEligibleNear ⟨0, 0⟩ (onEquator 1 0.01 30 30) where
  mem := .tail _ (.head _)
  isEligible := (by decide +kernel :
    Suitability.isEligible ⟨26, ["boundary", "landuse"]⟩ (onEquator 1 0.01 30 30) = true)
  within := (by decide +kernel :
    (onEquator 1 0.01 30 30).toldDistance ⟨0, 0⟩ ≤ 0.05)

/-- With two places examined the house is matched. -/
theorem exists_isEligibleNear_findMatch?_iff_examining_two :
    (examining 2).index.IsInOrder ⟨0, 0⟩ ∧
      ∃ place, (examining 2).IsEligibleNear ⟨0, 0⟩ place ∧
        (examining 2).findMatch? ⟨0, 0⟩ = some (place, place.toldDistance ⟨0, 0⟩) := by
  have inOrder := isInOrder_fieldAndHouse 2
  have near := isEligibleNear_fieldAndHouse 2
  obtain ⟨⟨_, isMatched⟩, _, examined⟩ :=
    exists_isEligibleNear_findMatch?_iff (examining 2) ⟨0, 0⟩ inOrder
  have few : Place.countNotFarther fieldAndHouse.toList ⟨0, 0⟩ (onEquator 1 0.01 30 30) ≤ 2 :=
    List.countP_le_length
  obtain ⟨place, isNear, _, found⟩ := isMatched ⟨_, near, (examined _ near).1 few⟩
  exact ⟨inOrder, place, isNear, found⟩

/-- With one place examined nothing is matched, though the house is suitable and within the
radius, and the settings are valid. -/
theorem findMatch?_eq_none_examining_one :
    (Geocoder.ofSettings fieldAndHouse { maxCandidates := 1 }).toOption = some (examining 1) ∧
      (examining 1).index.IsInOrder ⟨0, 0⟩ ∧
      (∃ place, (examining 1).IsEligibleNear ⟨0, 0⟩ place) ∧
      (examining 1).findMatch? ⟨0, 0⟩ = none := by
  refine ⟨rfl, isInOrder_fieldAndHouse 1, ⟨_, isEligibleNear_fieldAndHouse 1⟩, ?_⟩
  have nothing : ((examining 1).findMatch? ⟨0, 0⟩).isNone = true := by decide +kernel
  exact Option.isNone_iff_eq_none.mp nothing

end Gazetteer.Geocoder
