import Gazetteer.Proofs.Address.Levels
import Gazetteer.Proofs.Geocoder.Match
import Gazetteer.Proofs.Zoom

/-!
# More detail

A more detailed zoom never loses anything: it answers whatever a coarser one answers, with
the levels of the coarser one behind perhaps some more, and with all lines of its address.
The delicate point is the change of the place that is described.  Where the two zooms differ
in their first level, that of the coarser one is not a building, because its rank is below
that of the other; so it has no lines that depend on being the first.
-/

namespace Gazetteer.Geocoder

variable {K : Type} [Scalar K] {geocoder : Geocoder K} {request : Request K}

theorem stored_of_mem_retained {entry : ChainEntry} (member : entry ∈ geocoder.retained request) :
    ∃ place, geocoder.store.get? entry.id = some place ∧ place.entry = entry := by
  cases found : geocoder.findMatch? request.position with
  | none =>
      rw [retained_of_findMatch?_eq_none request found] at member
      contradiction
  | some pair =>
      rw [retained_of_findMatch? request found] at member
      exact Chain.stored_of_mem_build (Store.get?_id_of_mem (mem_of_findMatch? found))
        ((ZoomTable.truncate_sublist ..).subset member)

/-- Ranks fall strictly along the levels that are kept. -/
theorem pairwise_retained (geocoder : Geocoder K) (request : Request K) :
    (geocoder.retained request).Pairwise fun lower upper => upper.rank < lower.rank := by
  cases found : geocoder.findMatch? request.position with
  | none =>
      rw [retained_of_findMatch?_eq_none request found]
      exact List.Pairwise.nil
  | some pair =>
      rw [retained_of_findMatch? request found]
      exact (Chain.pairwise_build ..).sublist (ZoomTable.truncate_sublist ..)

/-- The levels that a zoom keeps are a suffix of those kept at a more detailed one. -/
theorem retained_isSuffix (geocoder : Geocoder K) (request : Request K) {zoom detailed : Int}
    (le : zoom ≤ detailed) :
    geocoder.retained { request with zoom := zoom } <:+
      geocoder.retained { request with zoom := detailed } := by
  cases found : geocoder.findMatch? request.position with
  | none =>
      have nothing : ∀ zoom, geocoder.retained { request with zoom := zoom } = [] :=
        fun zoom => retained_of_findMatch?_eq_none { request with zoom := zoom } found
      exact ⟨[], (nothing zoom).trans (nothing detailed).symm⟩
  | some pair =>
      have kept : ∀ zoom, geocoder.retained { request with zoom := zoom } =
          geocoder.zoom.truncate
            (Chain.build geocoder.store pair.1 geocoder.maxChainLength) zoom :=
        fun zoom => retained_of_findMatch? { request with zoom := zoom } found
      rw [kept, kept]
      exact ZoomTable.truncate_isSuffix _ (Chain.pairwise_build ..) le

/-- The first level that is kept is stored. -/
theorem exists_first_of_ne_nil (nonempty : geocoder.retained request ≠ []) :
    ∃ place, ((geocoder.retained request).head?.bind fun entry =>
      geocoder.store.get? entry.id) = some place := by
  cases kept : geocoder.retained request with
  | nil => exact absurd kept nonempty
  | cons first rest =>
      obtain ⟨place, stored, _⟩ := stored_of_mem_retained (kept ▸ List.mem_cons_self)
      exact ⟨place, stored⟩

/-- A level behind another one is not a building where no rank is beyond that of buildings. -/
theorem isBuilding_eq_false_of_behind
    (ranked : ∀ place ∈ geocoder.store.toList, place.addressRank ≤ Rank.building)
    {before wider : List ChainEntry} (whole : before ++ wider = geocoder.retained request)
    (further : before ≠ []) {entry : ChainEntry} (member : entry ∈ wider) {place : Place K}
    (found : geocoder.store.get? entry.id = some place) : place.isBuilding = false := by
  have falls := pairwise_retained geocoder request
  rw [← whole] at falls
  obtain ⟨level, isBefore⟩ := List.exists_mem_of_ne_nil before further
  have behind : entry.rank < level.rank :=
    (List.pairwise_append.mp falls).2.2 level isBefore entry member
  obtain ⟨detailed, stored, rfl⟩ :=
    stored_of_mem_retained (whole ▸ List.mem_append_left wider isBefore)
  obtain ⟨own, ownStored, rfl⟩ :=
    stored_of_mem_retained (whole ▸ List.mem_append_right before member)
  obtain rfl := Option.some.inj (ownStored.symm.trans found)
  have bound : detailed.addressRank ≤ Rank.building := ranked detailed (Store.mem_of_get? stored)
  have below : own.addressRank < Rank.building := UInt8.lt_of_lt_of_le behind bound
  exact beq_eq_false_iff_ne.mpr (UInt8.ne_of_lt below)

/-- The address at a zoom is part of the address at a more detailed one. -/
theorem assemble_retained_sublist
    (ranked : ∀ place ∈ geocoder.store.toList, place.addressRank ≤ Rank.building)
    (request : Request K) {zoom detailed : Int} (le : zoom ≤ detailed) :
    ((Address.assemble geocoder.store (geocoder.retained { request with zoom := zoom })
        request.languages).lines.map AddressLine.unmarked).Sublist
      ((Address.assemble geocoder.store (geocoder.retained { request with zoom := detailed })
        request.languages).lines.map AddressLine.unmarked) := by
  obtain ⟨before, whole⟩ := retained_isSuffix geocoder request le
  cases before with
  | nil =>
      rw [← whole, List.nil_append]
  | cons level more =>
      refine Address.lines_sublist_of_isSuffix request.languages
        (List.IsSuffix.filterMap _ (retained_isSuffix geocoder request le)) ?_
      intro first isFirst
      obtain ⟨entry, member, found⟩ := List.mem_filterMap.mp (List.mem_of_mem_head? isFirst)
      exact isBuilding_eq_false_of_behind ranked whole (List.cons_ne_nil level more) member found

/-- Where no rank is beyond that of buildings, a more detailed zoom keeps the levels of a
coarser one at the end of its own, answers whatever that one answers, and has all the lines
of its address, apart from the mark of the place described. -/
theorem resolve_of_more_detail (geocoder : Geocoder K)
    (ranked : ∀ place ∈ geocoder.store.toList, place.addressRank ≤ Rank.building)
    (request : Request K) {zoom detailed : Int} (le : zoom ≤ detailed) :
    geocoder.retained { request with zoom := zoom } <:+
        geocoder.retained { request with zoom := detailed } ∧
      ∀ answer, geocoder.resolve { request with zoom := zoom } = .ok answer →
        ∃ finer, geocoder.resolve { request with zoom := detailed } = .ok finer ∧
          (request.addressDetails = true →
            ∃ lines more, answer.address = some lines ∧ finer.address = some more ∧
              (lines.map AddressLine.unmarked).Sublist (more.map AddressLine.unmarked)) := by
  refine ⟨retained_isSuffix geocoder request le, ?_⟩
  intro answer resolved
  obtain ⟨valid, matched, distance, place, found, first, rfl⟩ := resolve_eq_ok_iff.mp resolved
  have some_kept : geocoder.retained { request with zoom := detailed } ≠ [] := by
    intro empty
    have suffix := retained_isSuffix geocoder request le
    rw [empty, List.suffix_nil] at suffix
    rw [suffix] at first
    contradiction
  obtain ⟨finerPlace, finerFirst⟩ := exists_first_of_ne_nil some_kept
  refine ⟨_, resolve_eq_ok_iff.mpr
    ⟨valid, matched, distance, finerPlace, found, finerFirst, rfl⟩, ?_⟩
  intro details
  refine ⟨_, _, if_pos details, if_pos details, ?_⟩
  exact assemble_retained_sublist ranked request le

/-! ## A house on a street of a city -/

/-- Four levels at the origin, of which the house has a number and the country a code. -/
def crossroads : Store Float :=
  ⟨#[{ Place.pin 0 30 [1] with
        searchRank := 30, address := .ofList [("housenumber", "135"), ("postcode", "B72 1LH")] },
    { Place.pin 1 26 [2] with names := .ofList [("default", "Pilkington Avenue")] },
    { Place.pin 2 16 [3] with names := .ofList [("default", "Birmingham")] },
    { Place.pin 3 4 [] with
        names := .ofList [("default", "United Kingdom")], countryCode := some "gb" }], rfl⟩

def crossroadsGeocoder : Geocoder Float where
  store := crossroads
  index := crossroads.index
  suitability := ⟨26, []⟩
  zoom := .standard
  maxCandidates := 64
  maxRadius := 0.05
  maxChainLength := 32

def atOrigin : Request Float where
  lat := 0
  lon := 0
  tolerance := 0

theorem resolve_of_more_detail_crossroads :
    (∀ place ∈ crossroadsGeocoder.store.toList, place.addressRank ≤ Rank.building) ∧
      (16 : Int) ≤ 40 ∧
      ∃ answer finer lines more,
        crossroadsGeocoder.resolve { atOrigin with zoom := 16 } = .ok answer ∧
        crossroadsGeocoder.resolve { atOrigin with zoom := 40 } = .ok finer ∧
        answer.address = some lines ∧ finer.address = some more ∧
        (lines.map AddressLine.unmarked).Sublist (more.map AddressLine.unmarked) := by
  have ranked : ∀ place ∈ crossroadsGeocoder.store.toList,
      place.addressRank ≤ Rank.building := by
    decide +kernel
  have succeeds : (crossroadsGeocoder.resolve { atOrigin with zoom := 16 }).isOk = true := by
    decide +kernel
  obtain ⟨answer, resolved⟩ :
      ∃ answer, crossroadsGeocoder.resolve { atOrigin with zoom := 16 } = .ok answer := by
    cases resolved : crossroadsGeocoder.resolve { atOrigin with zoom := 16 } with
    | ok answer => exact ⟨answer, rfl⟩
    | error failure =>
        rw [resolved] at succeeds
        contradiction
  obtain ⟨_, finer⟩ := resolve_of_more_detail crossroadsGeocoder ranked atOrigin
    (show (16 : Int) ≤ 40 by decide)
  obtain ⟨finerAnswer, finerResolved, address⟩ := finer answer resolved
  obtain ⟨lines, more, own, finerOwn, part⟩ := address rfl
  exact ⟨ranked, by decide, answer, finerAnswer, lines, more, resolved, finerResolved, own,
    finerOwn, part⟩

end Gazetteer.Geocoder
