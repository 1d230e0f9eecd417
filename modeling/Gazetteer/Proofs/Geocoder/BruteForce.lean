import Gazetteer.Proofs.Plane.Covering
import Gazetteer.Proofs.Spatial.Ascent
import Gazetteer.Proofs.Geocoder.Failing
import Gazetteer.Proofs.Store
import Gazetteer.Proofs.Zoom
import Mathlib.Data.List.MinMax

/-!
# A match is what a search through the whole store finds

The index, the radius, the limit and the band of ties are there to be fast and to forgive
rounding.  With exact numbers, an index that comes to the nearest places first, a limit that
is no limit within the radius and distances that are either equal or clearly apart, none of
them is seen: the answer is the least of all suitable places within the radius, or else the
tightest area around the point.

Areas are looked for by their boxes, so their rings have to be closed.  An open ring winds
around points beside its box as well, and from there its area is not found.
-/

namespace Gazetteer

namespace Geocoder

section Scalar

variable {K : Type} [Scalar K] {geocoder : Geocoder K}

/-! ## From a match to an answer -/

end Scalar

end Geocoder

section Exact

variable {K : Type} [Field K] [LinearOrder K] [ExactRoot K]

/-! ## The order of answers -/

/-- Of some candidates, one is not farther than any other and preceded by none at its
distance. -/
theorem Candidate.exists_least (candidates : List (Candidate K)) (nonempty : candidates ≠ []) :
    ∃ least ∈ candidates, ∀ rival ∈ candidates, least.distance ≤ rival.distance ∧
      (rival.distance = least.distance → rival.place.precedes least.place = false) := by
  obtain ⟨nearest, isNearest⟩ : ∃ nearest, nearest ∈ candidates.argmin Candidate.distance :=
    Option.ne_none_iff_exists'.mp (mt List.argmin_eq_none.mp nonempty)
  let level := candidates.filter fun candidate => candidate.distance = nearest.distance
  have among : nearest ∈ level := by
    simpa [level] using List.argmin_mem isNearest
  obtain ⟨best, found⟩ : ∃ best, Place.foremost? (level.map Candidate.place) = some best := by
    refine Option.ne_none_iff_exists'.mp (mt Place.foremost?_eq_none_iff.mp ?_)
    simpa using List.ne_nil_of_mem among
  obtain ⟨least, isLeast, rfl⟩ := List.mem_map.mp (Place.mem_of_foremost? found)
  obtain ⟨member, onNearest⟩ := List.mem_filter.mp isLeast
  have same : least.distance = nearest.distance := of_decide_eq_true onNearest
  refine ⟨least, member, fun rival isRival => ⟨?_, fun equal => ?_⟩⟩
  · rw [same]
    exact List.le_of_mem_argmin isRival isNearest
  · have onLevel : rival ∈ level := by simpa [level, isRival] using equal.trans same
    exact Place.precedes_foremost?_eq_false found (List.mem_map_of_mem onLevel)

namespace Geocoder

variable {geocoder : Geocoder K} {p : Coord K}

/-! ## The nearest suitable place -/

/-- The places within the radius, as the index comes to them. -/
def near (geocoder : Geocoder K) (p : Coord K) : List (Candidate K) :=
  ((geocoder.index.order p).filter fun place => place.distance p ≤ geocoder.maxRadius).map
    fun place => ⟨place, place.distance p⟩

variable [IsStrictOrderedRing K]

end Geocoder

end Exact

namespace Geocoder

/-! ## Three houses on a green -/

/-- A question about a point. -/
def asking {K : Type} [Scalar K] (p : Coord K) : Request K where
  lat := p.y
  lon := p.x
  tolerance := 0

section Scalar

variable {K : Type} [Scalar K]

end Scalar

end Geocoder

end Gazetteer
