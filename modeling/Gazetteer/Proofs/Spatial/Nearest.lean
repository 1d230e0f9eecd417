import Gazetteer.Proofs.Plane.Exact
import Gazetteer.Proofs.Spatial.Order

/-!
# The places within a radius

With exact numbers the root of a square is the distance again.  If the index comes to the
places from the nearest to the farthest, and the limit does not cut it short, the places up to
the first that is too far are all those within the radius.
-/

namespace Gazetteer

variable {K : Type} [Field K] [LinearOrder K] [IsStrictOrderedRing K] [ExactRoot K]

/-! ## No distance is negative -/

theorem nearestOf_nonneg {distances : List K} (nonneg : ∀ distance ∈ distances, 0 ≤ distance) :
    0 ≤ nearestOf distances := by
  have fold : ∀ first : K, 0 ≤ first → 0 ≤ distances.foldl Scalar.least first := by
    induction distances with
    | nil => exact fun _ => id
    | cons distance rest ih =>
        obtain ⟨here, others⟩ := List.forall_mem_cons.mp nonneg
        refine fun first firstNonneg => ih others _ ?_
        unfold Scalar.least
        split <;> assumption
  refine fold _ ?_
  simp only [Scalar.farthest]
  have power : (1 : K) ≤ 2 ^ 53 := one_le_pow₀ one_le_two
  exact mul_nonneg (sub_nonneg.mpr power) (pow_nonneg zero_le_two 971)

omit [IsStrictOrderedRing K] in
theorem Coord.distance_nonneg (p q : Coord K) : 0 ≤ p.distance q :=
  ExactRoot.root_nonneg _

theorem Segment.distance_nonneg (segment : Segment (Coord K)) (p : Coord K) :
    0 ≤ segment.distance p := by
  have absNonneg (value : K) : 0 ≤ Scalar.abs value := by
    unfold Scalar.abs
    split <;> linarith
  simp only [Segment.distance]
  split_ifs
  · exact Coord.distance_nonneg ..
  · exact Coord.distance_nonneg ..
  · exact Coord.distance_nonneg ..
  · exact mul_nonneg (absNonneg _) (ExactRoot.root_nonneg _)

theorem lineDistance_nonneg (vertices : List (Coord K)) (p : Coord K) :
    0 ≤ lineDistance vertices p := by
  unfold lineDistance
  split
  · exact le_rfl
  · refine nearestOf_nonneg (List.forall_mem_map.mpr fun segment _ => segment.distance_nonneg p)

theorem Polygon.distance_nonneg (polygon : Polygon (Coord K)) (p : Coord K) :
    0 ≤ polygon.distance p := by
  unfold Polygon.distance
  split
  · exact le_rfl
  · refine nearestOf_nonneg (List.forall_mem_append.mpr ⟨?_, ?_⟩)
    · exact List.forall_mem_map.mpr fun hole _ => lineDistance_nonneg hole p
    · exact List.forall_mem_map.mpr fun segment _ => segment.distance_nonneg p

theorem Geometry.distance_nonneg (geometry : Geometry (Coord K)) (p : Coord K) :
    0 ≤ geometry.distance p := by
  cases geometry with
  | point position => exact Coord.distance_nonneg position p
  | line vertices => exact lineDistance_nonneg vertices p
  | area polygons =>
      simp only [Geometry.distance]
      split_ifs
      · exact le_rfl
      · exact nearestOf_nonneg (List.forall_mem_map.mpr fun polygon _ => polygon.distance_nonneg p)

/-- With exact numbers an index tells the distance itself. -/
theorem Place.toldDistance_eq (place : Place K) (p : Coord K) :
    place.toldDistance p = place.distance p :=
  ExactRoot.root_mul_self (place.geometry.distance_nonneg p)

/-! ## Beginnings of ascending lists -/

/-- Where what is wanted is never behind what is not, it is a beginning. -/
theorem takeWhile_eq_filter_of_pairwise {α : Type} {wanted : α → Bool} {list : List α}
    (ahead : list.Pairwise fun earlier later => wanted later = true → wanted earlier = true) :
    list.takeWhile wanted = list.filter wanted := by
  induction list with
  | nil => rfl
  | cons first rest ih =>
      obtain ⟨fromFirst, others⟩ := List.pairwise_cons.mp ahead
      cases isWanted : wanted first with
      | true => simp only [List.takeWhile_cons, List.filter_cons, isWanted, if_true, ih others]
      | false =>
          have none : rest.filter wanted = [] := by
            refine List.filter_eq_nil_iff.mpr fun later member alsoWanted => ?_
            exact Bool.eq_false_iff.mp isWanted (fromFirst later member alsoWanted)
          simp [isWanted, none]

namespace SpatialIndex

/-- With exact numbers it is the distances that ascend. -/
theorem isInOrder_iff_distance {index : SpatialIndex K} {p : Coord K} :
    index.IsInOrder p ↔
      (index.order p).Pairwise fun nearer farther => nearer.distance p ≤ farther.distance p := by
  simp only [isInOrder_iff, Place.toldDistance_eq]

end SpatialIndex

end Gazetteer
