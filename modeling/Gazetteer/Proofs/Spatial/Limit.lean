import Gazetteer.Proofs.Plane.Comparison
import Gazetteer.Proofs.Spatial.Ascent

/-!
# What a limited lookup comes to

A lookup ends after a number of places, of whatever sort they are, and not only at a radius.
So a place within the radius is found exactly if it is among the first that the index comes
to.  In an index that comes to the nearest places first, that is so if there are no more places
up to its distance than the limit, and it is not so if there are as many that are nearer.
Among the places that a lookup comes to, the first of a sort is the nearest of its sort among
all places, also among those that the lookup does not come to.

This holds of binary64 as well as of exact numbers: of distances it is only asked that those
that compare with one another are in order.
-/

namespace Gazetteer

/-- What is asked of distances: those that compare are in order, and what compares with
anything is as great as itself. -/
class DistanceOrder (K : Type) [Scalar K] : Prop where
  le_self : ∀ {first second : K}, first ≤ second → first ≤ first
  le_trans : ∀ {first second third : K}, first ≤ second → second ≤ third → first ≤ third
  lt_of_le_of_lt : ∀ {first second third : K}, first ≤ second → second < third → first < third
  lt_irrefl : ∀ value : K, ¬ value < value

instance {K : Type} [Field K] [LinearOrder K] [ExactRoot K] : DistanceOrder K where
  le_self {first _} _ := le_refl first
  le_trans := le_trans
  lt_of_le_of_lt := lt_of_le_of_lt
  lt_irrefl := lt_irrefl

instance : DistanceOrder Float where
  le_self notMore := by
    obtain ⟨low, isLow, _⟩ := Binary64.le_iff.mp notMore
    exact Binary64.le_iff.mpr ⟨low, isLow, low, isLow, le_rfl⟩
  le_trans notMore again := by
    obtain ⟨low, isLow, middle, isMiddle, notMore⟩ := Binary64.le_iff.mp notMore
    obtain ⟨middle', isMiddle', high, isHigh, again⟩ := Binary64.le_iff.mp again
    obtain rfl := Option.mem_unique isMiddle isMiddle'
    exact Binary64.le_iff.mpr ⟨low, isLow, high, isHigh, notMore.trans again⟩
  lt_of_le_of_lt notMore less := by
    obtain ⟨low, isLow, middle, isMiddle, notMore⟩ := Binary64.le_iff.mp notMore
    obtain ⟨middle', isMiddle', high, isHigh, less⟩ := Binary64.lt_iff.mp less
    obtain rfl := Option.mem_unique isMiddle isMiddle'
    exact Binary64.lt_iff.mpr ⟨low, isLow, high, isHigh, notMore.trans_lt less⟩
  lt_irrefl := FloatingOrder.irrefl

/-! ## Beginnings of a list -/

section Beginnings

variable {α : Type} {wanted : α → Bool} {list : List α} {each : α} {limit : Nat}

/-- What is wanted is at the beginning where not more than that many are wanted. -/
theorem mem_take_of_countP_le
    (ahead : list.Pairwise fun earlier later => wanted later = true → wanted earlier = true)
    (member : each ∈ list) (isWanted : wanted each = true) (few : list.countP wanted ≤ limit) :
    each ∈ list.take limit := by
  have beginning : list.filter wanted <+: list :=
    takeWhile_eq_filter_of_pairwise ahead ▸ List.takeWhile_prefix wanted
  have short : (list.filter wanted).length ≤ limit := List.countP_eq_length_filter ▸ few
  have within : list.filter wanted <+: list.take limit :=
    List.prefix_take_iff.mpr ⟨beginning, short⟩
  exact within.subset (List.mem_filter.mpr ⟨member, isWanted⟩)

/-- Where something else is at the beginning, not that many are wanted. -/
theorem countP_lt_of_mem_take
    (ahead : list.Pairwise fun earlier later => wanted later = true → wanted earlier = true)
    (member : each ∈ list.take limit) (unwanted : wanted each = false) :
    list.countP wanted < limit := by
  have beginning : list.filter wanted <+: list :=
    takeWhile_eq_filter_of_pairwise ahead ▸ List.takeWhile_prefix wanted
  by_contra many
  -- two beginnings of one list: the shorter lies within the longer
  have long : (list.take limit).length ≤ (list.filter wanted).length :=
    calc (list.take limit).length ≤ limit := List.length_take_le ..
      _ ≤ list.countP wanted := not_lt.mp many
      _ = (list.filter wanted).length := List.countP_eq_length_filter
  have within := List.prefix_of_prefix_length_le (List.take_prefix limit list) beginning long
  have isWanted := (List.mem_filter.mp (within.subset member)).2
  exact Bool.eq_false_iff.mp unwanted isWanted

end Beginnings

variable {K : Type} [Scalar K]

/-! ## Places that are nearer -/

namespace Place

/-- The number of places that are nearer to a point than a place. -/
def countNearer (places : List (Place K)) (p : Coord K) (place : Place K) : Nat :=
  places.countP fun other => other.toldDistance p < place.toldDistance p

/-- The number of places that are not farther from a point than a place. -/
def countNotFarther (places : List (Place K)) (p : Coord K) (place : Place K) : Nat :=
  places.countP fun other => other.toldDistance p ≤ place.toldDistance p

end Place

namespace SpatialIndex

variable {index : SpatialIndex K} {p : Coord K} {limit : Nat} {radius : K}

/-- The place is among the first that the index comes to. -/
def Reaches (index : SpatialIndex K) (p : Coord K) (limit : Nat) (place : Place K) : Prop :=
  place ∈ (index.order p).take limit

theorem mem_of_reaches {places : List (Place K)} {place : Place K}
    (reached : (ofPlaces places).Reaches p limit place) : place ∈ places :=
  mem_order_iff.mp (List.mem_of_mem_take reached)

variable [DistanceOrder K]

/-- Up to the first place that is too far, there are just the places within the radius. -/
theorem IsInOrder.takeWhile_candidates (inOrder : index.IsInOrder p) (limit : Nat) (radius : K) :
    ((index.candidates p limit).takeWhile fun candidate => candidate.distance ≤ radius) =
      (((index.order p).take limit).filter fun place => place.toldDistance p ≤ radius).map
        fun place => ⟨place, place.toldDistance p⟩ := by
  have ahead : (index.candidates p limit).Pairwise fun nearer farther =>
      decide (farther.distance ≤ radius) = true → decide (nearer.distance ≤ radius) = true := by
    refine (inOrder limit).imp ?_
    intro nearer farther notFarther within
    exact decide_eq_true (DistanceOrder.le_trans notFarther (of_decide_eq_true within))
  rw [takeWhile_eq_filter_of_pairwise ahead, candidates_eq, List.filter_map]
  rfl

/-- The first place of a sort that a lookup comes to is the nearest of all that are of it. -/
theorem IsInOrder.toldDistance_le_of_find? (inOrder : index.IsInOrder p) {sort : Place K → Bool}
    (near : ∀ place, sort place = true → place.toldDistance p ≤ radius) {first : Place K}
    (found : ((index.order p).take limit).find? sort = some first) {other : Place K}
    (member : other ∈ index.order p) (isSort : sort other = true) :
    first.toldDistance p ≤ other.toldDistance p := by
  have inWhole : (index.order p).find? sort = some first := by
    rw [← List.take_append_drop limit (index.order p), List.find?_append, found, Option.some_or]
  obtain ⟨firstIsSort, before, behind, split, unsorted⟩ :=
    List.find?_eq_some_iff_append.mp inWhole
  have ascending := isInOrder_iff.mp inOrder
  rw [split] at member ascending
  rcases List.mem_append.mp member with earlier | later
  · have noSort := unsorted other earlier
    rw [isSort] at noSort
    contradiction
  · rcases List.mem_cons.mp later with rfl | later
    · exact DistanceOrder.le_self (near other isSort)
    · exact (List.pairwise_cons.mp (List.pairwise_append.mp ascending).2.1).1 other later

/-! ## Which places are reached -/

section Crowds

variable {places : List (Place K)} {place : Place K}

/-- A place is reached where there are no more places up to its distance than the limit. -/
theorem IsInOrder.reaches_of_countNotFarther_le (inOrder : (ofPlaces places).IsInOrder p)
    (member : place ∈ places) (within : place.toldDistance p ≤ radius)
    (few : Place.countNotFarther places p place ≤ limit) :
    (ofPlaces places).Reaches p limit place := by
  have ahead : ((ofPlaces places).order p).Pairwise fun nearer farther =>
      decide (farther.toldDistance p ≤ place.toldDistance p) = true →
        decide (nearer.toldDistance p ≤ place.toldDistance p) = true := by
    refine (isInOrder_iff.mp inOrder).imp ?_
    intro nearer farther notFarther near
    exact decide_eq_true (DistanceOrder.le_trans notFarther (of_decide_eq_true near))
  exact mem_take_of_countP_le ahead (mem_order_iff.mpr member)
    (decide_eq_true (DistanceOrder.le_self within))
    (((order_perm places p).countP_eq _).trans_le few)

/-- A place that is reached has fewer nearer ones than the limit. -/
theorem IsInOrder.countNearer_lt_of_reaches (inOrder : (ofPlaces places).IsInOrder p)
    (reached : (ofPlaces places).Reaches p limit place) :
    Place.countNearer places p place < limit := by
  have ahead : ((ofPlaces places).order p).Pairwise fun nearer farther =>
      decide (farther.toldDistance p < place.toldDistance p) = true →
        decide (nearer.toldDistance p < place.toldDistance p) = true := by
    refine (isInOrder_iff.mp inOrder).imp ?_
    intro nearer farther notFarther near
    exact decide_eq_true (DistanceOrder.lt_of_le_of_lt notFarther (of_decide_eq_true near))
  rw [Place.countNearer, ← (order_perm places p).countP_eq]
  exact countP_lt_of_mem_take ahead reached (decide_eq_false (DistanceOrder.lt_irrefl _))

end Crowds

end SpatialIndex

end Gazetteer
