import Gazetteer.Proofs.Selection
import Gazetteer.Proofs.Spatial.Contents
import Gazetteer.Spatial

/-!
# The order of a visit

How many items a visit asks for only decides where it ends: the items come out in one order,
every one of them once, each with its own distance.  An index in order is one whose places
come out from the nearest to the farthest.
-/

namespace Gazetteer

namespace BoxTree

variable {K α : Type} [Scalar K]

namespace Queue

/-- The items of a queue in the order in which they come out. -/
def order (distance : BoxTree K α → K) (queue : Queue K α) : List α :=
  match queue with
  | [] => []
  | (_, .item value) :: rest => value :: order distance rest
  | (_, .branch _ children) :: rest => order distance (insertAll distance rest children)
termination_by queue.weight
decreasing_by
  · simp only [weight, List.map_cons, totalWeight, BoxTree.weight]
    omega
  · rw [weight_insertAll]
    simp only [weight, List.map_cons, totalWeight, BoxTree.weight]
    omega

/-- All that waits comes out, and nothing twice. -/
theorem order_perm (distance : BoxTree K α → K) (queue : Queue K α) :
    (order distance queue).Perm queue.contents := by
  fun_induction order distance queue with
  | case1 => exact .refl _
  | case2 nearest value rest ih => exact ih.cons value
  | case3 nearest bounds children rest ih =>
      exact ih.trans (contents_insertAll_perm distance rest children)

/-- Every tree waits at its own distance. -/
def IsMeasured (distance : BoxTree K α → K) (queue : Queue K α) : Prop :=
  ∀ entry ∈ queue, entry.1 = distance entry.2

theorem IsMeasured.insertAll {distance : BoxTree K α → K} {queue : Queue K α}
    (measured : queue.IsMeasured distance) (trees : List (BoxTree K α)) :
    (queue.insertAll distance trees).IsMeasured distance := by
  intro entry member
  rcases mem_insertAll_iff.mp member with ⟨tree, _, rfl⟩ | waited
  · rfl
  · exact measured entry waited

/-- A visit is a beginning of the order. -/
theorem visit_eq {distance : BoxTree K α → K} {queue : Queue K α}
    (measured : queue.IsMeasured distance) (limit : Nat) :
    visit distance limit queue =
      ((order distance queue).take limit).map fun value => (value, distance (.item value)) := by
  induction limit, queue using visit.induct distance with
  | case1 => simp [visit]
  | case2 limit => simp [visit, order]
  | case3 limit nearest value rest ih =>
      obtain ⟨atHead, inRest⟩ := List.forall_mem_cons.mp measured
      rw [visit, order, ih inRest, List.take_succ_cons, List.map_cons, ← atHead]
  | case4 limit nearest bounds children rest ih =>
      obtain ⟨_, inRest⟩ := List.forall_mem_cons.mp measured
      rw [visit, order, ih (IsMeasured.insertAll inRest children)]

end Queue

end BoxTree

/-- The distance of a place from a point as an index tells it, the root of its square. -/
def Place.toldDistance {K : Type} [Scalar K] (place : Place K) (p : Coord K) : K :=
  Scalar.sqrt (place.distance p * place.distance p)

namespace SpatialIndex

variable {K : Type} [Scalar K]

/-- The places in the order in which the index comes to them. -/
def order (index : SpatialIndex K) (p : Coord K) : List (Place K) :=
  let distance := BoxTree.square (fun place : Place K => place.distance p * place.distance p) p
  BoxTree.Queue.order distance (BoxTree.Queue.insertAll distance [] index.trees)

/-- The index comes to every place once. -/
theorem order_perm (places : List (Place K)) (p : Coord K) :
    ((ofPlaces places).order p).Perm places := by
  refine (BoxTree.Queue.order_perm ..).trans ?_
  refine (BoxTree.Queue.contents_insertAll_perm ..).trans ?_
  simpa [BoxTree.Queue.contents, BoxTree.allItems, ofPlaces, Function.comp_def] using
    BoxTree.allItems_build_perm (places.map fun place => (place.bounds.ordered, place))

theorem mem_order_iff {places : List (Place K)} {p : Coord K} {place : Place K} :
    place ∈ (ofPlaces places).order p ↔ place ∈ places :=
  (order_perm places p).mem_iff

theorem candidates_eq (index : SpatialIndex K) (p : Coord K) (limit : Nat) :
    index.candidates p limit =
      ((index.order p).take limit).map fun place => ⟨place, place.toldDistance p⟩ := by
  have measured : BoxTree.Queue.IsMeasured
      (BoxTree.square (fun place : Place K => place.distance p * place.distance p) p) [] := by
    simp [BoxTree.Queue.IsMeasured]
  simp only [candidates, BoxTree.nearest, order]
  rw [BoxTree.Queue.visit_eq (measured.insertAll index.trees), List.map_map]
  rfl

/-- The index comes to the places from the nearest to the farthest. -/
def IsInOrder (index : SpatialIndex K) (p : Coord K) : Prop :=
  ∀ limit, Candidate.Ascending (index.candidates p limit)

theorem isInOrder_iff {index : SpatialIndex K} {p : Coord K} :
    index.IsInOrder p ↔ (index.order p).Pairwise fun nearer farther =>
      nearer.toldDistance p ≤ farther.toldDistance p := by
  simp only [IsInOrder, Candidate.Ascending, candidates_eq, List.pairwise_map]
  constructor
  · intro inOrder
    have whole := inOrder (index.order p).length
    rwa [List.take_length] at whole
  · exact fun ascending limit => ascending.sublist (List.take_sublist limit _)

end SpatialIndex

end Gazetteer
