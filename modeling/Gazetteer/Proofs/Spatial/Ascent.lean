import Gazetteer.Proofs.Plane.Covering
import Gazetteer.Proofs.Spatial.Nearest

/-!
# The nearest places come first

A branch waits at the distance of its box.  Where no box is farther than what it holds, a
branch is opened before anything in it can be due, so what comes out of the queue is never
nearer than what came before.  The boxes of a tree hold one another as it is built; that each
of the places is no nearer than its own box is all that has to be known.
-/

namespace Gazetteer

variable {K : Type} [Field K] [LinearOrder K] [ExactRoot K]

/-! ## Boxes in boxes -/

namespace Bounds

/-- Neither side of a box lies behind the other. -/
structure IsUpright (bounds : Bounds K) : Prop where
  lon : bounds.minLon ≤ bounds.maxLon
  lat : bounds.minLat ≤ bounds.maxLat

/-- No side of the inner box lies beyond that of the outer one. -/
structure Within (inner outer : Bounds K) : Prop where
  west : outer.minLon ≤ inner.minLon
  south : outer.minLat ≤ inner.minLat
  east : inner.maxLon ≤ outer.maxLon
  north : inner.maxLat ≤ outer.maxLat

theorem Within.refl (bounds : Bounds K) : bounds.Within bounds :=
  ⟨le_rfl, le_rfl, le_rfl, le_rfl⟩

theorem isUpright_ordered (bounds : Bounds K) : bounds.ordered.IsUpright := by
  constructor <;>
  · simp only [ordered, Exact.least_eq_min, Exact.greatest_eq_max]
    exact min_le_max

theorem join_within_iff {first second outer : Bounds K} :
    (first.join second).Within outer ↔ first.Within outer ∧ second.Within outer := by
  constructor
  · rintro ⟨west, south, east, north⟩
    simp only [join, Exact.least_eq_min, Exact.greatest_eq_max, le_min_iff, max_le_iff] at *
    exact ⟨⟨west.2, south.2, east.2, north.2⟩, ⟨west.1, south.1, east.1, north.1⟩⟩
  · rintro ⟨one, two⟩
    constructor <;>
      simp only [join, Exact.least_eq_min, Exact.greatest_eq_max, le_min_iff, max_le_iff]
    · exact ⟨two.west, one.west⟩
    · exact ⟨two.south, one.south⟩
    · exact ⟨two.east, one.east⟩
    · exact ⟨two.north, one.north⟩

/-- The hull of some boxes lies in just the boxes in which all of them lie. -/
theorem hull?_within_iff {boxes : List (Bounds K)} {hull outer : Bounds K}
    (covered : hull? boxes = some hull) :
    hull.Within outer ↔ ∀ bounds ∈ boxes, bounds.Within outer := by
  have fold (boxes : List (Bounds K)) (first : Bounds K) :
      (boxes.foldl join first).Within outer ↔
        first.Within outer ∧ ∀ bounds ∈ boxes, bounds.Within outer := by
    induction boxes generalizing first with
    | nil => simp
    | cons bounds rest ih =>
        rw [List.foldl_cons, ih, join_within_iff, List.forall_mem_cons, and_assoc]
  cases boxes with
  | nil => contradiction
  | cons first rest =>
      obtain rfl := Option.some.inj covered
      rw [fold, List.forall_mem_cons]

/-- The hull of upright boxes is upright. -/
theorem isUpright_of_hull? {boxes : List (Bounds K)} {hull : Bounds K}
    (covered : hull? boxes = some hull) (upright : ∀ bounds ∈ boxes, bounds.IsUpright) :
    hull.IsUpright := by
  have around := (hull?_within_iff covered).mp (Within.refl hull)
  obtain ⟨bounds, member⟩ : ∃ bounds, bounds ∈ boxes :=
    List.exists_mem_of_ne_nil boxes fun none => by simp [none, hull?] at covered
  obtain ⟨west, south, east, north⟩ := around bounds member
  obtain ⟨lon, lat⟩ := upright bounds member
  exact ⟨west.trans (lon.trans east), south.trans (lat.trans north)⟩

variable [IsStrictOrderedRing K]

theorem squareTo_nonneg (bounds : Bounds K) (p : Coord K) : 0 ≤ bounds.squareTo p := by
  unfold squareTo
  split
  · exact le_rfl
  · exact add_nonneg (mul_self_nonneg _) (mul_self_nonneg _)

/-- The way from a number to an interval. -/
def gap (value low high : K) : K :=
  Scalar.least (Scalar.greatest value low) high - value

theorem abs_gap {value low high : K} (upright : low ≤ high) :
    |gap value low high| = max 0 (max (low - value) (value - high)) := by
  rw [gap, Exact.least_eq_min, Exact.greatest_eq_max]
  rcases lt_or_ge value low with before | after
  · have away := sub_pos.mpr before
    have farSide : value - high ≤ low - value := by linarith
    rw [max_eq_right before.le, min_eq_left upright, abs_of_pos away, max_eq_left farSide,
      max_eq_right away.le]
  · rw [max_eq_left after]
    rcases lt_or_ge high value with beyond | inside
    · have away := sub_pos.mpr beyond
      have farSide : low - value ≤ value - high := by linarith
      rw [min_eq_right beyond.le, abs_sub_comm, abs_of_pos away, max_eq_right farSide,
        max_eq_right away.le]
    · rw [min_eq_left inside, sub_self, abs_zero,
        max_eq_left (max_le (sub_nonpos.mpr after) (sub_nonpos.mpr inside))]

theorem gap_mul_self_le {value low high outerLow outerHigh : K} (upright : low ≤ high)
    (below : outerLow ≤ low) (above : high ≤ outerHigh) :
    gap value outerLow outerHigh * gap value outerLow outerHigh ≤
      gap value low high * gap value low high := by
  rw [← abs_le_iff_mul_self_le, abs_gap upright, abs_gap (below.trans (upright.trans above))]
  gcongr

/-- A box is no nearer than a box around it. -/
theorem squareTo_le_of_within {inner outer : Bounds K} (upright : inner.IsUpright)
    (within : inner.Within outer) (p : Coord K) : outer.squareTo p ≤ inner.squareTo p := by
  by_cases outerHolds : outer.holds p = true
  · rw [squareTo, if_pos outerHolds]
    exact squareTo_nonneg inner p
  · have innerHolds : ¬ inner.holds p = true := by
      intro holds
      obtain ⟨⟨west, east⟩, south, north⟩ := holds_iff.mp holds
      exact outerHolds (holds_iff.mpr ⟨⟨within.west.trans west, east.trans within.east⟩,
        within.south.trans south, north.trans within.north⟩)
    rw [squareTo, squareTo, if_neg outerHolds, if_neg innerHolds]
    exact add_le_add (gap_mul_self_le upright.lon within.west within.east)
      (gap_mul_self_le upright.lat within.south within.north)

end Bounds

namespace BoxTree

variable {α : Type}

/-! ## Trees whose branches are no farther than what they hold -/

/-- No branch of a tree is farther than any of its children. -/
inductive IsNested (distance : BoxTree K α → K) : BoxTree K α → Prop
  | item (value : α) : IsNested distance (.item value)
  | branch {bounds : Bounds K} {children : List (BoxTree K α)}
      (ahead : ∀ child ∈ children, distance (.branch bounds children) ≤ distance child)
      (nested : ∀ child ∈ children, IsNested distance child) :
      IsNested distance (.branch bounds children)

/-! ## The order of a queue -/

namespace Queue

variable {distance : BoxTree K α → K} {queue : Queue K α}

theorem pairwise_insert {away : K} {tree : BoxTree K α}
    (sorted : queue.Pairwise fun nearer farther => nearer.1 ≤ farther.1) :
    (queue.insert away tree).Pairwise fun nearer farther => nearer.1 ≤ farther.1 := by
  induction queue with
  | nil => exact List.pairwise_singleton ..
  | cons head rest ih =>
      obtain ⟨headLeast, restSorted⟩ := List.pairwise_cons.mp sorted
      rw [insert]
      split
      · rename_i nearer
        refine List.pairwise_cons.mpr ⟨List.forall_mem_cons.mpr ⟨nearer.le, ?_⟩, sorted⟩
        exact fun entry member => nearer.le.trans (headLeast entry member)
      · rename_i notNearer
        refine List.pairwise_cons.mpr ⟨fun entry member => ?_, ih restSorted⟩
        rcases List.mem_cons.mp ((insert_perm rest away tree).mem_iff.mp member) with rfl | waits
        · exact not_lt.mp notNearer
        · exact headLeast entry waits

theorem pairwise_insertAll (sorted : queue.Pairwise fun nearer farther => nearer.1 ≤ farther.1)
    (trees : List (BoxTree K α)) :
    (queue.insertAll distance trees).Pairwise fun nearer farther => nearer.1 ≤ farther.1 := by
  induction trees generalizing queue with
  | nil => exact sorted
  | cons tree rest ih => exact ih (pairwise_insert sorted)

/-- The nearest trees wait in front, each at its own distance, and in none of them a branch is
farther than what it holds. -/
structure IsOrdered (distance : BoxTree K α → K) (queue : Queue K α) : Prop where
  sorted : queue.Pairwise fun nearer farther => nearer.1 ≤ farther.1
  measured : queue.IsMeasured distance
  nested : ∀ entry ∈ queue, entry.2.IsNested distance

theorem IsOrdered.tail {head : K × BoxTree K α} (ordered : IsOrdered distance (head :: queue)) :
    IsOrdered distance queue where
  sorted := ordered.sorted.tail
  measured := (List.forall_mem_cons.mp ordered.measured).2
  nested := (List.forall_mem_cons.mp ordered.nested).2

theorem IsOrdered.insertAll (ordered : IsOrdered distance queue) {trees : List (BoxTree K α)}
    (nested : ∀ tree ∈ trees, tree.IsNested distance) :
    IsOrdered distance (queue.insertAll distance trees) where
  sorted := pairwise_insertAll ordered.sorted trees
  measured := ordered.measured.insertAll trees
  nested := by
    intro entry member
    rcases mem_insertAll_iff.mp member with ⟨tree, isTree, rfl⟩ | waited
    · exact nested tree isTree
    · exact ordered.nested entry waited

/-- What is no farther than all that waits is no farther than all that comes out. -/
theorem IsOrdered.le_of_mem_order (ordered : IsOrdered distance queue) {least : K}
    (ahead : ∀ entry ∈ queue, least ≤ entry.1) {value : α}
    (member : value ∈ order distance queue) : least ≤ distance (.item value) := by
  fun_induction order distance queue with
  | case1 => contradiction
  | case2 nearest first rest ih =>
      obtain ⟨atFirst, inRest⟩ := List.forall_mem_cons.mp ahead
      rcases List.mem_cons.mp member with rfl | later
      · exact atFirst.trans_eq (ordered.measured _ List.mem_cons_self)
      · exact ih ordered.tail inRest later
  | case3 nearest bounds children rest ih =>
      obtain ⟨atBranch, inRest⟩ := List.forall_mem_cons.mp ahead
      cases ordered.nested _ List.mem_cons_self with
      | branch childrenBehind childrenNested =>
          refine ih (ordered.tail.insertAll childrenNested) (fun entry waits => ?_) member
          rcases mem_insertAll_iff.mp waits with ⟨child, isChild, rfl⟩ | waited
          · calc least ≤ nearest := atBranch
              _ = distance (.branch bounds children) := ordered.measured _ List.mem_cons_self
              _ ≤ distance child := childrenBehind child isChild
          · exact inRest entry waited

/-- Items come out from the nearest on. -/
theorem IsOrdered.pairwise_order (ordered : IsOrdered distance queue) :
    (order distance queue).Pairwise fun nearer farther =>
      distance (.item nearer) ≤ distance (.item farther) := by
  fun_induction order distance queue with
  | case1 => exact .nil
  | case2 nearest first rest ih =>
      refine List.pairwise_cons.mpr ⟨fun later member => ?_, ih ordered.tail⟩
      have atFirst : nearest = distance (.item first) :=
        ordered.measured _ List.mem_cons_self
      rw [← atFirst]
      exact ordered.tail.le_of_mem_order (List.pairwise_cons.mp ordered.sorted).1 member
  | case3 nearest bounds children rest ih =>
      cases ordered.nested _ List.mem_cons_self with
      | branch _ childrenNested => exact ih (ordered.tail.insertAll childrenNested)

end Queue

/-! ## Building -/

section Building

variable {entries : List (Bounds K × α)}

/-- A tree is made of an item, or it is a branch over a cluster with the hull of its boxes. -/
theorem mem_build_cases {tree : BoxTree K α} (member : tree ∈ build entries) :
    (∃ entry ∈ entries, tree = .item entry.2) ∨
      ∃ cluster ∈ clusters entries, ∃ hull, Bounds.hull? (cluster.map Prod.fst) = some hull ∧
        tree = .branch hull (build cluster) := by
  by_cases small : entries.length ≤ capacity
  · rw [build, if_pos small] at member
    obtain ⟨entry, isEntry, rfl⟩ := List.mem_map.mp member
    exact Or.inl ⟨entry, isEntry, rfl⟩
  · rw [build_of_large small] at member
    obtain ⟨cluster, isCluster, covers⟩ := List.mem_filterMap.mp member
    obtain ⟨hull, covered, rfl⟩ := Option.map_eq_some_iff.mp covers
    exact Or.inr ⟨cluster, isCluster, hull, covered, rfl⟩

theorem mem_of_mem_clusters {cluster : List (Bounds K × α)} (isCluster : cluster ∈ clusters entries)
    {entry : Bounds K × α} (member : entry ∈ cluster) : entry ∈ entries :=
  (flatten_clusters_perm entries).mem_iff.mp (List.mem_flatten_of_mem isCluster member)

/-- An upright box that is no farther from a point than its item. -/
structure Reaches (itemSquare : α → K) (p : Coord K) (entry : Bounds K × α) : Prop where
  upright : entry.1.IsUpright
  le : entry.1.squareTo p ≤ itemSquare entry.2

variable [IsStrictOrderedRing K] {itemSquare : α → K} {p : Coord K}

/-- A box around all boxes of some items is no farther than any tree built from them. -/
theorem squareTo_le_of_mem_build (reaches : ∀ entry ∈ entries, Reaches itemSquare p entry)
    {outer : Bounds K} (around : ∀ entry ∈ entries, entry.1.Within outer) {tree : BoxTree K α}
    (member : tree ∈ build entries) : outer.squareTo p ≤ square itemSquare p tree := by
  rcases mem_build_cases member with
    ⟨entry, isEntry, rfl⟩ | ⟨cluster, isCluster, hull, covered, rfl⟩
  · obtain ⟨upright, le⟩ := reaches entry isEntry
    exact (Bounds.squareTo_le_of_within upright (around entry isEntry) p).trans le
  · have hullWithin : hull.Within outer := by
      refine (Bounds.hull?_within_iff covered).mpr ?_
      refine List.forall_mem_map.mpr fun entry inCluster => ?_
      exact around entry (mem_of_mem_clusters isCluster inCluster)
    have hullUpright : hull.IsUpright := by
      refine Bounds.isUpright_of_hull? covered ?_
      refine List.forall_mem_map.mpr fun entry inCluster => ?_
      exact (reaches entry (mem_of_mem_clusters isCluster inCluster)).upright
    exact Bounds.squareTo_le_of_within hullUpright hullWithin p

/-- Trees are built with boxes that hold one another. -/
theorem isNested_of_mem_build (reaches : ∀ entry ∈ entries, Reaches itemSquare p entry)
    {tree : BoxTree K α} (member : tree ∈ build entries) :
    tree.IsNested (square itemSquare p) := by
  induction entries using build.induct generalizing tree with
  | case1 entries small =>
      rw [build, if_pos small] at member
      obtain ⟨entry, _, rfl⟩ := List.mem_map.mp member
      exact .item entry.2
  | case2 entries large ih =>
      rcases mem_build_cases member with
        ⟨entry, _, rfl⟩ | ⟨cluster, isCluster, hull, covered, rfl⟩
      · exact .item entry.2
      · have inCluster (entry : Bounds K × α) (member : entry ∈ cluster) :=
          reaches entry (mem_of_mem_clusters isCluster member)
        have around : ∀ entry ∈ cluster, entry.1.Within hull := List.forall_mem_map.mp
          ((Bounds.hull?_within_iff covered).mp (Bounds.Within.refl hull))
        exact .branch (fun _ isChild => squareTo_le_of_mem_build inCluster around isChild)
          fun _ isChild => ih cluster isCluster inCluster isChild

end Building

end BoxTree

/-! ## The index -/

/-- Where no place is nearer than its box, the index comes to the nearest places first. -/
theorem SpatialIndex.isInOrder_of_boxes [IsStrictOrderedRing K] {places : List (Place K)}
    {p : Coord K} (reaches : ∀ place ∈ places,
      place.bounds.ordered.squareTo p ≤ place.distance p * place.distance p) :
    (ofPlaces places).IsInOrder p := by
  have boxes : ∀ entry ∈ places.map fun place => (place.bounds.ordered, place),
      BoxTree.Reaches (fun place => place.distance p * place.distance p) p entry :=
    List.forall_mem_map.mpr fun place member =>
      ⟨place.bounds.isUpright_ordered, reaches place member⟩
  have ordered : BoxTree.Queue.IsOrdered
      (BoxTree.square (fun place : Place K => place.distance p * place.distance p) p) [] :=
    ⟨.nil, List.forall_mem_nil _, List.forall_mem_nil _⟩
  refine isInOrder_iff_distance.mpr ?_
  refine (ordered.insertAll fun _ => BoxTree.isNested_of_mem_build boxes).pairwise_order.imp ?_
  intro nearer farther squares
  exact (mul_self_le_mul_self_iff (nearer.geometry.distance_nonneg p)
    (farther.geometry.distance_nonneg p)).mpr squares

end Gazetteer
