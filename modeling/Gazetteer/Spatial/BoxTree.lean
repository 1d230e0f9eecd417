import Gazetteer.Plane.Bounds

/-!
# Trees of boxes

Items with boxes, arranged so that those near a point are found without looking at all of
them.  A branch has up to six children and knows a box around them.  More items than that
are first cut into slabs by latitude and each slab into clusters by longitude, about as many
of one as of the other, so that the clusters become full branches of one height.

A tree is visited from the nearest to the farthest.  A branch waits in the same queue as the
items, at the distance of its box, and when its turn comes its children take its place.
-/

namespace Gazetteer

/-- An item, or a box around the children of a branch. -/
inductive BoxTree (K α : Type) where
  | item (value : α)
  | branch (bounds : Bounds K) (children : List (BoxTree K α))

namespace BoxTree

variable {K α : Type}

/-! ## Cutting into pieces -/

/-- A list in pieces of one size, the last of which may be shorter. -/
def pieces (size : Nat) (items : List α) : List (List α) :=
  if size = 0 ∨ items.length ≤ size then [items]
  else items.take size :: pieces size (items.drop size)
termination_by items.length
decreasing_by simp only [List.length_drop]; omega

/-- The pieces make up the list. -/
theorem flatten_pieces (size : Nat) (items : List α) : (pieces size items).flatten = items := by
  fun_induction pieces size items with
  | case1 => simp
  | case2 items _ ih => simp [ih]

/-- No piece is longer than its size. -/
theorem length_le_of_mem_pieces {size : Nat} (positive : 0 < size) {items piece : List α}
    (member : piece ∈ pieces size items) : piece.length ≤ size := by
  fun_induction pieces size items with
  | case1 items stop =>
    obtain rfl : piece = items := by simpa using member
    omega
  | case2 items _ ih =>
    rcases List.mem_cons.1 member with rfl | member
    · exact List.length_take_le ..
    · exact ih member

/-- No piece is longer than the list. -/
theorem length_le_length_of_mem_pieces {size : Nat} {items piece : List α}
    (member : piece ∈ pieces size items) : piece.length ≤ items.length := by
  have sublist := List.sublist_flatten_of_mem member
  rw [flatten_pieces] at sublist
  exact sublist.length_le

/-- A quotient, rounded up. -/
def quotientUp (dividend divisor : Nat) : Nat :=
  (dividend + divisor - 1) / divisor

theorem quotientUp_pos {dividend divisor : Nat} (dividend_pos : 0 < dividend)
    (divisor_pos : 0 < divisor) : 0 < quotientUp dividend divisor :=
  Nat.div_pos (by omega) divisor_pos

theorem quotientUp_lt {dividend divisor : Nat} (two_le_dividend : 2 ≤ dividend)
    (two_le_divisor : 2 ≤ divisor) : quotientUp dividend divisor < dividend := by
  have left : 2 * divisor ≤ dividend * divisor := Nat.mul_le_mul_right _ two_le_dividend
  have right : dividend * 2 ≤ dividend * divisor := Nat.mul_le_mul_left _ two_le_divisor
  rw [quotientUp, Nat.div_lt_iff_lt_mul (by omega)]
  omega

/-! ## Building -/

/-- The greatest number of children of a branch. -/
def capacity : Nat := 6

/-- The number of items that a full child holds where there are `count` items: the greatest
power of the capacity below `count`. -/
def fullChild (count : Nat) : Nat :=
  if count ≤ capacity then 1 else capacity * fullChild (quotientUp count capacity)
termination_by count
decreasing_by simp only [capacity, quotientUp] at *; omega

/-- The number of slabs and of clusters in a slab: the root of the number of full children,
rounded up.  That number is from two to six. -/
def cuts (count : Nat) : Nat :=
  if quotientUp count (fullChild count) ≤ 4 then 2 else 3

theorem two_le_cuts (count : Nat) : 2 ≤ cuts count := by
  rw [cuts]
  split <;> omega

variable [Scalar K]

/-- Items in the order of one side of their boxes, cut into a number of pieces. -/
def slices (count : Nat) (side : Bounds K → K) (items : List (Bounds K × α)) :
    List (List (Bounds K × α)) :=
  pieces (quotientUp items.length count)
    (items.mergeSort fun first second => side first.1 ≤ side second.1)

/-- Items cut by latitude and then by longitude. -/
def clusters (items : List (Bounds K × α)) : List (List (Bounds K × α)) :=
  let count := cuts items.length
  (slices count Bounds.minLat items).flatMap (slices count Bounds.minLon)

/-- No slice is longer than what is cut. -/
theorem length_le_of_mem_slices {count : Nat} {side : Bounds K → K}
    {items slice : List (Bounds K × α)} (member : slice ∈ slices count side items) :
    slice.length ≤ items.length := by
  simpa using length_le_length_of_mem_pieces member

/-- Where there is more than one slice, each is shorter than what is cut. -/
theorem length_lt_of_mem_slices {count : Nat} (several : 2 ≤ count) {side : Bounds K → K}
    {items slice : List (Bounds K × α)} (large : 2 ≤ items.length)
    (member : slice ∈ slices count side items) : slice.length < items.length := by
  have bounded := length_le_of_mem_pieces (quotientUp_pos (by omega) (by omega)) member
  exact Nat.lt_of_le_of_lt bounded (quotientUp_lt large several)

/-- Every cluster is shorter than what is cut. -/
theorem length_lt_of_mem_clusters {items cluster : List (Bounds K × α)}
    (large : 2 ≤ items.length) (member : cluster ∈ clusters items) :
    cluster.length < items.length := by
  obtain ⟨slab, inItems, inSlab⟩ := List.mem_flatMap.1 member
  exact Nat.lt_of_le_of_lt (length_le_of_mem_slices inSlab)
    (length_lt_of_mem_slices (two_le_cuts _) large inItems)

/-- The children of a branch that holds some items. -/
def build (items : List (Bounds K × α)) : List (BoxTree K α) :=
  if items.length ≤ capacity then items.map fun entry => .item entry.2
  else
    (clusters items).attach.filterMap fun ⟨cluster, _⟩ =>
      (Bounds.hull? (cluster.map Prod.fst)).map fun bounds => .branch bounds (build cluster)
termination_by items.length
decreasing_by
  rename_i member
  exact length_lt_of_mem_clusters (by simp only [capacity] at *; omega) member

/-! ## Visiting -/

mutual

/-- The number of items and branches of a tree. -/
def weight : BoxTree K α → Nat
  | .item _ => 1
  | .branch _ children => 1 + totalWeight children

/-- The number of items and branches of some trees. -/
def totalWeight : List (BoxTree K α) → Nat
  | [] => 0
  | tree :: rest => weight tree + totalWeight rest

end

/-- Trees with their distances, or anything that grows with the distance, in ascending
order. -/
abbrev Queue (K α : Type) : Type := List (K × BoxTree K α)

namespace Queue

/-- The number of items and branches that wait. -/
def weight (queue : Queue K α) : Nat :=
  totalWeight (queue.map Prod.snd)

/-- Put a tree behind those that are not farther. -/
def insert (queue : Queue K α) (distance : K) (tree : BoxTree K α) : Queue K α :=
  match queue with
  | [] => [(distance, tree)]
  | head :: rest =>
    if distance < head.1 then (distance, tree) :: head :: rest
    else head :: insert rest distance tree

/-- Put several trees into the queue. -/
def insertAll (distance : BoxTree K α → K) (queue : Queue K α) (trees : List (BoxTree K α)) :
    Queue K α :=
  trees.foldl (fun queue tree => queue.insert (distance tree) tree) queue

theorem weight_insert (queue : Queue K α) (distance : K) (tree : BoxTree K α) :
    (queue.insert distance tree).weight = tree.weight + queue.weight := by
  induction queue with
  | nil => rfl
  | cons head rest ih =>
    rw [insert]
    split
    · rfl
    · simp only [weight, List.map_cons, totalWeight] at ih ⊢
      omega

theorem weight_insertAll (distance : BoxTree K α → K) (queue : Queue K α)
    (trees : List (BoxTree K α)) :
    (queue.insertAll distance trees).weight = totalWeight trees + queue.weight := by
  induction trees generalizing queue with
  | nil => simp [insertAll, totalWeight]
  | cons tree rest ih =>
    have step := ih (queue.insert (distance tree) tree)
    rw [weight_insert] at step
    simp only [insertAll, List.foldl_cons, totalWeight] at step ⊢
    omega

/-- The first `limit` items in the order of the queue, with their distances. -/
def visit (distance : BoxTree K α → K) (limit : Nat) (queue : Queue K α) : List (α × K) :=
  match limit, queue with
  | 0, _ => []
  | _, [] => []
  | limit + 1, (nearest, .item value) :: rest => (value, nearest) :: visit distance limit rest
  | limit + 1, (_, .branch _ children) :: rest =>
    visit distance (limit + 1) (insertAll distance rest children)
termination_by queue.weight
decreasing_by
  · simp only [weight, List.map_cons, totalWeight, BoxTree.weight]
    omega
  · rw [weight_insertAll]
    simp only [weight, List.map_cons, totalWeight, BoxTree.weight]
    omega

end Queue

/-- The square of the distance from a point to an item or to the box of a branch. -/
def square (itemSquare : α → K) (p : Coord K) : BoxTree K α → K
  | .item value => itemSquare value
  | .branch bounds _ => bounds.squareTo p

/-- The `limit` items of some trees that are nearest to a point, with the squares of their
distances. -/
def nearest (trees : List (BoxTree K α)) (itemSquare : α → K) (p : Coord K) (limit : Nat) :
    List (α × K) :=
  let distance := square itemSquare p
  Queue.visit distance limit (Queue.insertAll distance [] trees)

end BoxTree

end Gazetteer
