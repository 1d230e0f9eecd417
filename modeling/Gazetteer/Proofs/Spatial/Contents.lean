import Gazetteer.Spatial
import Mathlib.Data.List.Perm.Basic

/-!
# What a tree of boxes holds

Building a tree neither loses an item nor adds or repeats one, and a visit comes to nothing
but items of the trees that wait.  So an index finds nothing but the places it is built from.
-/

namespace Gazetteer

namespace BoxTree

open scoped List

variable {K α : Type}

mutual

/-- The items of a tree. -/
def items : BoxTree K α → List α
  | .item value => [value]
  | .branch _ children => allItems children

/-- The items of some trees. -/
def allItems : List (BoxTree K α) → List α
  | [] => []
  | tree :: rest => items tree ++ allItems rest

end

theorem allItems_eq_flatMap (trees : List (BoxTree K α)) :
    allItems trees = trees.flatMap items := by
  induction trees with
  | nil => rfl
  | cons tree rest ih => rw [allItems, ih, List.flatMap_cons]

theorem allItems_filterMap {β : Type} (trees : List β) (tree? : β → Option (BoxTree K α)) :
    allItems (trees.filterMap tree?) =
      trees.flatMap fun source => allItems (tree? source).toList := by
  induction trees with
  | nil => rfl
  | cons source rest ih =>
      cases found : tree? source with
      | none => simp [found, ih, allItems]
      | some tree => simp [found, ih, allItems]

variable [Scalar K]

/-! ## Building -/

theorem flatten_slices_perm (count : Nat) (side : Bounds K → K) (entries : List (Bounds K × α)) :
    (slices count side entries).flatten.Perm entries := by
  rw [slices, flatten_pieces]
  exact List.mergeSort_perm ..

theorem flatten_clusters_perm (entries : List (Bounds K × α)) :
    (clusters entries).flatten.Perm entries := by
  let count := cuts entries.length
  calc (clusters entries).flatten
      = (slices count Bounds.minLat entries).flatMap fun slab =>
          (slices count Bounds.minLon slab).flatten := by
        simp only [clusters, List.flatten_eq_flatMap, List.flatMap_assoc, count]
    _ ~ (slices count Bounds.minLat entries).flatMap id :=
        List.Perm.flatMap_left _ fun slab _ => flatten_slices_perm count Bounds.minLon slab
    _ ~ entries := by
        rw [← List.flatten_eq_flatMap]
        exact flatten_slices_perm count Bounds.minLat entries

/-- The branch over some entries, none if there are no entries. -/
def cover? (children : List (BoxTree K α)) (entries : List (Bounds K × α)) :
    Option (BoxTree K α) :=
  (Bounds.hull? (entries.map Prod.fst)).map fun bounds => .branch bounds children

theorem build_of_large {entries : List (Bounds K × α)} (large : ¬ entries.length ≤ capacity) :
    build entries = (clusters entries).filterMap fun cluster => cover? (build cluster) cluster := by
  rw [build, if_neg large]
  simp [cover?]

/-- A branch holds the entries that it covers if its children do. -/
theorem allItems_cover? {children : List (BoxTree K α)} {entries : List (Bounds K × α)}
    (held : (allItems children).Perm (entries.map Prod.snd)) :
    (allItems (cover? children entries).toList).Perm (entries.map Prod.snd) := by
  cases entries with
  | nil => exact .nil
  | cons entry rest => simpa [cover?, Bounds.hull?, allItems, items] using held

/-- Trees hold exactly the items that they are built from. -/
theorem allItems_build_perm (entries : List (Bounds K × α)) :
    (allItems (build entries)).Perm (entries.map Prod.snd) := by
  induction entries using build.induct with
  | case1 entries small =>
      rw [build, if_pos small, allItems_eq_flatMap, List.flatMap_map, List.map_eq_flatMap]
      exact .refl _
  | case2 entries large ih =>
      rw [build_of_large large, allItems_filterMap]
      calc (clusters entries).flatMap (fun cluster =>
            allItems (cover? (build cluster) cluster).toList)
          ~ (clusters entries).flatMap fun cluster => cluster.map Prod.snd :=
            List.Perm.flatMap_left _ fun cluster member => allItems_cover? (ih cluster member)
        _ = (clusters entries).flatten.map Prod.snd := by
            rw [List.map_flatten, List.flatMap_def]
        _ ~ entries.map Prod.snd := (flatten_clusters_perm entries).map Prod.snd

/-! ## Visiting -/

namespace Queue

/-- The items that wait in a queue. -/
def contents (queue : Queue K α) : List α :=
  allItems (queue.map Prod.snd)

theorem insert_perm (queue : Queue K α) (away : K) (tree : BoxTree K α) :
    (queue.insert away tree).Perm ((away, tree) :: queue) := by
  induction queue with
  | nil => exact .refl _
  | cons head rest ih =>
      rw [insert]
      split
      · exact .refl _
      · exact (ih.cons head).trans (.swap ..)

/-- A queue takes up every tree with its distance. -/
theorem insertAll_perm (distance : BoxTree K α → K) (queue : Queue K α)
    (trees : List (BoxTree K α)) :
    (queue.insertAll distance trees).Perm
      (trees.map (fun tree => (distance tree, tree)) ++ queue) := by
  induction trees generalizing queue with
  | nil => exact .refl _
  | cons tree rest ih =>
      let waiting := rest.map fun tree => (distance tree, tree)
      calc (queue.insertAll distance (tree :: rest))
          = (queue.insert (distance tree) tree).insertAll distance rest := rfl
        _ ~ waiting ++ queue.insert (distance tree) tree := ih _
        _ ~ waiting ++ (distance tree, tree) :: queue := (insert_perm ..).append_left _
        _ ~ (distance tree, tree) :: waiting ++ queue := List.perm_middle

theorem mem_insertAll_iff {distance : BoxTree K α → K} {queue : Queue K α}
    {trees : List (BoxTree K α)} {entry : K × BoxTree K α} :
    entry ∈ queue.insertAll distance trees ↔
      (∃ tree ∈ trees, (distance tree, tree) = entry) ∨ entry ∈ queue := by
  rw [(insertAll_perm distance queue trees).mem_iff, List.mem_append, List.mem_map]

theorem contents_insertAll_perm (distance : BoxTree K α → K) (queue : Queue K α)
    (trees : List (BoxTree K α)) :
    (queue.insertAll distance trees).contents.Perm (allItems trees ++ queue.contents) := by
  have trees := ((insertAll_perm distance queue trees).map Prod.snd).flatMap_right items
  simpa [contents, allItems_eq_flatMap, Function.comp_def] using trees

/-- A visit comes to nothing but what waits. -/
theorem mem_contents_of_mem_visit {distance : BoxTree K α → K} {limit : Nat}
    {queue : Queue K α} {visited : α × K} (member : visited ∈ visit distance limit queue) :
    visited.1 ∈ queue.contents := by
  induction limit, queue using visit.induct distance with
  | case1 => simp [visit] at member
  | case2 limit positive => simp [visit] at member
  | case3 limit nearest value rest ih =>
      rw [visit] at member
      rcases List.mem_cons.mp member with rfl | later
      · exact List.mem_cons_self
      · exact List.mem_cons_of_mem _ (ih later)
  | case4 limit away bounds children rest ih =>
      rw [visit] at member
      exact (contents_insertAll_perm distance rest children).mem_iff.mp (ih member)

end Queue

/-- Only items are found near a point. -/
theorem mem_of_mem_nearest {entries : List (Bounds K × α)} {itemSquare : α → K} {p : Coord K}
    {limit : Nat} {found : α × K} (member : found ∈ nearest (build entries) itemSquare p limit) :
    found.1 ∈ entries.map Prod.snd := by
  have waits := Queue.mem_contents_of_mem_visit member
  have held := (Queue.contents_insertAll_perm _ [] (build entries)).mem_iff.mp waits
  exact (allItems_build_perm entries).mem_iff.mp (by simpa [Queue.contents, allItems] using held)

end BoxTree

namespace SpatialIndex

variable {K : Type} [Scalar K] {places : List (Place K)} {p : Coord K} {limit : Nat}

theorem mem_of_mem_candidates {candidate : Candidate K}
    (member : candidate ∈ (ofPlaces places).candidates p limit) : candidate.place ∈ places := by
  obtain ⟨found, isFound, rfl⟩ := List.mem_map.mp member
  simpa [Function.comp_def] using BoxTree.mem_of_mem_nearest isFound

theorem mem_of_mem_nearest {radius : K} {near : List (Candidate K)}
    (found : (ofPlaces places).nearest p limit radius = .ok near) {candidate : Candidate K}
    (member : candidate ∈ near) : candidate.place ∈ places := by
  unfold nearest at found
  split at found
  · contradiction
  · obtain rfl := Except.ok.inj found
    exact mem_of_mem_candidates ((List.takeWhile_sublist _).subset member)

end SpatialIndex

end Gazetteer
