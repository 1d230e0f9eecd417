import Gazetteer.Proofs.Plane.Transfer
import Gazetteer.Proofs.Store

/-!
# The areas around a point

Areas that contain a point are looked for only among the places whose box holds the point.
Nothing is lost by that: a closed ring does not wind around a point outside the box of its
vertices, not even a ring that crosses itself.

The boxes are made by comparing coordinates, so they are exact.  Of the turns, which decide
where a point stands to a ring, it is asked that they are those of the exact coordinates; they
are the only place where something could be lost to rounding.
-/

namespace Gazetteer

namespace Geometry

/-- All vertices have finite coordinates. -/
def IsFinite : Geometry (Coord Float) → Prop
  | .point position => position.IsFinite
  | .line vertices => ∀ vertex ∈ vertices, vertex.IsFinite
  | .area polygons =>
    ∀ polygon ∈ polygons, ∀ ring ∈ polygon.rings, ∀ vertex ∈ ring, vertex.IsFinite

/-- The turns from the outlines of an area to a point are exact. -/
def TurnsExactly (p : Coord Float) : Geometry (Coord Float) → Prop
  | .area polygons => ∀ polygon ∈ polygons, ∀ side ∈ segments polygon.exterior, side.TurnsExactly p
  | _ => True

instance (geometry : Geometry (Coord Float)) : Decidable geometry.IsFinite :=
  match geometry with
  | .point position => inferInstanceAs (Decidable position.IsFinite)
  | .line vertices => inferInstanceAs (Decidable (∀ vertex ∈ vertices, vertex.IsFinite))
  | .area polygons =>
    inferInstanceAs (Decidable
      (∀ polygon ∈ polygons, ∀ ring ∈ polygon.rings, ∀ vertex ∈ ring, vertex.IsFinite))

instance (p : Coord Float) (geometry : Geometry (Coord Float)) :
    Decidable (geometry.TurnsExactly p) :=
  match geometry with
  | .point _ => isTrue trivial
  | .line _ => isTrue trivial
  | .area polygons =>
    inferInstanceAs (Decidable
      (∀ polygon ∈ polygons, ∀ side ∈ segments polygon.exterior, side.TurnsExactly p))

end Geometry

namespace Place

/-- A place as its shape makes it: finite coordinates, closed rings, and the box that is around
the shape. -/
structure IsDrawn (place : Place Float) : Prop where
  bounds : place.geometry.bounds? = some place.bounds
  closed : place.geometry.IsClosed
  finite : place.geometry.IsFinite

instance (place : Place Float) : Decidable place.IsDrawn :=
  decidable_of_iff
    (place.geometry.bounds? = some place.bounds ∧ place.geometry.IsClosed ∧
      place.geometry.IsFinite)
    ⟨fun ⟨bounds, closed, finite⟩ => ⟨bounds, closed, finite⟩,
      fun ⟨bounds, closed, finite⟩ => ⟨bounds, closed, finite⟩⟩

/-- The box of an area holds every point that the area contains. -/
theorem IsDrawn.holds_of_contains {place : Place Float} (drawn : place.IsDrawn) {p : Coord Float}
    (finite : p.IsFinite) (exactly : place.geometry.TurnsExactly p)
    (contains : place.contains p = true) : place.bounds.ordered.holds p = true := by
  obtain ⟨derived, closed, finiteShape⟩ := drawn
  unfold Place.contains at contains
  split at contains
  · rename_i polygons shape
    rw [shape] at derived closed finiteShape exactly
    obtain ⟨polygon, member, holds⟩ := List.any_eq_true.mp contains
    have vertices : ∀ vertex ∈ polygons.flatMap Polygon.exterior, vertex.IsFinite := by
      intro vertex isVertex
      obtain ⟨other, among, onOutline⟩ := List.mem_flatMap.mp isVertex
      exact finiteShape other among other.exterior List.mem_cons_self vertex onOutline
    have outline : ∀ vertex ∈ polygon.exterior, vertex.IsFinite :=
      finiteShape polygon member polygon.exterior List.mem_cons_self
    obtain ⟨around, sides⟩ := Bounds.around?_value vertices derived
    have held : ∀ vertex ∈ polygon.exterior.map Coord.value,
        place.bounds.value.holds vertex = true := by
      intro vertex isVertex
      apply Bounds.around?_holds around
      obtain ⟨original, onOutline, rfl⟩ := List.mem_map.mp isVertex
      exact List.mem_map_of_mem (List.mem_flatMap.mpr ⟨polygon, member, onOutline⟩)
    have closedOutline : isClosed (polygon.exterior.map Coord.value) = true :=
      (isClosed_value outline).trans (closed polygon member polygon.exterior List.mem_cons_self)
    have inside : ringPosition (polygon.exterior.map Coord.value) p.value = .inside :=
      (ringPosition_value finite outline (exactly polygon member)).trans
        (Polygon.ringPosition_of_contains holds)
    have within := Bounds.ordered_holds (holds_of_ringPosition held closedOutline inside)
    obtain ⟨same, orderedSides⟩ := Bounds.ordered_value sides
    rw [same, Bounds.holds_value orderedSides finite] at within
    exact within
  · contradiction

end Place

/-- To look for areas around a point by their boxes finds the same areas as to test all. -/
theorem Store.containing_eq_filter (store : Store Float)
    (drawn : ∀ place ∈ store.toList, place.IsDrawn) {p : Coord Float} (finite : p.IsFinite)
    (exactly : ∀ place ∈ store.toList, place.geometry.TurnsExactly p) :
    store.containing p = store.toList.filter fun place => place.contains p := by
  apply List.filter_congr
  intro place member
  cases contains : place.contains p with
  | false => exact Bool.and_false _
  | true =>
      rw [(drawn place member).holds_of_contains finite (exactly place member) contains]
      rfl

/-- A place with a shape and the box around it. -/
def parcel (id : PlaceId) (geometry : Geometry (Coord Float)) : Place Float :=
  { Place.pin id 16 [] with
    geometry := geometry
    bounds := geometry.bounds?.getD ⟨0, 0, 0, 0⟩ }

/-- A field, a bow tie on it whose ring crosses itself, a path and a tree. -/
def fields : Store Float :=
  ⟨#[parcel 0 (.area [⟨[⟨-2, -2⟩, ⟨6, -2⟩, ⟨6, 6⟩, ⟨-2, 6⟩, ⟨-2, -2⟩], []⟩]),
    parcel 1 (.area [⟨[⟨0, 0⟩, ⟨4, 4⟩, ⟨4, 0⟩, ⟨0, 4⟩, ⟨0, 0⟩], []⟩]),
    parcel 2 (.line [⟨0, 0⟩, ⟨2, 2⟩]), parcel 3 (.point ⟨1, 2⟩)], rfl⟩

/-- Two points at one height, to the left of the bow tie and in its left half. -/
theorem Store.containing_eq_filter_fields :
    (∀ place ∈ fields.toList, place.IsDrawn) ∧
      (∀ p ∈ [(⟨-1, 2⟩ : Coord Float), ⟨1, 2⟩], p.IsFinite ∧
        (∀ place ∈ fields.toList, place.geometry.TurnsExactly p) ∧
        fields.containing p = fields.toList.filter fun place => place.contains p) ∧
      (fields.containing ⟨-1, 2⟩).map Place.id = [0] ∧
      (fields.containing ⟨1, 2⟩).map Place.id = [0, 1] := by
  have drawn : ∀ place ∈ fields.toList, place.IsDrawn := by
    decide +kernel
  have finite : ∀ p ∈ [(⟨-1, 2⟩ : Coord Float), ⟨1, 2⟩], p.IsFinite := by
    decide +kernel
  have exactly : ∀ p ∈ [(⟨-1, 2⟩ : Coord Float), ⟨1, 2⟩],
      ∀ place ∈ fields.toList, place.geometry.TurnsExactly p := by
    decide +kernel
  refine ⟨drawn, fun p member => ⟨finite p member, exactly p member,
    containing_eq_filter fields drawn (finite p member) (exactly p member)⟩, ?_, ?_⟩
  · decide +kernel
  · decide +kernel

end Gazetteer
