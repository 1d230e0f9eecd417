import Gazetteer.Proofs.Snapshot.Fields

/-!
# Shapes that are written and read

Coordinates, shapes and boxes read back from their data, whatever their numbers are and however
many vertices, rings or polygons there are, none included.  The kind of a shape is written in
front of its vertices, so that they need not be kept until it is known.  What is needed of the
numbers is that they can be read.
-/

namespace Gazetteer

open Data

namespace Coord

/-- The numbers of a coordinate. -/
def numbers (p : Coord Float) : List Float := [p.x, p.y]

variable {p : Coord Float}

theorem ofValue?_toValue (p : Coord Float) : ofValue? p.toValue = some p := by
  have fields : p.toValue.record? ["x", "y"] = some [some (.real p.x), some (.real p.y)] :=
    record?_eq_some rfl (by decide) rfl
  simp [ofValue?, fields, required, Value.real?]

theorem ofGeographic?_toGeographic (p : Coord Float) :
    ofGeographic? p.toGeographic = some p := by
  have fields :
      p.toGeographic.record? ["lat", "lon"] = some [some (.real p.y), some (.real p.x)] :=
    record?_eq_some rfl (by decide) rfl
  simp [ofGeographic?, fields, required, Value.real?]

theorem readable_toValue (readable : ∀ number ∈ p.numbers, Json.Readable (.real number)) :
    Json.Readable p.toValue := by
  refine .object ?_
  simpa [numbers] using readable

theorem readable_toGeographic (readable : ∀ number ∈ p.numbers, Json.Readable (.real number)) :
    Json.Readable p.toGeographic := by
  refine .object ?_
  simpa [numbers, and_comm] using readable

end Coord

section Vertices

variable {vertices : List (Coord Float)}

theorem verticesOfValue?_verticesToValue (vertices : List (Coord Float)) :
    verticesOfValue? (verticesToValue vertices) = some vertices :=
  listOf?_array fun p _ => p.ofValue?_toValue

theorem readable_verticesToValue
    (readable : ∀ p ∈ vertices, ∀ number ∈ p.numbers, Json.Readable (.real number)) :
    Json.Readable (verticesToValue vertices) := by
  refine .array ?_
  intro item isItem
  obtain ⟨p, isVertex, rfl⟩ := List.mem_map.mp isItem
  exact Coord.readable_toValue (readable p isVertex)

end Vertices

namespace Polygon

variable {polygon : Polygon (Coord Float)}

theorem ofValue?_toValue (polygon : Polygon (Coord Float)) :
    ofValue? polygon.toValue = some polygon := by
  have fields : polygon.toValue.record? ["exterior", "interiors"] =
      some [some (verticesToValue polygon.exterior),
        some (.array (polygon.interiors.map verticesToValue))] :=
    record?_eq_some rfl (by decide) rfl
  have interiors : Value.listOf? verticesOfValue? (.array (polygon.interiors.map verticesToValue)) =
      some polygon.interiors :=
    listOf?_array fun ring _ => verticesOfValue?_verticesToValue ring
  simp [ofValue?, fields, required, verticesOfValue?_verticesToValue, interiors]

theorem readable_toValue (readable : ∀ ring ∈ polygon.rings, ∀ p ∈ ring, ∀ number ∈ p.numbers,
    Json.Readable (.real number)) : Json.Readable polygon.toValue := by
  obtain ⟨exterior, interiors⟩ := List.forall_mem_cons.mp readable
  refine .object ?_
  simp only [List.forall_mem_cons, List.not_mem_nil, false_implies, implies_true, and_true]
  refine ⟨readable_verticesToValue exterior, .array ?_⟩
  intro item isItem
  obtain ⟨ring, isRing, rfl⟩ := List.mem_map.mp isItem
  exact readable_verticesToValue (interiors ring isRing)

end Polygon

namespace Geometry

/-- The vertices of a shape, those of a polygon ring by ring. -/
def vertices {κ : Type} : Geometry κ → List κ
  | .point p => [p]
  | .line vertices => vertices
  | .area polygons => polygons.flatMap fun polygon => polygon.rings.flatten

variable {geometry : Geometry (Coord Float)}

theorem ofValue?_toValue (geometry : Geometry (Coord Float)) :
    ofValue? geometry.toValue = some geometry := by
  have fields : geometry.toValue.record? ["type", "coordinates"] =
      some [some (.text geometry.kind), some geometry.verticesValue] :=
    record?_eq_some rfl (by decide) rfl
  have kindFirst : geometry.toValue.putsFirst "coordinates" "type" = false := by
    simp [toValue, Value.putsFirst]
  have passes (kept : Bool) :
      (guard (!geometry.toValue.putsFirst "coordinates" "type" || kept) : Option Unit) =
        some () := by
    rw [kindFirst]
    rfl
  have kind : Value.choice? (.text geometry.kind) = some geometry.kind := rfl
  rw [ofValue?, fields, Option.bind_eq_bind, Option.bind_some]
  dsimp only
  rw [passes, Option.bind_eq_bind, Option.bind_some, required_bind kind]
  cases geometry with
  | point p => exact required_bind p.ofValue?_toValue _
  | line vertices => exact required_bind (verticesOfValue?_verticesToValue vertices) _
  | area polygons =>
      have items : Value.listOf? Polygon.ofValue? (.array (polygons.map Polygon.toValue)) =
          some polygons :=
        listOf?_array fun polygon _ => polygon.ofValue?_toValue
      exact required_bind items _

theorem readable_verticesValue (readable : ∀ p ∈ geometry.vertices, ∀ number ∈ p.numbers,
    Json.Readable (.real number)) : Json.Readable geometry.verticesValue := by
  cases geometry with
  | point p => exact Coord.readable_toValue (readable p List.mem_cons_self)
  | line vertices => exact readable_verticesToValue readable
  | area polygons =>
      refine .array ?_
      intro item isItem
      obtain ⟨polygon, isPolygon, rfl⟩ := List.mem_map.mp isItem
      apply Polygon.readable_toValue
      intro ring isRing p isVertex
      exact readable p (List.mem_flatMap.mpr
        ⟨polygon, isPolygon, List.mem_flatten.mpr ⟨ring, isRing, isVertex⟩⟩)

theorem readable_toValue (readable : ∀ p ∈ geometry.vertices, ∀ number ∈ p.numbers,
    Json.Readable (.real number)) : Json.Readable geometry.toValue := by
  refine .object ?_
  simp only [List.forall_mem_cons, List.not_mem_nil, false_implies, implies_true, and_true]
  exact ⟨.text geometry.kind, readable_verticesValue readable⟩

end Geometry

namespace Bounds

/-- The numbers of a box. -/
def numbers (bounds : Bounds Float) : List Float :=
  [bounds.minLon, bounds.minLat, bounds.maxLon, bounds.maxLat]

variable {bounds : Bounds Float}

theorem ofValue?_toValue (bounds : Bounds Float) : ofValue? bounds.toValue = some bounds := by
  have fields : bounds.toValue.record? ["min_lon", "min_lat", "max_lon", "max_lat"] =
      some [some (.real bounds.minLon), some (.real bounds.minLat), some (.real bounds.maxLon),
        some (.real bounds.maxLat)] :=
    record?_eq_some rfl (by decide) rfl
  simp [ofValue?, fields, required, Value.real?]

theorem readable_toValue (readable : ∀ number ∈ bounds.numbers, Json.Readable (.real number)) :
    Json.Readable bounds.toValue := by
  refine .object ?_
  simpa [numbers] using readable

end Bounds

end Gazetteer
