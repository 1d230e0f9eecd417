/-!
# Shapes

The shapes that a place may have: a point, a line or an area.  They are built over any
type of vertices, because much of what is done with them, joining ways into rings or
dropping vertices, never looks inside a vertex.
-/

namespace Gazetteer

/-- A position in degrees: `x` is the longitude and `y` the latitude. -/
structure Coord (K : Type) where
  x : K
  y : K
deriving BEq, DecidableEq, Repr

/-- A straight line between two vertices. -/
structure Segment (κ : Type) where
  start : κ
  stop : κ
deriving BEq, DecidableEq, Repr

/-- An outline with holes.  Outline and holes are rings: lists of vertices of which the
last repeats the first. -/
structure Polygon (κ : Type) where
  exterior : List κ
  interiors : List (List κ)
deriving BEq, DecidableEq, Repr

/-- The shape of a place. -/
inductive Geometry (κ : Type) where
  | point (position : κ)
  | line (vertices : List κ)
  | area (polygons : List (Polygon κ))
deriving BEq, DecidableEq, Repr

variable {κ : Type}

/-- The segments between the neighbours in a list of vertices. -/
def segments : List κ → List (Segment κ)
  | [] => []
  | [_] => []
  | first :: second :: rest => ⟨first, second⟩ :: segments (second :: rest)

@[simp] theorem length_segments (vertices : List κ) :
    (segments vertices).length = vertices.length - 1 := by
  induction vertices with
  | nil => rfl
  | cons first rest ih =>
    cases rest with
    | nil => rfl
    | cons second rest => simpa [segments] using ih

section Closing

variable [BEq κ]

/-- A list of vertices is closed when it ends where it begins; the empty list counts. -/
def isClosed (vertices : List κ) : Bool :=
  vertices.head? == vertices.getLast?

/-- Close a list of vertices by going back to the first one. -/
def closeRing (vertices : List κ) : List κ :=
  if isClosed vertices then vertices else vertices ++ vertices.head?.toList

/-- A polygon whose rings are closed. -/
def Polygon.closing (exterior : List κ) (interiors : List (List κ)) : Polygon κ :=
  ⟨closeRing exterior, interiors.map closeRing⟩

/-- A closed ring is left as it is. -/
@[simp] theorem closeRing_of_isClosed {vertices : List κ} (closed : isClosed vertices = true) :
    closeRing vertices = vertices := by
  simp [closeRing, closed]

/-- Closing a ring makes it closed, if its vertices are equal to themselves. -/
theorem isClosed_closeRing {vertices : List κ}
    (defined : ∀ vertex ∈ vertices, (vertex == vertex) = true) :
    isClosed (closeRing vertices) = true := by
  by_cases closed : isClosed vertices = true
  · rw [closeRing_of_isClosed closed]
    exact closed
  · cases vertices with
    | nil => exact absurd rfl closed
    | cons first rest =>
        rw [closeRing, if_neg closed, List.head?_cons, Option.toList_some, isClosed,
          List.getLast?_append, List.getLast?_singleton, Option.some_or]
        exact defined first List.mem_cons_self

end Closing

/-- The rings of a polygon, the outline first. -/
def Polygon.rings (polygon : Polygon κ) : List (List κ) :=
  polygon.exterior :: polygon.interiors

/-- A single polygon as a shape. -/
def Polygon.toGeometry (polygon : Polygon κ) : Geometry κ :=
  .area [polygon]

end Gazetteer
