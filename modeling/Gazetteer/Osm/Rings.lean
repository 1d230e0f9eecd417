import Gazetteer.Plane.Containment

/-!
# Rings from pieces

The outline of a large area is drawn in pieces, in any order and direction.  Pieces are
joined end to end until they close, and rings that lie inside others become their holes.

Joining only asks whether two vertices are equal, so it works on vertices of any type.
-/

namespace Gazetteer.Osm

section Joining

variable {κ : Type} [BEq κ]

/-- Whether a path is closed and long enough to enclose something. -/
def isRing (path : List κ) : Bool :=
  isClosed path && 4 ≤ path.length

/-- Join a piece to a path where two of their ends are equal; the vertex they share is
written once.  The end of the path is preferred to its beginning. -/
def join? (path piece : List κ) : Option (List κ) :=
  if path.getLast? == piece.head? then some (path ++ piece.tail)
  else if path.getLast? == piece.getLast? then some (path ++ piece.reverse.tail)
  else if path.head? == piece.getLast? then some (piece.dropLast ++ path)
  else if path.head? == piece.head? then some (piece.reverse.dropLast ++ path)
  else none

/-- Join the first piece that can be joined, and hand back the others. -/
def joinFirst? (path : List κ) : List (List κ) → Option (List κ × List (List κ))
  | [] => none
  | piece :: rest =>
    match join? path piece with
    | some longer => some (longer, rest)
    | none => (joinFirst? path rest).map fun (longer, others) => (longer, piece :: others)

/-- Joining takes one piece away. -/
theorem length_of_joinFirst? {path longer : List κ} {pieces others : List (List κ)}
    (joined : joinFirst? path pieces = some (longer, others)) :
    others.length + 1 = pieces.length := by
  induction pieces generalizing longer others with
  | nil => simp [joinFirst?] at joined
  | cons piece rest ih =>
    rw [joinFirst?] at joined
    split at joined
    · simp only [Option.some.injEq, Prod.mk.injEq] at joined
      simp [← joined.2]
    · simp only [Option.map_eq_some_iff, Prod.mk.injEq, Prod.exists] at joined
      obtain ⟨path, tail, found, -, rfl⟩ := joined
      simp [ih found]

/-- Join pieces to a path for as long as one fits, and hand back those that are left. -/
def grow (path : List κ) (pieces : List (List κ)) : List κ × List (List κ) :=
  match _joined : joinFirst? path pieces with
  | none => (path, pieces)
  | some (longer, others) => grow longer others
termination_by pieces.length
decreasing_by
  have := length_of_joinFirst? _joined
  omega

theorem length_grow_le (path : List κ) (pieces : List (List κ)) :
    (grow path pieces).2.length ≤ pieces.length := by
  fun_induction grow path pieces with
  | case1 => simp
  | case2 path pieces longer others joined ih =>
    have := length_of_joinFirst? joined
    omega

/-- The rings that pieces make up.  A piece that is a ring by itself stays one; any other
grows for as long as it can, and is dropped if that does not close it. -/
def mergeRings : List (List κ) → List (List κ)
  | [] => []
  | piece :: rest =>
    if isRing piece then piece :: mergeRings rest
    else
      let grown := grow piece rest
      if isRing grown.1 then grown.1 :: mergeRings grown.2 else mergeRings grown.2
termination_by pieces => pieces.length
decreasing_by
  · simp
  · have := length_grow_le piece rest
    simp only [List.length_cons]
    omega
  · have := length_grow_le piece rest
    simp only [List.length_cons]
    omega

end Joining

section Holes

variable {K : Type} [Scalar K]

/-- The position of the outline that a hole belongs to: the first that contains the vertex
at which the hole begins. -/
def host? (outlines : List (Polygon (Coord K))) (hole : List (Coord K)) : Option Nat :=
  hole.head?.bind fun vertex => outlines.findIdx? fun outline => outline.contains vertex

/-- Give every hole to the outline that it belongs to; holes that belong to none are
dropped. -/
def assignHoles (outlines : List (Polygon (Coord K))) (holes : List (List (Coord K))) :
    List (Polygon (Coord K)) :=
  let hosts := holes.map (host? outlines)
  outlines.mapIdx fun position outline =>
    Polygon.closing outline.exterior
      (((holes.zip hosts).filter fun hole => hole.2 == some position).map Prod.fst)

/-- The area that pieces of outlines and pieces of holes make up; none without an outline. -/
def assembleArea? (outer inner : List (List (Coord K))) : Option (List (Polygon (Coord K))) :=
  match mergeRings outer with
  | [] => none
  | outlines => some (assignHoles (outlines.map fun ring => ⟨ring, []⟩) (mergeRings inner))

end Holes

end Gazetteer.Osm
