import Gazetteer.Osm.Record
import Gazetteer.Osm.Rings
import Gazetteer.Plane.Binary64
import Std.Data.HashMap
import Std.Data.HashSet
import Std.Data.TreeMap

/-!
# Surveying a map file

Ways name nodes, and relations name ways, so shapes can only be drawn once positions are
known.  A survey goes through the elements and keeps what the wanted shapes need: the
ways that bound wanted areas, the nodes of these and of other wanted ways, and records of
their positions.  Of elements that are given twice the last one counts.
-/

namespace Gazetteer.Osm

open Std (HashMap HashSet TreeMap)

/-- The ways that bound an area from outside and from inside. -/
structure Boundary where
  outer : List ElementId
  inner : List ElementId
deriving DecidableEq, Repr

namespace Boundary

/-- The ways among the members that have one of the given roles. -/
def waysIn (roles : List String) (members : List Member) : List ElementId :=
  members.filterMap fun member =>
    if member.kind = .way ∧ member.role ∈ roles then some member.id else none

/-- The boundary that members draw; a way without a role bounds from outside. -/
def ofMembers (members : List Member) : Boundary :=
  ⟨waysIn ["outer", ""] members, waysIn ["inner"] members⟩

/-- All ways of a boundary. -/
def ways (boundary : Boundary) : List ElementId :=
  boundary.outer ++ boundary.inner

end Boundary

/-- Whether a relation with these tags describes an area. -/
def isAreaRelation (tags : Tags) : Bool :=
  tags.has "type" "multipolygon" || tags.has "type" "boundary"

/-- The boundary of an element, if it is the relation of a wanted area. -/
def boundary? (wanted : Tags → Bool) : Element → Option (ElementId × Boundary)
  | .relation relation =>
    if isAreaRelation relation.tags && wanted relation.tags then
      some (relation.id, Boundary.ofMembers relation.members)
    else none
  | _ => none

/-- The way that an element is, if it is wanted itself or needed for an area. -/
def surveyedWay? (wanted : Tags → Bool) (needed : HashSet ElementId) : Element → Option Way
  | .way way => if needed.contains way.id || wanted way.tags then some way else none
  | _ => none

/-- The node that an element is, if it is needed for a way. -/
def surveyedNode? (needed : HashSet ElementId) : Element → Option Node
  | .node node => if needed.contains node.id then some node else none
  | _ => none

/-- What is known about the shapes of a map. -/
structure Survey where
  boundaries : HashMap ElementId Boundary
  ways : HashMap ElementId (List ElementId)
  /-- The records of positions by the keys of their nodes. -/
  records : TreeMap (List UInt8) (List UInt8)

namespace Survey

/-- The boundaries of the wanted areas. -/
def boundariesOf (wanted : Tags → Bool) (elements : List Element) : List (ElementId × Boundary) :=
  elements.filterMap (boundary? wanted)

/-- The wanted ways, and those on the boundaries. -/
def waysOf (wanted : Tags → Bool) (boundaries : List (ElementId × Boundary))
    (elements : List Element) : List Way :=
  let needed := HashSet.ofList (boundaries.flatMap fun entry => entry.2.ways)
  elements.filterMap (surveyedWay? wanted needed)

/-- The nodes on the ways. -/
def nodesOf (ways : List Way) (elements : List Element) : List Node :=
  let needed := HashSet.ofList (ways.flatMap Way.nodes)
  elements.filterMap (surveyedNode? needed)

/-- What is known if these boundaries, ways and nodes are kept. -/
def ofParts (boundaries : List (ElementId × Boundary)) (ways : List Way) (nodes : List Node) :
    Survey where
  boundaries := HashMap.ofList boundaries
  ways := HashMap.ofList (ways.map fun way => (way.id, way.nodes))
  records := TreeMap.ofList (nodes.map fun node => (recordKey node.id, recordOf node.position))

/-- Survey the elements with wanted tags: first the boundaries, then the ways, then the
nodes. -/
def ofElements (wanted : Tags → Bool) (elements : List Element) : Survey :=
  let boundaries := boundariesOf wanted elements
  let ways := waysOf wanted boundaries elements
  ofParts boundaries ways (nodesOf ways elements)

/-- The position of a node, if there is a record of it. -/
def position? (survey : Survey) (node : ElementId) : Option (Coord Float) :=
  survey.records[recordKey node]?.bind positionOf?

/-- The positions of those of the nodes that are known. -/
def trace (survey : Survey) (nodes : List ElementId) : List (Coord Float) :=
  nodes.filterMap survey.position?

/-- The vertices of a way. -/
def vertices? (survey : Survey) (way : ElementId) : Option (List (Coord Float)) :=
  survey.ways[way]?.map survey.trace

/-- A way as a line, of at least two vertices. -/
def line? (survey : Survey) (way : ElementId) : Option (List (Coord Float)) :=
  (survey.vertices? way).filter fun vertices => 2 ≤ vertices.length

/-- A way as the outline of an area.  It is closed if need be, and has at least three
vertices before that and four after. -/
def area? (survey : Survey) (way : ElementId) : Option (Polygon (Coord Float)) := do
  let vertices ← survey.vertices? way
  let ring := closeRing vertices
  if 3 ≤ vertices.length ∧ 4 ≤ ring.length then some ⟨ring, []⟩ else none

/-- The pieces that ways contribute to a boundary. -/
def piecesOf (survey : Survey) (ways : List ElementId) : List (List (Coord Float)) :=
  ways.filterMap survey.line?

/-- The area of a relation. -/
def relationArea? (survey : Survey) (relation : ElementId) :
    Option (List (Polygon (Coord Float))) := do
  let boundary ← survey.boundaries[relation]?
  assembleArea? (survey.piecesOf boundary.outer) (survey.piecesOf boundary.inner)

end Survey

end Gazetteer.Osm
