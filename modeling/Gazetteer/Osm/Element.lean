import Gazetteer.Place

/-!
# Map elements

What a map file is made of: nodes with positions, ways through nodes, and relations of
members with roles.  All of them carry tags.  Positions are whole ten-millionths of a
degree.
-/

namespace Gazetteer.Osm

/-- The number of an element among those of its kind. -/
abbrev ElementId := Int64

/-- The number of degrees in ten-millionths of a degree. -/
def degrees (units : Int) : Float :=
  Float.ofInt units * 1e-7

/-- A point on the map. -/
structure Node where
  id : ElementId
  lat : Int
  lon : Int
  tags : Tags

/-- The position of a node. -/
def Node.position (node : Node) : Coord Float :=
  ⟨degrees node.lon, degrees node.lat⟩

/-- A path over nodes. -/
structure Way where
  id : ElementId
  nodes : List ElementId
  tags : Tags

/-- Whether a way comes back to the node where it began, with at least two others between. -/
def Way.isLoop (way : Way) : Bool :=
  4 ≤ way.nodes.length && way.nodes.head? == way.nodes.getLast?

/-- An element with its role in a relation. -/
structure Member where
  kind : ElementKind
  id : ElementId
  role : String

/-- Elements that belong together. -/
structure Relation where
  id : ElementId
  members : List Member
  tags : Tags

/-- An element of any kind. -/
inductive Element where
  | node (node : Node)
  | way (way : Way)
  | relation (relation : Relation)

namespace Element

/-- The kind of an element. -/
def kind : Element → ElementKind
  | .node _ => .node
  | .way _ => .way
  | .relation _ => .relation

/-- The number of an element among those of its kind. -/
def id : Element → ElementId
  | .node given => given.id
  | .way given => given.id
  | .relation given => given.id

/-- The tags of an element. -/
def tags : Element → Tags
  | .node given => given.tags
  | .way given => given.tags
  | .relation given => given.tags

end Element

end Gazetteer.Osm
