import Gazetteer.Spatial

/-!
# Finding the parents of places

The parents of a place are the areas around its centroid that rank above it, the most
detailed first.  A building also belongs to a street: the nearest one that its address
names, or else the nearest one.
-/

namespace Gazetteer

variable {K : Type}

namespace Rank

/-- The most detailed rank of an area that others belong to. -/
def area : Rank := 25

end Rank

/-- The number of nearest places among which the street of a building is looked for. -/
def streetCandidates : Nat := 256

namespace Place

/-- Whether a place can be the parent of another one, going by rank. -/
def ranksAbove (parent place : Place K) : Bool :=
  parent.id != place.id && 0 < parent.addressRank && parent.addressRank ≤ Rank.area &&
    parent.addressRank < place.addressRank

/-- The street that a building belongs to, among streets in order of distance. -/
def chooseStreet? (place : Place K) (streets : List (Place K)) : Option (Place K) :=
  let named := streets.find? fun street =>
    match place.address.get? "street" with
    | none => false
    | some wanted => street.defaultName? == some wanted
  named <|> streets.head?

end Place

variable [Scalar K]

/-- The street near a building that it belongs to. -/
def SpatialIndex.streetOf? (index : SpatialIndex K) (radius : K) (place : Place K) :
    Option (Place K) :=
  match index.nearest place.centroid streetCandidates radius with
  | .error _ => none
  | .ok near => place.chooseStreet? ((near.map Candidate.place).filter Place.isStreet)

namespace Store

/-- The areas that a place belongs to, the most detailed first. -/
def areasAround (store : Store K) (place : Place K) : List (Place K) :=
  ((store.containing place.centroid).filter fun area => area.ranksAbove place).mergeSort
    fun first second => !second.precedes first

/-- The parents of a place: the street of a building, looked up in the index of the store,
then areas. -/
def parentsOf (store : Store K) (index : SpatialIndex K) (radius : K) (place : Place K) :
    List PlaceId :=
  let street := if place.isBuilding then index.streetOf? radius place else none
  (street.toList ++ store.areasAround place).map Place.id

end Store

/-- Give every place its parents. -/
def assignParents (radius : K) (places : List (Place K)) :
    Except SnapshotFault (List (Place K)) := do
  let store ← Store.ofPlaces places
  let index := store.index
  return store.toList.map fun place =>
    { place with parents := store.parentsOf index radius place }

end Gazetteer
