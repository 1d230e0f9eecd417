import Gazetteer.Plane.Centroid
import Gazetteer.Plane.Bounds
import Gazetteer.Rank
import Gazetteer.Tags

/-!
# Places

A place is one feature of the real world as the gazetteer holds it: where it is, what it
is, how it ranks, what it is called, and which wider places it belongs to.
-/

namespace Gazetteer

/-- The kinds of map elements that places are made from. -/
inductive ElementKind where
  | node
  | way
  | relation
deriving DecidableEq, Repr

namespace ElementKind

/-- The name of a kind. -/
def name : ElementKind → String
  | node => "node"
  | way => "way"
  | relation => "relation"

/-- The kind with a given name. -/
def ofName? (name : String) : Option ElementKind :=
  match name with
  | "node" => some node
  | "way" => some way
  | "relation" => some relation
  | _ => none

@[simp] theorem ofName?_name (kind : ElementKind) : ofName? kind.name = some kind := by
  cases kind <;> rfl

end ElementKind

/-- The number of a place: its position in the store. -/
abbrev PlaceId := UInt32

/-- The key of the untranslated name. -/
def defaultNameKey : String := "default"

/-- A feature of the real world. -/
structure Place (K : Type) where
  id : PlaceId
  /-- The kind of map element it comes from. -/
  element : ElementKind
  /-- The number of that element. -/
  elementId : Int64
  /-- The key of its main tag, such as `highway`. -/
  category : String
  /-- The value of its main tag, such as `residential`. -/
  placeType : String
  geometry : Geometry (Coord K)
  bounds : Bounds K
  centroid : Coord K
  addressRank : Rank := 0
  searchRank : Rank := 0
  importance : Option Float := none
  wikidata : Option String := none
  /-- Names by language, the untranslated one under `defaultNameKey`. -/
  names : Tags := ∅
  /-- Address tags such as `housenumber` and `street`. -/
  address : Tags := ∅
  extraTags : Tags := ∅
  /-- The wider places it lies in or belongs to. -/
  parents : List PlaceId := []
  countryCode : Option String := none

namespace Place

variable {K : Type}

/-- A place with its box and centroid taken from its shape; none if the shape has no
vertices. -/
def ofGeometry? [Scalar K] (id : PlaceId) (element : ElementKind) (elementId : Int64)
    (category placeType : String) (geometry : Geometry (Coord K)) : Option (Place K) := do
  let bounds ← geometry.bounds?
  let centroid ← geometry.centroid?
  some { id, element, elementId, category, placeType, geometry, bounds, centroid }

/-- The place with other ranks. -/
def withRanks (place : Place K) (ranks : Ranks) : Place K :=
  { place with searchRank := ranks.search, addressRank := ranks.address }

/-- Name the place in a language; no language means the untranslated name. -/
def addName (place : Place K) (language name : String) : Place K :=
  let key := if language.isEmpty then defaultNameKey else language
  { place with names := place.names.insert key name }

/-- The untranslated name. -/
def defaultName? (place : Place K) : Option String :=
  place.names.get? defaultNameKey

/-- The house number. -/
def houseNumber? (place : Place K) : Option String :=
  place.address.get? "housenumber"

/-- The element a place comes from, such as `way/42`. -/
def sourceText (place : Place K) : String :=
  place.element.name ++ "/" ++ toString place.elementId.toInt

/-- Whether a place falls under a pattern: `class` for all places of a category,
`class=type` for those of one type, `class=*` again for all. -/
def fallsUnder (place : Place K) (pattern : String) : Bool :=
  match Text.cut? '=' pattern.toList with
  | some (category, kind) =>
    place.category.toList == category && (kind == ['*'] || place.placeType.toList == kind)
  | none => place.category == pattern

/-- Whether a place is at the level of a building. -/
def isBuilding (place : Place K) : Bool :=
  place.addressRank == Rank.building

/-- Whether a place is a street. -/
def isStreet (place : Place K) : Bool :=
  place.category == "highway" &&
    (Rank.street ≤ place.addressRank && place.addressRank ≤ Rank.minorStreet)

/-- Whether one place is preferred to another: the more detailed one, or of two with the
same rank the one with the smaller number. -/
def precedes (first second : Place K) : Bool :=
  second.addressRank < first.addressRank ||
    (first.addressRank == second.addressRank && first.id < second.id)

/-- The place that precedes all others, the earlier one of equals. -/
def foremost? : List (Place K) → Option (Place K)
  | [] => none
  | place :: rest =>
    match foremost? rest with
    | some best => if best.precedes place then some best else some place
    | none => some place

theorem mem_of_foremost? {places : List (Place K)} {place : Place K}
    (best : foremost? places = some place) : place ∈ places := by
  induction places with
  | nil => simp [foremost?] at best
  | cons first rest ih =>
    rw [foremost?] at best
    split at best
    · rename_i inner found
      split at best
      · simp only [Option.some.injEq] at best
        exact List.mem_cons_of_mem _ (ih (by rw [found, best]))
      · simp_all
    · simp_all

end Place

end Gazetteer
