import Gazetteer.Proofs.Hierarchy.Assignment
import Gazetteer.Proofs.Spatial.Limit

/-!
# The street of a building

The street of a building is looked for among a fixed number of places around it, of whatever
sort these are.  Of the streets among them, the nearest that the address names is the nearest
of that name at all, and the nearest street is the nearest at all.  So the first parent is a
street of the right name, none of which is nearer, exactly if one within the radius is among
the places examined; otherwise the same is true of streets of any name.  Where other places
crowd around the building, its street may be missed, whatever it is called.
-/

namespace Gazetteer

variable {K : Type} [Scalar K]

namespace Place

/-- A street among some places, within a radius around a point. -/
structure IsStreetNear (places : List (Place K)) (radius : K) (p : Coord K)
    (way : Place K) : Prop where
  mem : way ∈ places
  isStreet : way.isStreet = true
  within : way.toldDistance p ≤ radius

/-- A street of a name among some places, within a radius around a point. -/
structure IsNamedStreetNear (places : List (Place K)) (radius : K) (p : Coord K) (name : String)
    (way : Place K) : Prop extends IsStreetNear places radius p way where
  named : way.defaultName? = some name

/-- The first of some parents is of a sort, and nothing of that sort is nearer to a point. -/
def FirstIsNearest (sort : Place K → Prop) (p : Coord K) (parents : List PlaceId) : Prop :=
  ∃ way, sort way ∧ parents.head? = some way.id ∧
    ∀ other, sort other → way.toldDistance p ≤ other.toldDistance p

/-- Whether a place is a street within a radius. -/
def isNear (radius : K) (p : Coord K) (way : Place K) : Bool :=
  way.isStreet && way.toldDistance p ≤ radius

/-- Whether a place is a street of a name within a radius. -/
def isNamedNear (radius : K) (p : Coord K) (name : String) (way : Place K) : Bool :=
  way.isNear radius p && way.defaultName? == some name

variable {places : List (Place K)} {radius : K} {p : Coord K} {name : String} {way : Place K}

theorem isNear_iff : way.isNear radius p = true ↔
    way.isStreet = true ∧ way.toldDistance p ≤ radius := by
  rw [isNear, Bool.and_eq_true, decide_eq_true_eq]

theorem isNear_of_isNamedNear (near : way.isNamedNear radius p name = true) :
    way.isNear radius p = true :=
  (Bool.and_eq_true_iff.mp near).1

theorem isStreetNear_iff :
    IsStreetNear places radius p way ↔ way ∈ places ∧ way.isNear radius p = true := by
  rw [isNear_iff]
  exact ⟨fun near => ⟨near.mem, near.isStreet, near.within⟩,
    fun ⟨mem, isStreet, within⟩ => ⟨mem, isStreet, within⟩⟩

theorem isNamedStreetNear_iff :
    IsNamedStreetNear places radius p name way ↔
      way ∈ places ∧ way.isNamedNear radius p name = true := by
  rw [isNamedNear, Bool.and_eq_true, ← and_assoc, ← isStreetNear_iff, beq_iff_eq]
  exact ⟨fun near => ⟨near.toIsStreetNear, near.named⟩, fun ⟨near, named⟩ => ⟨near, named⟩⟩

end Place

/-! ## The first parent -/

namespace Store

variable {store : Store K} {radius : K} {house way : Place K}

omit [Scalar K] in
/-- An area that a place belongs to is not a street. -/
theorem isStreet_eq_false_of_ranksAbove {area : Place K}
    (above : area.ranksAbove house = true) : area.isStreet = false := by
  rw [Bool.eq_false_iff]
  intro isStreet
  have low := (Place.ranksAbove_iff.mp above).2.2.1
  have high := (Place.rank_of_isStreet isStreet).1
  exact absurd (UInt8.le_trans high low) (by decide)

/-- A street is the first parent of a building exactly if it is the one that is looked up. -/
theorem head?_parentsOf_eq_iff (building : house.isBuilding = true)
    (member : way ∈ store.toList) (isStreet : way.isStreet = true) :
    (store.parentsOf store.index radius house).head? = some way.id ↔
      store.index.streetOf? radius house = some way := by
  rw [parentsOf, if_pos building, List.head?_map]
  cases found : store.index.streetOf? radius house with
  | some street =>
      have stored := (mem_of_streetOf? found).1
      simp only [Option.toList_some, List.cons_append, List.head?_cons, Option.map_some,
        Option.some.injEq]
      exact ⟨eq_of_id_eq stored member, congrArg Place.id⟩
  | none =>
      simp only [Option.toList_none, List.nil_append, reduceCtorEq, iff_false]
      intro first
      obtain ⟨area, isFirst, same⟩ := Option.map_eq_some_iff.mp first
      obtain ⟨around, above⟩ := mem_areasAround_iff.mp (List.mem_of_head? isFirst)
      obtain rfl := eq_of_id_eq (List.mem_filter.mp around).1 member same
      rw [isStreet_eq_false_of_ranksAbove above] at isStreet
      contradiction

/-- Without a street that is looked up, no parent is a street. -/
theorem isStreet_eq_false_of_mem_parentsOf (nothing : store.index.streetOf? radius house = none)
    (member : way ∈ store.toList)
    (listed : way.id ∈ store.parentsOf store.index radius house) : way.isStreet = false := by
  rw [parentsOf, nothing, ite_self] at listed
  obtain ⟨area, isArea, same⟩ := List.mem_map.mp listed
  obtain ⟨around, above⟩ := mem_areasAround_iff.mp isArea
  obtain rfl := eq_of_id_eq (List.mem_filter.mp around).1 member same
  exact isStreet_eq_false_of_ranksAbove above

/-- Where nothing contains its centroid, a place is in no area. -/
theorem areasAround_eq_nil (outside : ∀ place ∈ store.toList,
    place.contains house.centroid = false) : store.areasAround house = [] := by
  refine List.eq_nil_iff_forall_not_mem.mpr fun area isArea => ?_
  obtain ⟨member, holds⟩ := List.mem_filter.mp (mem_areasAround_iff.mp isArea).1
  exact Bool.eq_false_iff.mp (outside area member) (Bool.and_eq_true_iff.mp holds).2

end Store

/-! ## The street that is looked up -/

variable [DistanceOrder K] {radius : K} {house : Place K} {name : String}

namespace SpatialIndex

variable {index : SpatialIndex K}

/-- The street of a building is the first of its name among the places examined, or else the
first of all streets. -/
theorem streetOf?_eq (inOrder : index.IsInOrder house.centroid)
    (wanted : house.address.get? "street" = some name) :
    index.streetOf? radius house =
      (((index.order house.centroid).take streetCandidates).find?
          (Place.isNamedNear radius house.centroid name)).or
        (((index.order house.centroid).take streetCandidates).find?
          (Place.isNear radius house.centroid)) := by
  have streets : (((index.candidates house.centroid streetCandidates).takeWhile fun candidate =>
        candidate.distance ≤ radius).map Candidate.place).filter Place.isStreet =
      ((index.order house.centroid).take streetCandidates).filter
        (Place.isNear radius house.centroid) := by
    have itself : (Candidate.place ∘ fun place : Place K =>
      ⟨place, place.toldDistance house.centroid⟩) = id := rfl
    rw [inOrder.takeWhile_candidates, List.map_map, itself, List.map_id, List.filter_filter]
    rfl
  have chosen : index.streetOf? radius house = house.chooseStreet?
      (((index.order house.centroid).take streetCandidates).filter
        (Place.isNear radius house.centroid)) := by
    rw [← streets, streetOf?, nearest]
    cases (index.candidates house.centroid streetCandidates).takeWhile fun candidate =>
        candidate.distance ≤ radius with
    | nil => simp [Place.chooseStreet?]
    | cons candidate rest => rfl
  rw [chosen]
  simp only [Place.chooseStreet?, wanted, Option.orElse_eq_orElse, Option.orElse_eq_or,
    List.find?_filter, List.head?_filter, Bool.decide_and, Bool.decide_eq_true]
  rfl

/-- The street of a building is one within the radius, and among the places examined. -/
theorem reaches_of_streetOf? (inOrder : index.IsInOrder house.centroid)
    (wanted : house.address.get? "street" = some name) {way : Place K}
    (found : index.streetOf? radius house = some way) :
    index.Reaches house.centroid streetCandidates way ∧
      way.isNear radius house.centroid = true := by
  rw [streetOf?_eq inOrder wanted, Option.or_eq_some_iff] at found
  rcases found with named | ⟨_, first⟩
  · exact ⟨List.mem_of_find?_eq_some named,
      Place.isNear_of_isNamedNear (List.find?_some named)⟩
  · exact ⟨List.mem_of_find?_eq_some first, List.find?_some first⟩

/-- Where every street is behind as many places as are examined, none is found. -/
theorem streetOf?_eq_none {places : List (Place K)}
    (inOrder : (ofPlaces places).IsInOrder house.centroid)
    (wanted : house.address.get? "street" = some name)
    (crowded : ∀ way ∈ places, way.isStreet = true →
      streetCandidates ≤ Place.countNearer places house.centroid way) :
    (ofPlaces places).streetOf? radius house = none := by
  by_contra something
  obtain ⟨way, found⟩ := Option.ne_none_iff_exists'.mp something
  obtain ⟨reached, near⟩ := reaches_of_streetOf? inOrder wanted found
  exact absurd (crowded way (mem_of_reaches reached) (Place.isNear_iff.mp near).1)
    (Nat.not_le.mpr (inOrder.countNearer_lt_of_reaches reached))

end SpatialIndex

/-! ## The street that is given -/

namespace Store

variable {store : Store K}

/-- If the first street of a sort that is examined is the one that is looked up, then a street
of the sort is the first parent, none of which is nearer, exactly if one is examined. -/
theorem firstIsNearest_iff (inOrder : store.index.IsInOrder house.centroid)
    (building : house.isBuilding = true) (wanted : house.address.get? "street" = some name)
    {sort : Place K → Prop} {isSort : Place K → Bool}
    (sort_iff : ∀ way, sort way ↔ way ∈ store.toList ∧ isSort way = true)
    (near : ∀ way, isSort way = true → way.isNear radius house.centroid = true)
    (chosen : ∀ way, ((store.index.order house.centroid).take streetCandidates).find? isSort =
      some way → store.index.streetOf? radius house = some way) :
    Place.FirstIsNearest sort house.centroid (store.parentsOf store.index radius house) ↔
      ∃ way, sort way ∧ store.index.Reaches house.centroid streetCandidates way := by
  constructor
  · rintro ⟨way, isWay, first, _⟩
    -- no area is a street, so the first parent is the street that is looked up
    obtain ⟨member, fits⟩ := (sort_iff way).mp isWay
    have isStreet := (Place.isNear_iff.mp (near way fits)).1
    have found := (head?_parentsOf_eq_iff building member isStreet).mp first
    exact ⟨way, isWay, (SpatialIndex.reaches_of_streetOf? inOrder wanted found).1⟩
  · rintro ⟨way, isWay, reached⟩
    have fits := ((sort_iff way).mp isWay).2
    obtain ⟨first, found⟩ := Option.isSome_iff_exists.mp
      (List.find?_isSome.mpr ⟨way, reached, fits⟩)
    have firstFits : isSort first = true := List.find?_some found
    have member := SpatialIndex.mem_of_reaches (List.mem_of_find?_eq_some found)
    have isStreet := (Place.isNear_iff.mp (near first firstFits)).1
    refine ⟨first, (sort_iff first).mpr ⟨member, firstFits⟩,
      (head?_parentsOf_eq_iff building member isStreet).mpr (chosen first found), ?_⟩
    intro other isOther
    obtain ⟨otherMember, otherFits⟩ := (sort_iff other).mp isOther
    exact inOrder.toldDistance_le_of_find?
      (fun way isWay => (Place.isNear_iff.mp (near way isWay)).2) found
      (SpatialIndex.mem_order_iff.mpr otherMember) otherFits

end Store

/-- What the parents of a building say about streets, if a street is named in its address. -/
structure Place.HasOwnStreet (places : List (Place K)) (radius : K) (house : Place K)
    (name : String) (parents : List PlaceId) : Prop where
  /-- A nearest street of that name comes first if one is among the places examined. -/
  named : FirstIsNearest (IsNamedStreetNear places radius house.centroid name) house.centroid
      parents ↔
    ∃ way, IsNamedStreetNear places radius house.centroid name way ∧
      (SpatialIndex.ofPlaces places).Reaches house.centroid streetCandidates way
  /-- Without one, a nearest street comes first if any is among them. -/
  unnamed : (∀ way, IsNamedStreetNear places radius house.centroid name way →
      ¬ (SpatialIndex.ofPlaces places).Reaches house.centroid streetCandidates way) →
    (FirstIsNearest (IsStreetNear places radius house.centroid) house.centroid parents ↔
      ∃ way, IsStreetNear places radius house.centroid way ∧
        (SpatialIndex.ofPlaces places).Reaches house.centroid streetCandidates way)
  /-- Without any, no parent is a street. -/
  streetless : (∀ way, IsStreetNear places radius house.centroid way →
      ¬ (SpatialIndex.ofPlaces places).Reaches house.centroid streetCandidates way) →
    ∀ way ∈ places, way.id ∈ parents → way.isStreet = false

namespace Store

theorem hasOwnStreet_parentsOf (store : Store K) (radius : K)
    (inOrder : store.index.IsInOrder house.centroid) (building : house.isBuilding = true)
    (wanted : house.address.get? "street" = some name) :
    house.HasOwnStreet store.toList radius name (store.parentsOf store.index radius house) where
  named := by
    refine firstIsNearest_iff inOrder building wanted
      (fun way => Place.isNamedStreetNear_iff) (fun way => Place.isNear_of_isNamedNear) ?_
    intro way found
    rw [SpatialIndex.streetOf?_eq inOrder wanted, found, Option.some_or]
  unnamed := by
    intro left
    refine firstIsNearest_iff inOrder building wanted
      (fun way => Place.isStreetNear_iff) (fun way => id) ?_
    intro way found
    -- a name that no street has does not hold back the first of all streets
    have none : ((store.index.order house.centroid).take streetCandidates).find?
        (Place.isNamedNear radius house.centroid name) = none := by
      refine List.find?_eq_none.mpr fun way reached fits => ?_
      have member := SpatialIndex.mem_of_reaches reached
      exact left way (Place.isNamedStreetNear_iff.mpr ⟨member, fits⟩) reached
    rw [SpatialIndex.streetOf?_eq inOrder wanted, none, found, Option.none_or]
  streetless := by
    intro left way member listed
    refine isStreet_eq_false_of_mem_parentsOf ?_ member listed
    by_contra something
    obtain ⟨street, found⟩ := Option.ne_none_iff_exists'.mp something
    obtain ⟨reached, near⟩ := SpatialIndex.reaches_of_streetOf? inOrder wanted found
    have stored := SpatialIndex.mem_of_reaches reached
    exact left street (Place.isStreetNear_iff.mpr ⟨stored, near⟩) reached

end Store

/-- Places that are numbered by position and list only each other can be given parents.  For
every building with a street in its address around which the index is in order: a nearest
street of that name is the first parent exactly if one within the radius is among the places
examined; failing that, a nearest street is exactly if any is.  A street within the radius is
among the places examined where there are no more than 256 up to its distance, and it is not
where 256 are nearer. -/
theorem assignParents_hasOwnStreet (radius : K) (places : List (Place K))
    (numbered : IsNumbered places)
    (listed : ∀ place ∈ places, ∀ parent ∈ place.parents, parent.toNat < places.length) :
    ∃ given, assignParents radius places = .ok given ∧
      ∀ house ∈ places, house.isBuilding = true →
        ∀ name, house.address.get? "street" = some name →
          (SpatialIndex.ofPlaces places).IsInOrder house.centroid →
            (∃ parents, house.withParents parents ∈ given ∧
              house.HasOwnStreet places radius name parents) ∧
            ∀ way, Place.IsStreetNear places radius house.centroid way →
              (Place.countNotFarther places house.centroid way ≤ streetCandidates →
                (SpatialIndex.ofPlaces places).Reaches house.centroid streetCandidates way) ∧
              ((SpatialIndex.ofPlaces places).Reaches house.centroid streetCandidates way →
                Place.countNearer places house.centroid way < streetCandidates) := by
  obtain ⟨store, stored⟩ := Store.exists_ofPlaces_iff.mpr ⟨numbered, listed⟩
  obtain rfl := Store.toList_of_ofPlaces stored
  refine ⟨_, Store.assignParents_of_ofPlaces stored radius, ?_⟩
  intro house member building name wanted inOrder
  refine ⟨⟨_, List.mem_map_of_mem member,
    store.hasOwnStreet_parentsOf radius inOrder building wanted⟩, ?_⟩
  intro way near
  exact ⟨inOrder.reaches_of_countNotFarther_le near.mem near.within,
    inOrder.countNearer_lt_of_reaches⟩

/-! ## A farmhouse and two lanes -/

/-- Places without parents list only each other. -/
theorem listed_of_bare {places : List (Place ℚ)} (bare : ∀ place ∈ places, place.parents = []) :
    ∀ place ∈ places, ∀ parent ∈ place.parents, parent.toNat < places.length := by
  intro place member parent isParent
  rw [bare place member] at isParent
  contradiction

/-- A house at the origin whose address names a lane. -/
def farmhouse : Place ℚ :=
  { plot 0 "building" 30 (.point ⟨0, 0⟩) with address := .ofList [("street", "Mill Lane")] }

/-- A lane with a name that runs past the origin at a distance. -/
def lane (id : PlaceId) (name : String) (away : ℚ) : Place ℚ :=
  { plot id "highway" 26 (.line [⟨-1, away⟩, ⟨1, away⟩]) with
      names := .ofList [(defaultNameKey, name)] }

/-- A house between a lane of another name and, farther away, its own. -/
def farm : List (Place ℚ) :=
  [farmhouse, lane 1 "Church Lane" 1, lane 2 "Mill Lane" 2]

/-- The farmhouse belongs to the lane that its address names, though the other is nearer. -/
theorem assignParents_hasOwnStreet_farm :
    IsNumbered farm ∧ (∀ place ∈ farm, ∀ parent ∈ place.parents, parent.toNat < farm.length) ∧
      (SpatialIndex.ofPlaces farm).IsInOrder ⟨0, 0⟩ ∧
      ∃ given parents, assignParents 3 farm = .ok given ∧
        farmhouse.withParents parents ∈ given ∧
        Place.FirstIsNearest (Place.IsNamedStreetNear farm 3 ⟨0, 0⟩ "Mill Lane") ⟨0, 0⟩
          parents := by
  have numbered : IsNumbered farm := by decide +kernel
  have listed : ∀ place ∈ farm, ∀ parent ∈ place.parents, parent.toNat < farm.length :=
    listed_of_bare (by decide +kernel)
  have inOrder : (SpatialIndex.ofPlaces farm).IsInOrder ⟨0, 0⟩ :=
    SpatialIndex.isInOrder_of_boxes (by decide +kernel)
  have near : Place.IsNamedStreetNear farm 3 ⟨0, 0⟩ "Mill Lane" (lane 2 "Mill Lane" 2) :=
    ⟨⟨.tail _ (.tail _ (.head _)), by decide +kernel, by decide +kernel⟩, by decide +kernel⟩
  obtain ⟨given, assigned, street⟩ := assignParents_hasOwnStreet 3 farm numbered listed
  obtain ⟨⟨parents, isGiven, own⟩, examined⟩ :=
    street farmhouse (.head _) (by decide +kernel) "Mill Lane" (by decide +kernel) inOrder
  have few : Place.countNotFarther farm ⟨0, 0⟩ (lane 2 "Mill Lane" 2) ≤ streetCandidates :=
    List.countP_le_length.trans (by decide)
  exact ⟨numbered, listed, inOrder, given, parents, assigned, isGiven,
    own.named.mpr ⟨_, near, (examined _ near.toIsStreetNear).1 few⟩⟩

/-- A house and its lane, with a crowd of places at the house. -/
def crowd : List (Place ℚ) :=
  farmhouse :: lane 1 "Mill Lane" 1 ::
    (List.range 256).map fun position => plot (.ofNat (position + 2)) "place" 0 (.point ⟨0, 0⟩)

/-- The farmhouse is given no parents, though the lane that its address names is within the
radius. -/
theorem assignParents_crowd :
    IsNumbered crowd ∧ (∀ place ∈ crowd, ∀ parent ∈ place.parents, parent.toNat < crowd.length) ∧
      (SpatialIndex.ofPlaces crowd).IsInOrder farmhouse.centroid ∧
      farmhouse.isBuilding = true ∧ farmhouse.address.get? "street" = some "Mill Lane" ∧
      Place.IsNamedStreetNear crowd 1 farmhouse.centroid "Mill Lane" (lane 1 "Mill Lane" 1) ∧
      ∃ given, assignParents 1 crowd = .ok given ∧ farmhouse.withParents [] ∈ given := by
  have numbered : IsNumbered crowd := by decide +kernel
  have listed : ∀ place ∈ crowd, ∀ parent ∈ place.parents, parent.toNat < crowd.length :=
    listed_of_bare (by decide +kernel)
  have inOrder : (SpatialIndex.ofPlaces crowd).IsInOrder farmhouse.centroid :=
    SpatialIndex.isInOrder_of_boxes (by decide +kernel)
  have member : farmhouse ∈ crowd := .head _
  have wanted : farmhouse.address.get? "street" = some "Mill Lane" := by decide +kernel
  have near : Place.IsNamedStreetNear crowd 1 farmhouse.centroid "Mill Lane"
      (lane 1 "Mill Lane" 1) :=
    ⟨⟨.tail _ (.head _), by decide +kernel, by decide +kernel⟩, by decide +kernel⟩
  refine ⟨numbered, listed, inOrder, rfl, wanted, near, ?_⟩
  obtain ⟨store, stored⟩ := Store.exists_ofPlaces_iff.mpr ⟨numbered, listed⟩
  have whole := Store.toList_of_ofPlaces stored
  have streetless : store.index.streetOf? 1 farmhouse = none := by
    rw [Store.index, whole]
    exact SpatialIndex.streetOf?_eq_none inOrder wanted (by decide +kernel)
  have areas : store.areasAround farmhouse = [] := by
    apply Store.areasAround_eq_nil
    rw [whole]
    decide +kernel
  have parents : store.parentsOf store.index 1 farmhouse = [] := by
    rw [Store.parentsOf, streetless, areas, ite_self]
    rfl
  refine ⟨_, Store.assignParents_of_ofPlaces stored 1, List.mem_map.mpr ⟨farmhouse, ?_, ?_⟩⟩
  · rw [whole]
    exact member
  · rw [Store.give, parents]

end Gazetteer
