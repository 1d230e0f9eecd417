import Gazetteer.Hierarchy.Parents
import Gazetteer.Proofs.Hierarchy.Climb
import Gazetteer.Proofs.Plane.Exact
import Gazetteer.Proofs.Spatial.Contents
import Mathlib.Data.List.Nodup
import Mathlib.Logic.Relation

/-!
# Places that are given their parents

A place that is given its parents belongs to places of the store that rank above it, whatever
the areas and their boxes are: they may overlap, be equal or hold each other's centroids.  So
the places can be stored again with their parents, none of them lies above itself, and no chain
has more levels than there are ranks.
-/

namespace Gazetteer

variable {K : Type}

namespace Place

variable {place parent : Place K}

theorem isBuilding_iff : place.isBuilding = true ↔ place.addressRank = Rank.building := by
  simp [isBuilding]

theorem rank_of_isStreet (street : place.isStreet = true) :
    Rank.street ≤ place.addressRank ∧ place.addressRank ≤ Rank.minorStreet := by
  simp only [isStreet, Bool.and_eq_true, decide_eq_true_eq] at street
  exact street.2

theorem ranksAbove_iff :
    parent.ranksAbove place = true ↔
      parent.id ≠ place.id ∧ 0 < parent.addressRank ∧ parent.addressRank ≤ Rank.area ∧
        parent.addressRank < place.addressRank := by
  simp [ranksAbove, and_assoc]

theorem mem_of_chooseStreet? {streets : List (Place K)} {way : Place K}
    (chosen : place.chooseStreet? streets = some way) : way ∈ streets := by
  simp only [Place.chooseStreet?, Option.orElse_eq_orElse, Option.orElse_eq_or,
    Option.or_eq_some_iff] at chosen
  rcases chosen with named | ⟨_, first⟩
  · exact List.mem_of_find?_eq_some named
  · exact List.mem_of_head? first

/-- The place with other parents. -/
def withParents (place : Place K) (parents : List PlaceId) : Place K :=
  { place with parents := parents }

theorem withParents_of_eq {parents : List PlaceId} (same : place.parents = parents) :
    place.withParents parents = place := by
  subst same
  rfl

end Place

namespace Store

variable {store : Store K} {place : Place K}

/-! ## Parents that rank above -/

/-- The parents of a place are in the store and in addresses, and rank above the place. -/
def RanksParents (store : Store K) (place : Place K) : Prop :=
  ∀ id ∈ place.parents, ∃ parent, store.get? id = some parent ∧
    0 < parent.addressRank ∧ parent.addressRank < place.addressRank

/-- The place with one number lists another number as that of a parent. -/
def Lists (store : Store K) (child parent : PlaceId) : Prop :=
  ∃ place, store.get? child = some place ∧ parent ∈ place.parents

/-- A place that ranks below its parents is none of them. -/
theorem RanksParents.not_mem (ranks : store.RanksParents place) (member : place ∈ store.toList) :
    place.id ∉ place.parents := by
  intro listed
  obtain ⟨parent, found, _, below⟩ := ranks place.id listed
  rw [store.get?_id_of_mem member] at found
  cases found
  exact UInt8.lt_irrefl _ below

theorem rank_lt_of_lists (ranks : ∀ place ∈ store.toList, store.RanksParents place)
    {child parent : PlaceId} (lists : store.Lists child parent) {lower upper : Place K}
    (isLower : store.get? child = some lower) (isUpper : store.get? parent = some upper) :
    upper.addressRank < lower.addressRank := by
  obtain ⟨place, found, listed⟩ := lists
  rw [isLower] at found
  cases found
  obtain ⟨other, isOther, _, below⟩ := ranks lower (mem_of_get? isLower) parent listed
  rw [isUpper] at isOther
  cases isOther
  exact below

/-- Going up from parent to parent, ranks fall. -/
theorem rank_lt_of_transGen (ranks : ∀ place ∈ store.toList, store.RanksParents place)
    {low high : PlaceId} (above : Relation.TransGen store.Lists low high) {lower upper : Place K}
    (isLower : store.get? low = some lower) (isUpper : store.get? high = some upper) :
    upper.addressRank < lower.addressRank := by
  induction above generalizing upper with
  | single lists => exact rank_lt_of_lists ranks lists isLower isUpper
  | tail _ lists ih =>
      obtain ⟨middle, isMiddle, _⟩ := id lists
      exact UInt8.lt_trans (rank_lt_of_lists ranks lists isMiddle isUpper) (ih isMiddle)

/-- No place lies above itself. -/
theorem not_transGen_self (ranks : ∀ place ∈ store.toList, store.RanksParents place)
    (id : PlaceId) : ¬ Relation.TransGen store.Lists id id := by
  intro circle
  obtain ⟨_, ⟨place, found, _⟩, _⟩ := Relation.TransGen.head'_iff.mp circle
  exact UInt8.lt_irrefl _ (rank_lt_of_transGen ranks circle found found)

/-! ## A street and areas -/

/-- How the parents of a place are arranged: first the street of a building, if it has one, and
then all areas around its centroid that rank above it, the most detailed first and of one rank
that with the smallest number. -/
structure Arranges (store : Store K) [Scalar K] (place : Place K) (street : Option (Place K))
    (areas : List (Place K)) : Prop where
  parents_eq : place.parents = (street.toList ++ areas).map Place.id
  isStreet : ∀ way ∈ street, way ∈ store.toList ∧ way.isStreet = true ∧ place.isBuilding = true
  mem_areas_iff : ∀ area, area ∈ areas ↔
    area ∈ store.containing place.centroid ∧ area.ranksAbove place = true
  sorted : areas.Pairwise fun first second => first.precedes second = true

variable [Scalar K] {street : Option (Place K)} {areas : List (Place K)}

/-- A street ranks between areas and buildings. -/
theorem Arranges.rank_of_street (arranges : store.Arranges place street areas) {way : Place K}
    (isWay : way ∈ street) :
    Rank.area < way.addressRank ∧ way.addressRank < place.addressRank := by
  obtain ⟨_, street, building⟩ := arranges.isStreet way isWay
  obtain ⟨low, high⟩ := Place.rank_of_isStreet street
  rw [Place.isBuilding_iff.mp building]
  exact ⟨UInt8.lt_of_lt_of_le (by decide) low, UInt8.lt_of_le_of_lt high (by decide)⟩

theorem Arranges.mem_of_mem (arranges : store.Arranges place street areas) {parent : Place K}
    (listed : parent ∈ street.toList ++ areas) : parent ∈ store.toList := by
  rcases List.mem_append.mp listed with isWay | isArea
  · exact (arranges.isStreet parent (Option.mem_toList.mp isWay)).1
  · exact (List.mem_filter.mp ((arranges.mem_areas_iff parent).mp isArea).1).1

theorem Arranges.ranksParents (arranges : store.Arranges place street areas) :
    store.RanksParents place := by
  intro id listed
  rw [arranges.parents_eq, List.mem_map] at listed
  obtain ⟨parent, isParent, rfl⟩ := listed
  refine ⟨parent, store.get?_id_of_mem (arranges.mem_of_mem isParent), ?_⟩
  rcases List.mem_append.mp isParent with isWay | isArea
  · obtain ⟨low, high⟩ := arranges.rank_of_street (Option.mem_toList.mp isWay)
    exact ⟨UInt8.lt_trans (by decide) low, high⟩
  · obtain ⟨_, positive, _, below⟩ :=
      Place.ranksAbove_iff.mp ((arranges.mem_areas_iff parent).mp isArea).2
    exact ⟨positive, below⟩

/-- No parent is listed twice. -/
theorem Arranges.nodup (arranges : store.Arranges place street areas) : place.parents.Nodup := by
  rw [arranges.parents_eq]
  apply List.Nodup.map_on
  · intro first isFirst second isSecond same
    exact eq_of_id_eq (arranges.mem_of_mem isFirst) (arranges.mem_of_mem isSecond) same
  · have distinct : areas.Nodup := by
      refine arranges.sorted.imp ?_
      rintro first _ before rfl
      rw [Place.precedes_self] at before
      contradiction
    refine List.nodup_append.mpr ⟨?_, distinct, ?_⟩
    · cases street <;> simp
    · rintro way isWay _ isArea rfl
      have low := (arranges.rank_of_street (Option.mem_toList.mp isWay)).1
      have high := (Place.ranksAbove_iff.mp ((arranges.mem_areas_iff way).mp isArea).2).2.2.1
      exact UInt8.lt_irrefl _ (UInt8.lt_of_lt_of_le low high)

/-! ## What is found -/

theorem mem_areasAround_iff {area : Place K} :
    area ∈ store.areasAround place ↔
      area ∈ store.containing place.centroid ∧ area.ranksAbove place = true := by
  rw [areasAround, List.mem_mergeSort, List.mem_filter]

/-- Of two areas around a place the earlier one precedes. -/
theorem pairwise_areasAround (store : Store K) (place : Place K) :
    (store.areasAround place).Pairwise fun first second => first.precedes second = true := by
  have apart : (store.areasAround place).Pairwise fun first second => first.id ≠ second.id := by
    have ids := List.nodup_iff_pairwise_ne.mp store.nodup_ids
    rw [List.pairwise_map] at ids
    exact ((ids.filter _).filter _).perm (List.mergeSort_perm ..).symm fun differ => differ.symm
  refine ((Place.pairwise_mergeSort_precedes _).and apart).imp ?_
  rintro first second ⟨notBefore, differ⟩
  exact Place.precedes_of_not_precedes notBefore differ

/-- The street of a building is a street of the store. -/
theorem mem_of_streetOf? {radius : K} {way : Place K}
    (found : store.index.streetOf? radius place = some way) :
    way ∈ store.toList ∧ way.isStreet = true := by
  unfold SpatialIndex.streetOf? at found
  split at found
  · contradiction
  · rename_i near isNear
    obtain ⟨isPlace, street⟩ := List.mem_filter.mp (Place.mem_of_chooseStreet? found)
    obtain ⟨candidate, isCandidate, rfl⟩ := List.mem_map.mp isPlace
    exact ⟨SpatialIndex.mem_of_mem_nearest isNear isCandidate, street⟩

theorem exists_of_mem_parentsOf {radius : K} {id : PlaceId}
    (listed : id ∈ store.parentsOf store.index radius place) :
    ∃ parent ∈ store.toList, parent.id = id := by
  obtain ⟨parent, isParent, rfl⟩ := List.mem_map.mp listed
  refine ⟨parent, ?_, rfl⟩
  rcases List.mem_append.mp isParent with isWay | isArea
  · have found := Option.ite_none_right_eq_some.mp (Option.mem_toList.mp isWay)
    exact (mem_of_streetOf? found.2).1
  · exact (List.mem_filter.mp (mem_areasAround_iff.mp isArea).1).1

/-! ## The places with their parents -/

/-- A place with the parents that a store gives it. -/
def give (store : Store K) (radius : K) (place : Place K) : Place K :=
  place.withParents (store.parentsOf store.index radius place)

variable {radius : K} {given : Store K}

theorem containing_of_give (whole : given.toList = store.toList.map (store.give radius))
    (p : Coord K) : given.containing p = (store.containing p).map (store.give radius) := by
  rw [containing, whole, List.filter_map]
  rfl

theorem areasAround_of_give (whole : given.toList = store.toList.map (store.give radius))
    (place : Place K) :
    given.areasAround (store.give radius place) =
      (store.areasAround place).map (store.give radius) := by
  let above := (store.containing place.centroid).filter fun area => area.ranksAbove place
  have sorted : (above.mergeSort fun first second => !second.precedes first).map
        (store.give radius) =
      (above.map (store.give radius)).mergeSort fun first second => !second.precedes first :=
    List.map_mergeSort fun _ _ _ _ => rfl
  have filtered : (given.containing place.centroid).filter (fun area => area.ranksAbove place) =
      above.map (store.give radius) := by
    rw [containing_of_give whole, List.filter_map]
    rfl
  rw [areasAround, areasAround, sorted, ← filtered]
  rfl

/-- What a place is given is arranged. -/
theorem arranges_give (whole : given.toList = store.toList.map (store.give radius))
    (place : Place K) :
    ∃ street areas, given.Arranges (store.give radius place) street areas := by
  let street := if place.isBuilding then store.index.streetOf? radius place else none
  refine ⟨street.map (store.give radius), given.areasAround (store.give radius place), ?_⟩
  constructor
  · have ids (places : List (Place K)) :
        (places.map (store.give radius)).map Place.id = places.map Place.id := by
      rw [List.map_map]
      rfl
    rw [areasAround_of_give whole, Option.toList_map, ← List.map_append, ids]
    rfl
  · intro way isWay
    obtain ⟨found, isFound, rfl⟩ := Option.map_eq_some_iff.mp isWay
    obtain ⟨building, isStreet⟩ := Option.ite_none_right_eq_some.mp isFound
    obtain ⟨member, street⟩ := mem_of_streetOf? isStreet
    rw [whole]
    exact ⟨List.mem_map_of_mem member, street, building⟩
  · exact fun area => mem_areasAround_iff
  · exact pairwise_areasAround given _

/-- The places of a store can be stored again with the parents that it gives them. -/
theorem exists_ofPlaces_give (store : Store K) (radius : K) :
    ∃ given, ofPlaces (store.toList.map (store.give radius)) = .ok given := by
  have numbered := store.isNumbered
  rw [exists_ofPlaces_iff, List.length_map]
  constructor
  · rw [IsNumbered, List.map_map, List.length_map]
    exact numbered
  · intro place member id listed
    obtain ⟨origin, _, rfl⟩ := List.mem_map.mp member
    obtain ⟨parent, isParent, rfl⟩ := exists_of_mem_parentsOf listed
    obtain ⟨position, found⟩ := List.mem_iff_getElem?.mp isParent
    rw [isNumbered_iff.mp numbered position parent found]
    exact (List.getElem?_eq_some_iff.mp found).1

theorem assignParents_of_ofPlaces {places : List (Place K)}
    (stored : ofPlaces places = .ok store) (radius : K) :
    assignParents radius places = .ok (store.toList.map (store.give radius)) := by
  simp only [assignParents, stored, bind, Except.bind, pure, Except.pure]
  rfl

end Store

/-- Places that are numbered by position and have no parents yet are given parents and nothing
else, whatever lies around them and however far streets are looked for.  They can be stored
again; the parents of a place are in that store and rank above it, it is none of them, and each
of them is listed once, the street first and then areas by rank and number.  So no place lies
above itself, and no chain is cut short if it may have a level for every rank. -/
theorem assignParents_wellFormed [Scalar K] (radius : K) (places : List (Place K))
    (numbered : IsNumbered places) (bare : ∀ place ∈ places, place.parents = [])
    (ranked : ∀ place ∈ places, place.addressRank ≤ Rank.building) :
    ∃ given store, assignParents radius places = .ok given ∧
      given.map (fun place => place.withParents []) = places ∧
      Store.ofPlaces given = .ok store ∧
      (∀ place ∈ given, store.RanksParents place ∧ place.id ∉ place.parents ∧
        place.parents.Nodup ∧ ∃ street areas, store.Arranges place street areas) ∧
      (∀ id, ¬ Relation.TransGen store.Lists id id) ∧
      ∀ start ∈ given, ∀ limit, 30 ≤ limit →
        (Chain.build store start limit).truncated = false := by
  have withinPlaces : ∀ place ∈ places, ∀ parent ∈ place.parents,
      parent.toNat < places.length := by
    intro place member parent listed
    rw [bare place member] at listed
    contradiction
  obtain ⟨source, stored⟩ := Store.exists_ofPlaces_iff.mpr ⟨numbered, withinPlaces⟩
  obtain ⟨store, accepted⟩ := source.exists_ofPlaces_give radius
  have whole := Store.toList_of_ofPlaces accepted
  obtain rfl := Store.toList_of_ofPlaces stored
  have arranged : ∀ place ∈ source.toList.map (source.give radius),
      ∃ street areas, store.Arranges place street areas := by
    intro place member
    obtain ⟨origin, _, rfl⟩ := List.mem_map.mp member
    exact Store.arranges_give whole origin
  have ranks : ∀ place ∈ source.toList.map (source.give radius), store.RanksParents place := by
    intro place member
    obtain ⟨street, areas, arranges⟩ := arranged place member
    exact arranges.ranksParents
  refine ⟨_, store, Store.assignParents_of_ofPlaces stored radius, ?_, accepted, ?_, ?_, ?_⟩
  · rw [List.map_map]
    have unchanged : ∀ place ∈ source.toList,
        (source.give radius place).withParents [] = id place :=
      fun place member => Place.withParents_of_eq (bare place member)
    exact (List.map_congr_left unchanged).trans (List.map_id _)
  · intro place member
    obtain ⟨street, areas, arranges⟩ := arranged place member
    exact ⟨ranks place member, (ranks place member).not_mem (whole ▸ member), arranges.nodup,
      street, areas, arranges⟩
  · apply Store.not_transGen_self
    rw [whole]
    exact ranks
  · intro start member limit long
    apply Chain.build_not_truncated (store.get?_id_of_mem (whole ▸ member))
    obtain ⟨origin, isOrigin, rfl⟩ := List.mem_map.mp member
    exact Nat.le_trans (UInt8.le_iff_toNat_le.mp (ranked origin isOrigin)) long

/-! ## Two areas around each other's centroids -/

/-- A place with a shape and what follows from it. -/
def plot (id : PlaceId) (category : String) (rank : Rank) (geometry : Geometry (Coord ℚ)) :
    Place ℚ where
  id := id
  element := .way
  elementId := 0
  category := category
  placeType := ""
  geometry := geometry
  bounds := geometry.bounds?.getD ⟨0, 0, 0, 0⟩
  centroid := geometry.centroid?.getD ⟨0, 0⟩
  addressRank := rank

/-- The square between two values of both coordinates. -/
def square (low high : ℚ) : Geometry (Coord ℚ) :=
  .area [⟨[⟨low, low⟩, ⟨high, low⟩, ⟨high, high⟩, ⟨low, high⟩, ⟨low, low⟩], []⟩]

/-- A town and a county, each of which has the centroid of the other inside, and a house and a
street in that part of the town that is not in the county. -/
def hamlet : List (Place ℚ) :=
  [plot 0 "place" 16 (square 0 4), plot 1 "boundary" 12 (square 1 5),
    plot 2 "building" 30 (.point ⟨1 / 2, 1 / 2⟩), plot 3 "highway" 26 (.line [⟨0, 1 / 2⟩, ⟨1, 2⟩])]

/-- The town belongs to the county, the county to nothing, the house to the street and the town. -/
theorem assignParents_wellFormed_hamlet :
    IsNumbered hamlet ∧ (∀ place ∈ hamlet, place.parents = []) ∧
      (∀ place ∈ hamlet, place.addressRank ≤ Rank.building) ∧
      ∃ given store, assignParents 1 hamlet = .ok given ∧
        given.map Place.parents = [[1], [], [3, 0], [0]] ∧ Store.ofPlaces given = .ok store ∧
        (∀ place ∈ given, store.RanksParents place) ∧
        ∀ start ∈ given, (Chain.build store start 30).truncated = false := by
  have numbered : IsNumbered hamlet := by decide +kernel
  have bare : ∀ place ∈ hamlet, place.parents = [] := by decide +kernel
  have ranked : ∀ place ∈ hamlet, place.addressRank ≤ Rank.building := by decide +kernel
  obtain ⟨given, store, assigned, _, accepted, parents, _, complete⟩ :=
    assignParents_wellFormed 1 hamlet numbered bare ranked
  have evaluated : (assignParents 1 hamlet).toOption.map (·.map Place.parents) =
      some [[1], [], [3, 0], [0]] := by decide +kernel
  rw [assigned] at evaluated
  exact ⟨numbered, bare, ranked, given, store, assigned, Option.some.inj evaluated, accepted,
    fun place member => (parents place member).1,
    fun start member => complete start member 30 (Nat.le_refl 30)⟩

end Gazetteer
