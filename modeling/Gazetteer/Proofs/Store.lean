import Gazetteer.Store

/-!
# Places and their numbers

Places can be stored just if they are numbered by position and list only each other.  A store
finds exactly its own places, each under its own number.
-/

namespace Gazetteer

/-- A place at the origin, known by its number, rank and parents only. -/
def Place.pin (id : PlaceId) (rank : Rank) (parents : List PlaceId) : Place Float where
  id := id
  element := .node
  elementId := 0
  category := "place"
  placeType := "house"
  geometry := .point ⟨0, 0⟩
  bounds := ⟨0, 0, 0, 0⟩
  centroid := ⟨0, 0⟩
  addressRank := rank
  parents := parents

variable {K : Type}

/-! ## What can be stored -/

theorem placeFault?_eq_none_iff {size position : Nat} {place : Place K} :
    placeFault? size position place = none ↔
      place.id.toNat = position ∧ ∀ parent ∈ place.parents, parent.toNat < size := by
  unfold placeFault?
  split
  · rename_i misnumbered
    simp [misnumbered]
  · rename_i numbered
    simp [Decidable.not_not.mp numbered]

theorem firstFault?_eq_none_iff {size first : Nat} {places : List (Place K)} :
    firstFault? size first places = none ↔
      ∀ position place, places[position]? = some place →
        placeFault? size (first + position) place = none := by
  constructor
  · intro sound position place found
    exact Store.placeFault?_of_firstFault? sound found
  · intro sound
    induction places generalizing first with
    | nil => rfl
    | cons head rest ih =>
        rw [firstFault?, show placeFault? size first head = none from sound 0 head rfl]
        apply ih
        intro position place found
        rw [Nat.add_assoc, Nat.add_comm 1]
        exact sound (position + 1) place found

/-- Places that are numbered by position. -/
def IsNumbered (places : List (Place K)) : Prop :=
  places.map (fun place => place.id.toNat) = List.range places.length

instance (places : List (Place K)) : Decidable (IsNumbered places) :=
  inferInstanceAs (Decidable (_ = _))

theorem isNumbered_iff {places : List (Place K)} :
    IsNumbered places ↔
      ∀ (position : Nat) (place : Place K), places[position]? = some place →
        place.id.toNat = position := by
  constructor
  · intro numbered position place found
    have same : (places.map fun place => place.id.toNat)[position]? =
        (List.range places.length)[position]? := by rw [numbered]
    have bound : position < places.length := (List.getElem?_eq_some_iff.mp found).1
    rw [List.getElem?_map, found, List.getElem?_range bound] at same
    exact Option.some.inj same
  · intro numbered
    apply List.ext_getElem
    · simp
    · intro position bound _
      rw [List.length_map] at bound
      rw [List.getElem_map, List.getElem_range]
      exact numbered position _ (List.getElem?_eq_getElem bound)

namespace Store

/-- Places can be stored exactly if they are numbered by position and list only each other as
parents. -/
theorem exists_ofPlaces_iff {places : List (Place K)} :
    (∃ store, ofPlaces places = .ok store) ↔
      IsNumbered places ∧
        ∀ place ∈ places, ∀ parent ∈ place.parents, parent.toNat < places.length := by
  have sound_iff : firstFault? places.length 0 places = none ↔
      IsNumbered places ∧
        ∀ place ∈ places, ∀ parent ∈ place.parents, parent.toNat < places.length := by
    rw [firstFault?_eq_none_iff, isNumbered_iff]
    simp only [placeFault?_eq_none_iff, Nat.zero_add]
    constructor
    · intro sound
      constructor
      · intro position place found
        exact (sound position place found).1
      · intro place member
        obtain ⟨position, found⟩ := List.mem_iff_getElem?.mp member
        exact (sound position place found).2
    · rintro ⟨numbered, within⟩ position place found
      exact ⟨numbered position place found, within place (List.mem_of_getElem? found)⟩
  rw [← sound_iff]
  unfold ofPlaces
  split
  · rename_i fault found
    simp [found]
  · rename_i found
    simp [found]

/-! ## What is found -/

theorem get?_eq_getElem? (store : Store K) (id : PlaceId) :
    store.get? id = store.toList[id.toNat]? := by
  simp [get?, toList]

theorem isNumbered (store : Store K) : IsNumbered store.toList := by
  have sound := firstFault?_eq_none_iff.mp store.sound
  rw [isNumbered_iff]
  intro position place found
  simpa using (placeFault?_eq_none_iff.mp (sound position place found)).1

/-- Every place of a store is found under its own number. -/
theorem get?_id_of_mem {store : Store K} {place : Place K} (member : place ∈ store.toList) :
    store.get? place.id = some place := by
  obtain ⟨position, found⟩ := List.mem_iff_getElem?.mp member
  rw [get?_eq_getElem?, isNumbered_iff.mp store.isNumbered position place found]
  exact found

theorem mem_of_get? {store : Store K} {id : PlaceId} {place : Place K}
    (found : store.get? id = some place) : place ∈ store.toList :=
  List.mem_of_getElem? (store.get?_eq_getElem? id ▸ found)

/-- A place of a store is known by its number. -/
theorem eq_of_id_eq {store : Store K} {first second : Place K} (isFirst : first ∈ store.toList)
    (isSecond : second ∈ store.toList) (same : first.id = second.id) : first = second := by
  have found := store.get?_id_of_mem isFirst
  rw [same, store.get?_id_of_mem isSecond] at found
  exact (Option.some.inj found).symm

/-- No two places of a store have one number. -/
theorem nodup_ids (store : Store K) : (store.toList.map Place.id).Nodup := by
  have numbers : (store.toList.map fun place => place.id.toNat).Nodup := by
    rw [store.isNumbered]
    exact List.nodup_range
  rw [List.nodup_iff_pairwise_ne, List.pairwise_map] at numbers ⊢
  exact numbers.imp fun differ same => differ (congrArg UInt32.toNat same)

end Store

end Gazetteer
