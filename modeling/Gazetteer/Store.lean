import Gazetteer.Failure

/-!
# The store of places

All places of a snapshot, each under its number.  A store can only be built from places
that are numbered by position and whose parents are among them, so following a parent
always leads to a place.
-/

namespace Gazetteer

variable {K : Type}

/-- What is wrong with one place at a position among `size` places. -/
def placeFault? (size position : Nat) (place : Place K) : Option SnapshotFault :=
  if place.id.toNat ≠ position then some (.misnumbered position place.id)
  else
    (place.parents.find? fun parent => size ≤ parent.toNat).map fun parent =>
      .missingParent place.id parent

/-- The first fault among places that stand from `position` on. -/
def firstFault? (size : Nat) : (position : Nat) → List (Place K) → Option SnapshotFault
  | _, [] => none
  | position, place :: rest =>
    match placeFault? size position place with
    | some fault => some fault
    | none => firstFault? size (position + 1) rest

/-- Places under their numbers. -/
structure Store (K : Type) where
  places : Array (Place K)
  sound : firstFault? places.size 0 places.toList = none

namespace Store

/-- A store of the given places, or the first fault among them. -/
def ofPlaces (places : List (Place K)) : Except SnapshotFault (Store K) :=
  match found : firstFault? places.length 0 places with
  | some fault => .error fault
  | none => .ok ⟨places.toArray, by simpa using found⟩

/-- The place with a number. -/
def get? (store : Store K) (id : PlaceId) : Option (Place K) :=
  store.places[id.toNat]?

/-- The places in order. -/
def toList (store : Store K) : List (Place K) :=
  store.places.toList

/-- The number of places. -/
def size (store : Store K) : Nat :=
  store.places.size

/-- Whether there are no places. -/
def isEmpty (store : Store K) : Bool :=
  store.places.isEmpty

/-- A store holds the places it was built from. -/
theorem toList_of_ofPlaces {places : List (Place K)} {store : Store K}
    (built : ofPlaces places = .ok store) : store.toList = places := by
  unfold ofPlaces at built
  split at built
  · simp at built
  · simp only [Except.ok.injEq] at built
    simp [← built, toList]

theorem placeFault?_of_firstFault? {size : Nat} {places : List (Place K)} {first : Nat}
    (sound : firstFault? size first places = none) {position : Nat} {place : Place K}
    (found : places[position]? = some place) :
    placeFault? size (first + position) place = none := by
  induction places generalizing first position with
  | nil => simp at found
  | cons head rest ih =>
    rw [firstFault?] at sound
    split at sound
    · simp at sound
    · rename_i headSound
      cases position with
      | zero =>
        simp only [List.getElem?_cons_zero, Option.some.injEq] at found
        simpa [← found] using headSound
      | succ position =>
        have step := ih sound (by simpa using found)
        rwa [Nat.add_right_comm, Nat.add_assoc] at step

/-- A place is found under its own number. -/
theorem id_of_get? {store : Store K} {id : PlaceId} {place : Place K}
    (found : store.get? id = some place) : place.id = id := by
  have present : store.places.toList[id.toNat]? = some place := by simpa [get?] using found
  have sound := placeFault?_of_firstFault? store.sound present
  simp only [placeFault?, Nat.zero_add] at sound
  split at sound
  · simp at sound
  · rename_i numbered
    exact UInt32.toNat_inj.1 (by simpa using numbered)

end Store

end Gazetteer
