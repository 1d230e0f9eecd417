import Gazetteer.Proofs.Snapshot.Places
import Gazetteer.Proofs.Store
import Gazetteer.Proofs.Timestamp
import Gazetteer.Snapshot

/-!
# Snapshots that are written and loaded

What is written as a snapshot is loaded as it was: the same places in every field and in order,
behind a header that announces their number.  The data of a snapshot always reads back, and so
does its text as long as it stands for the data.  Numbers of places are never too great for their
fields, because a place that can be stored is numbered by its position.

A file is loaded just if the snapshot in it is sound, which is to say that its header is right and
its places can be stored.
-/

namespace Gazetteer

open Data

theorem Store.eq_of_toList_eq {K : Type} {first second : Store K}
    (same : first.toList = second.toList) : first = second := by
  have samePlaces : first.places = second.places := Array.toList_inj.mp same
  cases first
  cases second
  simpa using samePlaces

/-- Places that can be stored are not too many for a number of 64 bits, since each has a number of
32 bits of its own. -/
theorem IsNumbered.length_lt {K : Type} {places : List (Place K)} (numbered : IsNumbered places) :
    places.length < UInt64.size := by
  cases isLength : places.length with
  | zero => decide
  | succ last =>
      have inside : last < places.length := by omega
      have own := isNumbered_iff.mp numbered last places[last] (List.getElem?_eq_getElem inside)
      have bound : places[last].id.toNat < UInt32.size := places[last].id.toNat_lt_size
      rw [own] at bound
      exact Nat.lt_of_le_of_lt bound (by decide)

namespace SnapshotHeader

variable {header : SnapshotHeader}

/-- A header reads back if its numbers and its moment do. -/
theorem ofValue?_toValue (known : header.createdAt.IsKnown)
    (version : header.formatVersion < UInt32.size) (count : header.placeCount < UInt64.size) :
    ofValue? header.toValue = some header := by
  have fields : header.toValue.record?
      ["format_version", "created_at", "object_count", "source_file"] =
      some [some (.integer header.formatVersion), some (.text header.createdAt.write),
        some (.integer header.placeCount), some (.text header.sourceFile)] :=
    record?_eq_some rfl (by decide) rfl
  simp [ofValue?, fields, required, natural?_natCast version, natural?_natCast count, Value.text?,
    Timestamp.read?_write known]

theorem readable_toValue (version : header.formatVersion < UInt32.size)
    (count : header.placeCount < UInt64.size) : Json.Readable header.toValue := by
  refine .object ?_
  simp only [List.forall_mem_cons]
  exact ⟨readable_natCast (Nat.lt_trans version (by decide)), .text _, readable_natCast count,
    .text _, List.forall_mem_nil _⟩

end SnapshotHeader

namespace Snapshot

variable {snapshot : Snapshot} {places : List (Place Float)} {createdAt : Timestamp}
  {sourceFile : String} {store : Store Float}

/-- A snapshot reads back from its data if its header does. -/
theorem ofValue?_toValue
    (header : SnapshotHeader.ofValue? snapshot.header.toValue = some snapshot.header) :
    ofValue? snapshot.toValue = some snapshot := by
  have fields : snapshot.toValue.record? ["header", "objects"] =
      some [some snapshot.header.toValue, some (.array (snapshot.places.map Place.toValue))] :=
    record?_eq_some rfl (by decide) rfl
  have places : Value.listOf? Place.ofValue? (.array (snapshot.places.map Place.toValue)) =
      some snapshot.places :=
    listOf?_array fun place _ => place.ofValue?_toValue
  simp [ofValue?, fields, required, header, places]

/-- Snapshots that are loaded: the header tells the version and the number of places, each place
is numbered by its position, and all parents are among the places. -/
structure IsSound (snapshot : Snapshot) : Prop where
  version : snapshot.header.formatVersion = 1
  count : snapshot.header.placeCount = snapshot.places.length
  numbered : ∀ (position : Nat) (place : Place Float), snapshot.places[position]? = some place →
    place.id.toNat = position
  parents : ∀ place ∈ snapshot.places, ∀ parent ∈ place.parents,
    parent.toNat < snapshot.places.length

/-- A snapshot is sound if its header is right and its places can be stored. -/
theorem isSound_iff :
    snapshot.IsSound ↔
      snapshot.header.formatVersion = snapshotVersion ∧
        snapshot.header.placeCount = snapshot.places.length ∧
        ∃ store, Store.ofPlaces snapshot.places = .ok store := by
  rw [Store.exists_ofPlaces_iff, isNumbered_iff]
  constructor
  · rintro ⟨version, count, numbered, parents⟩
    exact ⟨version, count, numbered, parents⟩
  · rintro ⟨version, count, numbered, parents⟩
    exact ⟨version, count, numbered, parents⟩

/-- Just the sound snapshots pass the check, as the store of their places with their header. -/
theorem check_eq_ok_iff {header : SnapshotHeader} :
    snapshot.check = .ok (store, header) ↔
      snapshot.IsSound ∧ header = snapshot.header ∧ store.toList = snapshot.places := by
  rw [isSound_iff, check]
  by_cases version : snapshot.header.formatVersion = snapshotVersion
  · by_cases count : snapshot.header.placeCount = snapshot.places.length
    · rw [if_neg (not_not_intro version), if_neg (not_not_intro count)]
      constructor
      · intro passed
        cases built : Store.ofPlaces snapshot.places with
        | error fault =>
            rw [built] at passed
            simp [Except.map] at passed
        | ok found =>
            rw [built] at passed
            obtain ⟨rfl, rfl⟩ := Prod.mk.inj (Except.ok.inj passed)
            exact ⟨⟨version, count, found, rfl⟩, rfl, Store.toList_of_ofPlaces built⟩
      · rintro ⟨⟨-, -, found, built⟩, rfl, same⟩
        have isFound : found = store :=
          Store.eq_of_toList_eq ((Store.toList_of_ofPlaces built).trans same.symm)
        rw [built, isFound]
        rfl
    · simp [version, count]
  · simp [version]

/-- The snapshot in a file, if there is one. -/
def ofFile? : SnapshotFile → Option Snapshot
  | .text text => (Json.read? text).bind ofValue?
  | _ => none

theorem mapError_eq_ok_iff {ε φ α : Type} {rename : ε → φ} {result : Except ε α} {value : α} :
    result.mapError rename = .ok value ↔ result = .ok value := by
  cases result with
  | error fault => exact iff_of_false nofun nofun
  | ok found =>
      change (Except.ok found : Except φ α) = .ok value ↔ _
      rw [Except.ok.injEq, Except.ok.injEq]

/-- A file is loaded just if there is a sound snapshot in it. -/
theorem load_eq_ok_iff {file : SnapshotFile} {header : SnapshotHeader} :
    load file = .ok (store, header) ↔
      ∃ snapshot, ofFile? file = some snapshot ∧ snapshot.IsSound ∧
        header = snapshot.header ∧ store.toList = snapshot.places := by
  cases file with
  | missing => simp [load, ofFile?]
  | garbled => simp [load, ofFile?]
  | text text =>
      rw [load, ofFile?]
      cases Json.read? text with
      | none => simp
      | some value =>
          dsimp only
          rw [mapError_eq_ok_iff, loadValue, Option.bind_some]
          cases ofValue? value with
          | none => simp
          | some snapshot => simp [check_eq_ok_iff]

/-- The text of places stands for the data of their snapshot. -/
theorem read?_write (createdAt : Timestamp) (sourceFile : String) (numbered : IsNumbered places)
    (readable : ∀ place ∈ places, ∀ number ∈ place.numbers, Json.Readable (.real number)) :
    Json.read? (ofPlaces createdAt sourceFile places).write =
      some (ofPlaces createdAt sourceFile places).toValue := by
  have version : snapshotVersion < UInt32.size := by decide
  apply Json.read?_compact
  refine .object ?_
  simp only [List.forall_mem_cons]
  refine ⟨SnapshotHeader.readable_toValue version numbered.length_lt, .array ?_,
    List.forall_mem_nil _⟩
  intro item isItem
  obtain ⟨place, isPlace, rfl⟩ := List.mem_map.mp isItem
  exact Place.readable_toValue (readable place isPlace)

/-- The data of places reads back as a snapshot of them. -/
theorem ofValue?_ofPlaces (sourceFile : String) (known : createdAt.IsKnown)
    (numbered : IsNumbered places) :
    ofValue? (ofPlaces createdAt sourceFile places).toValue =
      some (ofPlaces createdAt sourceFile places) := by
  have version : snapshotVersion < UInt32.size := by decide
  exact ofValue?_toValue (SnapshotHeader.ofValue?_toValue known version numbered.length_lt)

/-- Places that can be stored are loaded from their snapshot, the same in every field and in
order, behind a header that announces their number: from any text that stands for the data of the
snapshot, and so from the text that is written, if the numbers in it are finite and their texts
restore them.  All other data is restored whatever it is.  And a file is loaded just if the
snapshot in it is sound. -/
theorem load_write (createdAt : Timestamp) (sourceFile : String) (known : createdAt.IsKnown)
    (stored : Store.ofPlaces places = .ok store) :
    let snapshot := ofPlaces createdAt sourceFile places
    let header : SnapshotHeader := ⟨1, createdAt, places.length, sourceFile⟩
    store.toList = places ∧
      (∀ text, Json.read? text = some snapshot.toValue →
        load (.text text) = .ok (store, header)) ∧
      ((∀ place ∈ places, ∀ number ∈ place.numbers,
          number.isFinite = true ∧ Json.Restores number) →
        load (.text snapshot.write) = .ok (store, header)) ∧
      ∀ (file : SnapshotFile) (found : Store Float) (foundHeader : SnapshotHeader),
        load file = .ok (found, foundHeader) ↔
          ∃ snapshot, ofFile? file = some snapshot ∧ snapshot.IsSound ∧
            foundHeader = snapshot.header ∧ found.toList = snapshot.places := by
  intro snapshot header
  have same := Store.toList_of_ofPlaces stored
  have numbered := (Store.exists_ofPlaces_iff.mp ⟨store, stored⟩).1
  have fromText (text : String) (stands : Json.read? text = some snapshot.toValue) :
      load (.text text) = .ok (store, header) := by
    have found : ofFile? (.text text) = some snapshot := by
      rw [ofFile?, stands, Option.bind_some, ofValue?_ofPlaces sourceFile known numbered]
    exact load_eq_ok_iff.mpr
      ⟨snapshot, found, isSound_iff.mpr ⟨rfl, rfl, store, stored⟩, rfl, same⟩
  refine ⟨same, fromText, ?_, fun _ _ _ => load_eq_ok_iff⟩
  intro restored
  apply fromText
  apply read?_write createdAt sourceFile numbered
  intro place isPlace number isNumber
  obtain ⟨finite, restores⟩ := restored place isPlace number isNumber
  exact .real finite restores

/-- A country with a hole in it, a road through it and a box on the road.  Each of them lacks
something that another one has. -/
def countryRoadBox : List (Place Float) :=
  [{ id := 0
     element := .relation
     elementId := 51477
     category := "boundary"
     placeType := "administrative"
     geometry := .area [⟨[⟨5.9, 47.3⟩, ⟨15.04, 47.3⟩, ⟨10.5, 55.06⟩, ⟨5.9, 47.3⟩],
       [[⟨9.5, 49⟩, ⟨9.75, 49⟩, ⟨9.5, 49.25⟩, ⟨9.5, 49⟩]]⟩]
     bounds := ⟨5.9, 47.3, 15.04, 55.06⟩
     centroid := ⟨10.45, 50.1⟩
     addressRank := 4
     searchRank := 4
     importance := some 0.83
     wikidata := some "Q183"
     names := Tags.ofList [("default", "Deutschland"), ("fr", "Allemagne")]
     countryCode := some "de" },
   { id := 1
     element := .way
     elementId := -42
     category := "highway"
     placeType := "residential"
     geometry := .line [⟨10, 50⟩, ⟨10.001, 50⟩]
     bounds := ⟨10, 50, 10.001, 50⟩
     centroid := ⟨10.0005, 50⟩
     addressRank := 26
     searchRank := 26
     names := Tags.ofList [("default", "Straße \"Ost\"\n\\")]
     parents := [0] },
   { id := 2
     element := .node
     elementId := 9007199254740993
     category := "amenity"
     placeType := ""
     geometry := .point ⟨-0.0, 5e-324⟩
     bounds := ⟨-0.0, 5e-324, -0.0, 5e-324⟩
     centroid := ⟨-0.0, 5e-324⟩
     extraTags := Tags.ofList [("", "\x00")]
     parents := [1, 0] }]

/-- Shapes of each kind, fields that are there and fields that are not, texts that have to be
escaped and the least of all numbers are loaded as they were written. -/
theorem load_write_countryRoadBox :
    ∃ store, store.toList = countryRoadBox ∧
      load (.text (ofPlaces ⟨1700000000, 250000000⟩ "map.pbf" countryRoadBox).write) =
        .ok (store, ⟨1, ⟨1700000000, 250000000⟩, 3, "map.pbf"⟩) := by
  obtain ⟨store, stored⟩ := Store.exists_ofPlaces_iff.mpr
    ⟨show IsNumbered countryRoadBox by decide, by simp [countryRoadBox]⟩
  obtain ⟨same, -, fromWritten, -⟩ := load_write ⟨1700000000, 250000000⟩ "map.pbf"
    ⟨by decide, .inl (by decide)⟩ stored
  exact ⟨store, same, fromWritten (by decide +kernel)⟩

end Snapshot

end Gazetteer
