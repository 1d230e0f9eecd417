import Gazetteer.Proofs.Snapshot.Shapes

/-!
# Places that are written and read

A place reads back from its data in every field.  The fields that it lacks are left out and read
as missing again, and empty tags and lists are written as empty ones.  All but its real numbers
can be read from a text whatever they are: its own number and its ranks, those of its element and
of its parents are whole numbers of at most 64 bits.
-/

namespace Gazetteer

open Data

/-! ## Whole numbers -/

theorem natural?_natCast {bound n : Nat} (small : n < bound) :
    Value.natural? bound (.integer (n : Int)) = some n :=
  if_pos small

theorem rankOfValue?_integer (rank : Rank) :
    rankOfValue? (.integer rank.toNat) = some rank := by
  rw [rankOfValue?, natural?_natCast rank.toNat_lt_size, Option.map_some, UInt8.ofNat_toNat]

theorem idOfValue?_idToValue (id : PlaceId) : idOfValue? (idToValue id) = some id := by
  rw [idOfValue?, idToValue, natural?_natCast id.toNat_lt_size, Option.map_some,
    UInt32.ofNat_toNat]

theorem elementIdOfValue?_integer (elementId : Int64) :
    elementIdOfValue? (.integer elementId.toInt) = some elementId := by
  have bounds : Int64.minValue.toInt ≤ elementId.toInt ∧
      elementId.toInt ≤ Int64.maxValue.toInt :=
    ⟨elementId.le_toInt, elementId.toInt_le⟩
  rw [elementIdOfValue?, Value.integer?, if_pos bounds, Option.map_some, Int64.ofInt_toInt]

/-- A natural number of 64 bits can be read. -/
theorem readable_natCast {n : Nat} (small : n < UInt64.size) :
    Json.Readable (.integer (n : Int)) :=
  .integer (Int.le_trans (by decide) (Int.natCast_nonneg n)) (Int.ofNat_lt.mpr small)

theorem readable_idToValue (id : PlaceId) : Json.Readable (idToValue id) :=
  readable_natCast (Nat.lt_trans id.toNat_lt (by decide))

namespace ElementKind

theorem ofValue?_toValue (kind : ElementKind) : ofValue? kind.toValue = some kind := by
  simp [ofValue?, toValue, Value.choice?]

end ElementKind

/-! ## Places -/

namespace Place

/-- The real numbers of a place. -/
def numbers (place : Place Float) : List Float :=
  place.geometry.vertices.flatMap Coord.numbers ++ place.bounds.numbers ++
    place.centroid.numbers ++ place.importance.toList

/-- The fields that a place is written from, in order. -/
def fields (place : Place Float) : List (Option Value) :=
  [some (idToValue place.id), some place.element.toValue, some (.integer place.elementId.toInt),
    some (.text place.category), some (.text place.placeType), some place.geometry.toValue,
    some place.bounds.toValue, some place.centroid.toGeographic,
    some (.integer place.addressRank.toNat), some (.integer place.searchRank.toNat),
    place.importance.map .real, place.wikidata.map .text, some place.names.toValue,
    some place.address.toValue, some place.extraTags.toValue,
    some (.array (place.parents.map idToValue)), place.countryCode.map .text]

theorem toValue_eq_membersOf (place : Place Float) :
    place.toValue = .object (membersOf fieldNames place.fields) := by
  unfold toValue fields fieldNames
  cases place.importance <;> cases place.wikidata <;> cases place.countryCode <;> rfl

/-- A place reads back from its data in every field. -/
theorem ofValue?_toValue (place : Place Float) : ofValue? place.toValue = some place := by
  have fields : place.toValue.record? fieldNames = some place.fields :=
    record?_eq_some place.toValue_eq_membersOf (by decide) rfl
  have parents : Value.listOf? idOfValue? (.array (place.parents.map idToValue)) =
      some place.parents :=
    listOf?_array fun id _ => idOfValue?_idToValue id
  have optionalReal (number : Float) :
      Value.optional? Value.real? (.real number) = some (some number) := rfl
  have text (content : String) : Value.text? (.text content) = some content := rfl
  have optionalText (content : String) :
      Value.optional? Value.text? (.text content) = some (some content) := rfl
  rw [ofValue?, fields, Place.fields, Option.bind_eq_bind, Option.bind_some]
  dsimp only
  rw [required_bind (idOfValue?_idToValue place.id), required_bind place.element.ofValue?_toValue,
    required_bind (elementIdOfValue?_integer place.elementId),
    required_bind (text place.category), required_bind (text place.placeType),
    required_bind place.geometry.ofValue?_toValue,
    required_bind place.bounds.ofValue?_toValue,
    required_bind place.centroid.ofGeographic?_toGeographic,
    required_bind (rankOfValue?_integer place.addressRank),
    required_bind (rankOfValue?_integer place.searchRank), optional_map_bind optionalReal,
    optional_map_bind optionalText, optional_bind place.names.ofValue?_toValue,
    optional_bind place.address.ofValue?_toValue, optional_bind place.extraTags.ofValue?_toValue,
    optional_bind parents, optional_map_bind optionalText]

variable {place : Place Float}

/-- A place can be read from a text if its real numbers can. -/
theorem readable_toValue (readable : ∀ number ∈ place.numbers, Json.Readable (.real number)) :
    Json.Readable place.toValue := by
  rw [toValue_eq_membersOf]
  apply readable_membersOf
  simp only [numbers, List.forall_mem_append, Option.mem_toList] at readable
  obtain ⟨⟨⟨vertices, bounds⟩, centroid⟩, importance⟩ := readable
  have geometry : Json.Readable place.geometry.toValue := by
    apply Geometry.readable_toValue
    intro p isVertex number isNumber
    exact vertices number (List.mem_flatMap.mpr ⟨p, isVertex, isNumber⟩)
  have elementId : Json.Readable (.integer place.elementId.toInt) := by
    have high : place.elementId.toInt ≤ Int64.maxValue.toInt := place.elementId.toInt_le
    exact .integer place.elementId.le_toInt (Int.lt_of_le_of_lt high (by decide))
  have rank (rank : Rank) : Json.Readable (.integer (rank.toNat : Int)) :=
    readable_natCast (Nat.lt_trans rank.toNat_lt (by decide))
  have parents : Json.Readable (.array (place.parents.map idToValue)) := by
    refine .array ?_
    intro item isItem
    obtain ⟨id, -, rfl⟩ := List.mem_map.mp isItem
    exact readable_idToValue id
  have text {content : Option String} {value : Value}
      (isText : content.map Value.text = some value) : Json.Readable value := by
    obtain ⟨content, -, rfl⟩ := Option.map_eq_some_iff.mp isText
    exact .text content
  have real {value : Value} (isReal : place.importance.map Value.real = some value) :
      Json.Readable value := by
    obtain ⟨number, isNumber, rfl⟩ := Option.map_eq_some_iff.mp isReal
    exact importance number isNumber
  simp only [fields, List.forall_mem_cons, Option.some.injEq, forall_eq']
  exact ⟨readable_idToValue place.id, .text _, elementId, .text _, .text _, geometry,
    Bounds.readable_toValue bounds, Coord.readable_toGeographic centroid, rank _, rank _,
    fun _ => real, fun _ => text, place.names.readable_toValue, place.address.readable_toValue,
    place.extraTags.readable_toValue, parents, fun _ => text, List.forall_mem_nil _⟩

end Place

end Gazetteer
