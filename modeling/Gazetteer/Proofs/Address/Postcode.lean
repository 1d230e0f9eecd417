import Gazetteer.Proofs.Address.Order
import Mathlib.Logic.Basic

/-!
# The postcode of a building

The postcode of a building stands in front of its country, and along the levels of an address
there is one country at most.  Without a country it is put behind all lines, unless one of them
is of the kind of a postcode already.  But a level that is too detailed or too wide for a kind
of its own goes by its type, which may be any tag.  If that is `postcode`, the name of the level
is taken for the postcode, and the postcode is missing.
-/

namespace Gazetteer.Address

variable {K : Type} {languages : List String} {first place : Place K}
  {rest places : List (Place K)} {isFirst : Bool} {line : AddressLine}

/-- The postcode lines that are made from a tag. -/
def taggedPostcodes (lines : List AddressLine) : List AddressLine :=
  lines.filter fun line => line.source.isNone && line.kind == "postcode"

/-- The postcode that an address ought to have: that of the first level, if it is a building. -/
def duePostcodes (places : List (Place K)) : List AddressLine :=
  match places with
  | [] => []
  | first :: _ => if first.isBuilding then postcodeLines first else []

theorem duePostcodes_ne_nil_iff :
    duePostcodes (first :: rest) ≠ [] ↔
      first.isBuilding = true ∧ ∃ code, first.address.get? "postcode" = some code := by
  rw [duePostcodes]
  split
  · rename_i building
    rw [postcodeLines, and_iff_right building]
    cases first.address.get? "postcode" <;> simp
  · rename_i plain
    simp [plain]

theorem taggedPostcodes_append (before after : List AddressLine) :
    taggedPostcodes (before ++ after) = taggedPostcodes before ++ taggedPostcodes after :=
  List.filter_append ..

/-! ## Kinds that are types -/

/-- Levels wider than a country or more detailed than a street have no kind of their own. -/
theorem kindOfRank?_eq_none_iff {rank : Rank} :
    kindOfRank? rank = none ↔ rank < Rank.country ∨ Rank.minorStreet < rank := by
  simp only [kindOfRank?, ite_eq_iff, reduceCtorEq, and_false, false_or, and_true,
    UInt8.lt_iff_toNat_lt, UInt8.le_iff_toNat_le, ← UInt8.toNat_inj, Rank.country,
    Rank.minorStreet, UInt8.reduceToNat]
  omega

theorem kindOfRank?_ne_postcode (rank : Rank) : kindOfRank? rank ≠ some "postcode" := by
  simp [kindOfRank?, ite_eq_iff]

/-- A level counts as a postcode if that is its type and it has no kind of its own. -/
theorem kind_eq_postcode_iff {category placeType : String} {rank : Rank} :
    kind category placeType rank = "postcode" ↔
      placeType = "postcode" ∧ (rank < Rank.country ∨ Rank.minorStreet < rank) := by
  unfold kind
  split
  · rename_i settled
    have differ : placeType ≠ "postcode" := by
      rintro rfl
      exact absurd settled.2 (by decide)
    simp [differ]
  · rw [← kindOfRank?_eq_none_iff]
    cases isKind : kindOfRank? rank with
    | none => simp
    | some other =>
        have differ : other ≠ "postcode" := by
          rintro rfl
          exact kindOfRank?_ne_postcode rank isKind
        simp [differ]

/-! ## Postcodes made from tags -/

theorem taggedPostcodes_postcodeLines (building : Place K) :
    taggedPostcodes (postcodeLines building) = postcodeLines building := by
  rw [taggedPostcodes, List.filter_eq_self]
  intro line member
  obtain ⟨code, _, rfl⟩ := Option.map_eq_some_iff.mp (Option.mem_toList.mp member)
  rfl

theorem taggedPostcodes_rankedLines (languages : List String) (first place : Place K)
    (isFirst : Bool) : taggedPostcodes (rankedLines languages first place isFirst) = [] := by
  rw [taggedPostcodes, List.filter_eq_nil_iff]
  intro line member tagged
  rw [Bool.and_eq_true, beq_iff_eq] at tagged
  simp only [rankedLines, List.mem_append, List.mem_ite_nil_right] at member
  rcases member with name | ⟨-, number⟩ | code
  · have named := (of_mem_nameLines name).1
    rw [nameLines, named.named] at name
    obtain ⟨text, _, rfl⟩ := Option.map_eq_some_iff.mp (Option.mem_toList.mp name)
    exact absurd tagged.1 (by simp [AddressLine.ofPlace])
  · rw [(of_mem_houseNumberLines number).1] at tagged
    exact absurd tagged.2 (by decide)
  · rw [(of_mem_countryCodeLines code).2.1] at tagged
    exact absurd tagged.2 (by decide)

/-- No line of a level is a postcode made from a tag, but the one in front of a country. -/
theorem taggedPostcodes_levelLines (languages : List String) (first place : Place K)
    (isFirst : Bool) :
    taggedPostcodes (levelLines languages first place isFirst) = frontLines first place := by
  have front : taggedPostcodes (frontLines first place) = frontLines first place := by
    unfold frontLines
    split
    · exact taggedPostcodes_postcodeLines first
    · rfl
  rw [levelLines_eq, taggedPostcodes_append, front, taggedPostcodes_rankedLines, List.append_nil]

theorem taggedPostcodes_levelsLines (languages : List String) (first : Place K)
    (rest : List (Place K)) :
    taggedPostcodes (levelsLines languages first rest) =
      (first :: rest).flatMap (frontLines first) := by
  have others : taggedPostcodes (rest.flatMap fun place => levelLines languages first place false) =
      rest.flatMap (frontLines first) := by
    rw [taggedPostcodes, List.filter_flatMap]
    exact congrArg rest.flatMap
      (funext fun place => taggedPostcodes_levelLines languages first place false)
  rw [levelsLines, taggedPostcodes_append, taggedPostcodes_levelLines, others, List.flatMap_cons]

/-! ## Levels with and without a country -/

theorem frontLines_eq_nil (none : duePostcodes (first :: rest) = []) (place : Place K) :
    frontLines first place = [] := by
  unfold frontLines
  split
  · rename_i both
    rw [duePostcodes, if_pos both.2] at none
    exact none
  · rfl

theorem flatMap_frontLines_of_noCountry
    (noCountry : ∀ place ∈ places, place.addressRank ≠ Rank.country) :
    places.flatMap (frontLines first) = [] := by
  rw [List.flatMap_eq_nil_iff]
  intro place member
  exact if_neg fun both => noCountry place member both.1

/-- Where ranks fall, one level at most is a country. -/
theorem flatMap_frontLines_of_country (building : first.isBuilding = true)
    (falls : places.Pairwise fun lower upper => upper.addressRank < lower.addressRank)
    (country : ∃ place ∈ places, place.addressRank = Rank.country) :
    places.flatMap (frontLines first) = postcodeLines first := by
  induction places with
  | nil => simp at country
  | cons place rest ih =>
      obtain ⟨below, falls⟩ := List.pairwise_cons.mp falls
      rw [List.flatMap_cons]
      by_cases here : place.addressRank = Rank.country
      · have noOther : ∀ other ∈ rest, other.addressRank ≠ Rank.country := fun other member same =>
          UInt8.lt_irrefl Rank.country (by simpa [here, same] using below other member)
        rw [flatMap_frontLines_of_noCountry noOther, List.append_nil]
        exact if_pos ⟨here, building⟩
      · have later : ∃ other ∈ rest, other.addressRank = Rank.country := by
          obtain ⟨other, member, isCountry⟩ := country
          rcases List.mem_cons.mp member with rfl | member
          · exact absurd isCountry here
          · exact ⟨other, member, isCountry⟩
        rw [ih falls later]
        exact congrArg (· ++ postcodeLines first) (if_neg fun both => here both.1)

/-- The postcode of a building is missing: no level is a country, and the name of some level
counts as a postcode. -/
structure PostcodeHidden (languages : List String) (places : List (Place K)) : Prop where
  coded : ∃ first ∈ places.head?, first.isBuilding = true ∧
    (first.address.get? "postcode").isSome = true
  noCountry : ∀ place ∈ places, place.addressRank ≠ Rank.country
  mistaken : ∃ place ∈ places, IsNamed languages place ∧ place.placeType = "postcode" ∧
    (place.addressRank < Rank.country ∨ Rank.minorStreet < place.addressRank)

/-- That is, a building with a postcode has no country and does not get its postcode late. -/
theorem postcodeHidden_cons_iff {code : String} (building : first.isBuilding = true)
    (coded : first.address.get? "postcode" = some code) :
    PostcodeHidden languages (first :: rest) ↔
      (∀ place ∈ first :: rest, place.addressRank ≠ Rank.country) ∧
        ¬ LatePostcode languages first rest code := by
  constructor
  · rintro ⟨-, noCountry, place, member, named, mistaken⟩
    refine ⟨noCountry, fun late => ?_⟩
    have noPostcode := ((no_postcode_iff building coded).mp late.missing).2
    exact noPostcode place member named (kind_eq_postcode_iff.mpr mistaken)
  · rintro ⟨noCountry, inTime⟩
    refine ⟨⟨first, rfl, building, by rw [coded]; rfl⟩, noCountry, ?_⟩
    refine Classical.byContradiction fun none => inTime ⟨building, coded, ?_⟩
    refine (no_postcode_iff building coded).mpr ⟨noCountry, ?_⟩
    intro place member named isPostcode
    exact none ⟨place, member, named, kind_eq_postcode_iff.mp isPostcode⟩

/-- The postcode that is hidden is missing. -/
theorem taggedPostcodes_of_hidden (hidden : PostcodeHidden languages places) :
    duePostcodes places ≠ [] ∧ taggedPostcodes (lines languages places) = [] := by
  obtain ⟨first, isFirst, building, hasCode⟩ := hidden.coded
  obtain ⟨rest, rfl⟩ := List.head?_eq_some_iff.mp isFirst
  obtain ⟨code, coded⟩ := Option.isSome_iff_exists.mp hasCode
  obtain ⟨noCountry, inTime⟩ := (postcodeHidden_cons_iff building coded).mp hidden
  have notLate : ∀ other, ¬ LatePostcode languages first rest other := by
    intro other late
    obtain rfl := Option.some.inj (coded.symm.trans late.coded)
    exact inTime late
  constructor
  · exact duePostcodes_ne_nil_iff.mpr ⟨building, code, coded⟩
  · rw [lines_of_not_latePostcode notLate, taggedPostcodes_levelsLines,
      flatMap_frontLines_of_noCountry noCountry]

/-- Where ranks fall, a postcode that is not hidden is there once: in front of the country, or
behind all levels if none is a country. -/
theorem taggedPostcodes_of_coded (building : first.isBuilding = true) {code : String}
    (coded : first.address.get? "postcode" = some code)
    (falls : (first :: rest).Pairwise fun lower upper => upper.addressRank < lower.addressRank)
    (notHidden : ¬ PostcodeHidden languages (first :: rest)) :
    taggedPostcodes (lines languages (first :: rest)) = postcodeLines first := by
  rw [postcodeHidden_cons_iff building coded, not_and, Classical.not_not] at notHidden
  by_cases country : ∃ place ∈ first :: rest, place.addressRank = Rank.country
  · have inTime : ∀ other, ¬ LatePostcode languages first rest other := by
      intro other late
      obtain ⟨place, member, isCountry⟩ := country
      exact ((no_postcode_iff late.building late.coded).mp late.missing).1 place member isCountry
    rw [lines_of_not_latePostcode inTime, taggedPostcodes_levelsLines,
      flatMap_frontLines_of_country building falls country]
  · have noCountry : ∀ place ∈ first :: rest, place.addressRank ≠ Rank.country :=
      fun place member isCountry => country ⟨place, member, isCountry⟩
    rw [lines_of_latePostcode (notHidden noCountry), taggedPostcodes_append,
      taggedPostcodes_levelsLines, flatMap_frontLines_of_noCountry noCountry, postcodeLines, coded]
    rfl

theorem taggedPostcodes_of_not_hidden
    (falls : places.Pairwise fun lower upper => upper.addressRank < lower.addressRank)
    (notHidden : ¬ PostcodeHidden languages places) :
    taggedPostcodes (lines languages places) = duePostcodes places := by
  cases places with
  | nil => rfl
  | cons first rest =>
      by_cases due : duePostcodes (first :: rest) = []
      · have inTime : ∀ code, ¬ LatePostcode languages first rest code := fun code late =>
          duePostcodes_ne_nil_iff.mpr ⟨late.building, code, late.coded⟩ due
        rw [due, lines_of_not_latePostcode inTime, taggedPostcodes_levelsLines,
          List.flatMap_eq_nil_iff]
        exact fun place _ => frontLines_eq_nil due place
      · obtain ⟨building, code, coded⟩ := duePostcodes_ne_nil_iff.mp due
        rw [taggedPostcodes_of_coded building coded falls notHidden, duePostcodes, if_pos building]

/-- The postcode of the building that an address is of is one line of the address, unless it is
hidden.  Then it is missing. -/
theorem taggedPostcodes_assemble_iff (store : Store K) {start : Place K}
    (stored : start ∈ store.toList) (limit : Nat) (table : ZoomTable) (zoom : Int)
    (languages : List String) {places : List (Place K)}
    (retained : (table.truncate (Chain.build store start limit) zoom).filterMap
      (fun entry => store.get? entry.id) = places) :
    (taggedPostcodes (assemble store (table.truncate (Chain.build store start limit) zoom)
        languages).lines = duePostcodes places ↔ ¬ PostcodeHidden languages places) ∧
      (PostcodeHidden languages places →
        taggedPostcodes (assemble store (table.truncate (Chain.build store start limit) zoom)
          languages).lines = []) := by
  have falls := pairwise_places stored limit table zoom
  rw [assemble, ofPlaces, retained] at *
  refine ⟨⟨fun all hidden => ?_, taggedPostcodes_of_not_hidden falls⟩, fun hidden => ?_⟩
  · obtain ⟨due, missing⟩ := taggedPostcodes_of_hidden hidden
    exact due (all.symm.trans missing)
  · exact (taggedPostcodes_of_hidden hidden).2

/-- A named amenity of the type `postcode`, with a postcode of its own. -/
def sortingOffice : Place Float :=
  { Place.pin 0 30 [1] with
    category := "amenity"
    placeType := "postcode"
    names := .ofList [("default", "Sorting Office")]
    address := .ofList [("postcode", "B72 1LH")] }

/-- A named level of some rank around the amenity. -/
def aston (rank : Rank) : Place Float :=
  { Place.pin 1 rank [] with names := .ofList [("default", "Aston")] }

/-- The amenity and that level. -/
def officeIn (rank : Rank) : Store Float :=
  ⟨#[sortingOffice, aston rank], rfl⟩

/-- In a country the amenity has its postcode. -/
theorem taggedPostcodes_assemble_iff_country :
    sortingOffice ∈ (officeIn 4).toList ∧
      ((ZoomTable.standard.truncate (Chain.build (officeIn 4) sortingOffice 32) 18).filterMap
        fun entry => (officeIn 4).get? entry.id) = [sortingOffice, aston 4] ∧
      taggedPostcodes (assemble (officeIn 4) (ZoomTable.standard.truncate
        (Chain.build (officeIn 4) sortingOffice 32) 18) []).lines =
          [.ofTag "postcode" "B72 1LH" 5] := by
  have stored : sortingOffice ∈ (officeIn 4).toList := List.mem_cons_self
  have retained : ((ZoomTable.standard.truncate (Chain.build (officeIn 4) sortingOffice 32)
      18).filterMap fun entry => (officeIn 4).get? entry.id) = [sortingOffice, aston 4] := by
    have kept : ZoomTable.standard.truncate (Chain.build (officeIn 4) sortingOffice 32) 18 =
        [⟨0, 30⟩, ⟨1, 4⟩] := by
      decide +kernel
    rw [kept]
    rfl
  refine ⟨stored, retained, ?_⟩
  apply (taggedPostcodes_assemble_iff (officeIn 4) stored 32 .standard 18 [] retained).1.mpr
  intro hidden
  exact hidden.noCountry (aston 4) (by simp) rfl

/-- In a suburb its name is taken for one, and the postcode is missing. -/
theorem not_taggedPostcodes_suburb :
    sortingOffice ∈ (officeIn 20).toList ∧
      duePostcodes ((ZoomTable.standard.truncate (Chain.build (officeIn 20) sortingOffice 32)
        18).filterMap fun entry => (officeIn 20).get? entry.id) =
          [.ofTag "postcode" "B72 1LH" 5] ∧
      taggedPostcodes (assemble (officeIn 20) (ZoomTable.standard.truncate
        (Chain.build (officeIn 20) sortingOffice 32) 18) []).lines = [] := by
  refine ⟨List.mem_cons_self, ?_, ?_⟩ <;> decide +kernel

end Gazetteer.Address
