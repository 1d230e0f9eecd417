import Gazetteer.Address
import Gazetteer.Proofs.Hierarchy.Climb
import Gazetteer.Proofs.Store
import Gazetteer.Proofs.Zoom

/-!
# The order of an address

Along the levels of an address ranks fall, and the lines of a level have the rank of the
level, except for the postcode in front of a country: it ranks between the country and the
levels before it.  So the lines of the levels come most detailed first.

A postcode that no level has is put behind all of them.  That is where it belongs if every
level is more detailed than a country.  Behind a named level beyond countries, such as a
continent, it is the only line out of order.
-/

namespace Gazetteer.Address

variable {K : Type} {languages : List String} {first place : Place K} {rest : List (Place K)}
  {isFirst : Bool} {line : AddressLine}

/-- No line has a higher rank than a line before it. -/
def MostDetailedFirst (lines : List AddressLine) : Prop :=
  lines.Pairwise fun before after => after.rank ≤ before.rank

theorem mostDetailedFirst_iff {lines : List AddressLine} :
    MostDetailedFirst lines ↔
      (lines.map AddressLine.rank).Pairwise fun before after => after ≤ before := by
  rw [MostDetailedFirst, List.pairwise_map]

/-- A level that has a line of its own name. -/
structure IsNamed (languages : List String) (place : Place K) : Prop where
  named : place.names.isEmpty = false
  readable : (place.name? languages).isSome = true

/-- Lines of one rank are in order. -/
theorem mostDetailedFirst_of_rank {lines : List AddressLine} (rank : Rank)
    (same : ∀ line ∈ lines, line.rank = rank) : MostDetailedFirst lines :=
  List.pairwise_of_forall_mem_list fun before isBefore after isAfter =>
    UInt8.le_of_eq ((same after isAfter).trans (same before isBefore).symm)

theorem mostDetailedFirst_concat_iff {lines : List AddressLine} {last : AddressLine}
    (inOrder : MostDetailedFirst lines) :
    MostDetailedFirst (lines ++ [last]) ↔ ∀ line ∈ lines, last.rank ≤ line.rank := by
  constructor
  · intro whole line member
    exact (List.pairwise_append.mp whole).2.2 line member last (List.mem_singleton_self last)
  · intro reaches
    apply List.pairwise_append.mpr
    refine ⟨inOrder, List.pairwise_singleton _ last, fun line member after isLast => ?_⟩
    rw [List.mem_singleton.mp isLast]
    exact reaches line member

/-! ## The lines of a level -/

/-- The postcode in front of a country, in the address of a building. -/
def frontLines (first place : Place K) : List AddressLine :=
  if place.addressRank = Rank.country ∧ first.isBuilding then postcodeLines first else []

/-- The other lines of a level. -/
def rankedLines (languages : List String) (first place : Place K) (isFirst : Bool) :
    List AddressLine :=
  nameLines languages place isFirst ++
    ((if isFirst ∧ first.isBuilding then houseNumberLines first else []) ++
      countryCodeLines place)

theorem levelLines_eq (languages : List String) (first place : Place K) (isFirst : Bool) :
    levelLines languages first place isFirst =
      frontLines first place ++ rankedLines languages first place isFirst := by
  rw [levelLines, List.append_assoc, List.append_assoc, frontLines, rankedLines]

theorem of_mem_postcodeLines (member : line ∈ postcodeLines first) :
    line.kind = "postcode" ∧ line.rank = Rank.postcode := by
  obtain ⟨code, _, rfl⟩ := Option.map_eq_some_iff.mp (Option.mem_toList.mp member)
  exact ⟨rfl, rfl⟩

theorem of_mem_frontLines (member : line ∈ frontLines first place) :
    place.addressRank = Rank.country ∧ line ∈ postcodeLines first := by
  obtain ⟨⟨country, _⟩, postcode⟩ := List.mem_ite_nil_right.mp member
  exact ⟨country, postcode⟩

theorem of_mem_nameLines (member : line ∈ nameLines languages place isFirst) :
    IsNamed languages place ∧
      line.kind = kind place.category place.placeType place.addressRank ∧
      line.rank = place.addressRank := by
  unfold nameLines at member
  split at member
  · contradiction
  · rename_i named
    obtain ⟨name, found, rfl⟩ := Option.map_eq_some_iff.mp (Option.mem_toList.mp member)
    exact ⟨⟨Bool.eq_false_iff.mpr named, by rw [found]; rfl⟩, rfl, rfl⟩

/-- A named level has a line. -/
theorem exists_mem_nameLines (named : IsNamed languages place) (isFirst : Bool) :
    ∃ line, line ∈ nameLines languages place isFirst := by
  obtain ⟨name, found⟩ := Option.isSome_iff_exists.mp named.readable
  rw [nameLines, named.named, found]
  exact ⟨_, List.mem_singleton_self _⟩

theorem of_mem_houseNumberLines (member : line ∈ houseNumberLines place) :
    line.kind = "house_number" ∧ line.rank = place.addressRank := by
  obtain ⟨number, _, rfl⟩ := Option.map_eq_some_iff.mp (Option.mem_toList.mp member)
  exact ⟨rfl, rfl⟩

theorem of_mem_countryCodeLines (member : line ∈ countryCodeLines place) :
    place.addressRank = Rank.country ∧ line.kind = "country_code" ∧
      line.rank = place.addressRank := by
  obtain ⟨country, isCode⟩ := List.mem_ite_nil_right.mp member
  obtain ⟨code, _, rfl⟩ := Option.map_eq_some_iff.mp (Option.mem_toList.mp isCode)
  exact ⟨country, rfl, country.symm⟩

/-- The other lines of a level have its rank.  One beyond countries is its name, and only its
name may be a postcode. -/
theorem of_mem_rankedLines (own : isFirst = true → place = first)
    (member : line ∈ rankedLines languages first place isFirst) :
    line.rank = place.addressRank ∧
      (place.addressRank < Rank.country → IsNamed languages place) ∧
      (line.kind = "postcode" → IsNamed languages place ∧
        kind place.category place.placeType place.addressRank = "postcode") := by
  simp only [rankedLines, List.mem_append, List.mem_ite_nil_right] at member
  rcases member with name | ⟨⟨isFirst, building⟩, number⟩ | code
  · obtain ⟨named, sameKind, sameRank⟩ := of_mem_nameLines name
    exact ⟨sameRank, fun _ => named, fun postcode => ⟨named, sameKind.symm.trans postcode⟩⟩
  · obtain ⟨otherKind, sameRank⟩ := of_mem_houseNumberLines number
    obtain rfl := own isFirst
    refine ⟨sameRank, fun beyond => ?_, fun postcode => by simp [otherKind] at postcode⟩
    rw [eq_of_beq building] at beyond
    exact absurd beyond (by decide)
  · obtain ⟨country, otherKind, sameRank⟩ := of_mem_countryCodeLines code
    refine ⟨sameRank, fun beyond => ?_, fun postcode => by simp [otherKind] at postcode⟩
    rw [country] at beyond
    exact absurd beyond (by decide)

theorem country_lt_postcode : Rank.country < Rank.postcode := by
  decide

/-- No line of a level is below its rank. -/
theorem addressRank_le_of_mem_levelLines (own : isFirst = true → place = first)
    (member : line ∈ levelLines languages first place isFirst) :
    place.addressRank ≤ line.rank := by
  rw [levelLines_eq, List.mem_append] at member
  rcases member with front | ranked
  · obtain ⟨country, postcode⟩ := of_mem_frontLines front
    rw [country, (of_mem_postcodeLines postcode).2]
    exact UInt8.le_of_lt country_lt_postcode
  · exact UInt8.le_of_eq (of_mem_rankedLines own ranked).1.symm

/-- No line of a level is above a level before it, because there is no rank between that of a
country and that of a postcode. -/
theorem rank_le_of_mem_levelLines (own : isFirst = true → place = first)
    (member : line ∈ levelLines languages first place isFirst) {rank : Rank}
    (below : place.addressRank < rank) : line.rank ≤ rank := by
  rw [levelLines_eq, List.mem_append] at member
  rcases member with front | ranked
  · obtain ⟨country, postcode⟩ := of_mem_frontLines front
    rw [country, UInt8.lt_iff_toNat_lt] at below
    rw [(of_mem_postcodeLines postcode).2, UInt8.le_iff_toNat_le]
    exact below
  · rw [(of_mem_rankedLines own ranked).1]
    exact UInt8.le_of_lt below

theorem mostDetailedFirst_levelLines (languages : List String)
    (own : isFirst = true → place = first) :
    MostDetailedFirst (levelLines languages first place isFirst) := by
  rw [levelLines_eq]
  apply List.pairwise_append.mpr
  refine ⟨mostDetailedFirst_of_rank Rank.postcode fun line front =>
      (of_mem_postcodeLines (of_mem_frontLines front).2).2,
    mostDetailedFirst_of_rank place.addressRank fun line ranked =>
      (of_mem_rankedLines own ranked).1, ?_⟩
  intro before front after ranked
  obtain ⟨country, postcode⟩ := of_mem_frontLines front
  rw [(of_mem_rankedLines own ranked).1, (of_mem_postcodeLines postcode).2, country]
  exact UInt8.le_of_lt country_lt_postcode

/-! ## The lines of all levels -/

/-- The lines of all levels. -/
def levelsLines (languages : List String) (first : Place K) (rest : List (Place K)) :
    List AddressLine :=
  levelLines languages first first true ++
    rest.flatMap fun place => levelLines languages first place false

theorem lines_cons (languages : List String) (first : Place K) (rest : List (Place K)) :
    lines languages (first :: rest) =
      if first.isBuilding &&
          !(levelsLines languages first rest).any (fun line => line.kind == "postcode") then
        levelsLines languages first rest ++ postcodeLines first
      else levelsLines languages first rest :=
  rfl

theorem exists_of_mem_levelsLines (member : line ∈ levelsLines languages first rest) :
    ∃ place ∈ first :: rest, ∃ isFirst, (isFirst = true → place = first) ∧
      line ∈ levelLines languages first place isFirst := by
  rcases List.mem_append.mp member with isFirst | later
  · exact ⟨first, List.mem_cons_self, true, fun _ => rfl, isFirst⟩
  · obtain ⟨place, among, isLine⟩ := List.mem_flatMap.mp later
    exact ⟨place, List.mem_cons_of_mem _ among, false, nofun, isLine⟩

theorem exists_levelLines_subset (languages : List String) (member : place ∈ first :: rest) :
    ∃ isFirst, levelLines languages first place isFirst ⊆ levelsLines languages first rest := by
  rcases List.mem_cons.mp member with rfl | later
  · exact ⟨true, List.subset_append_left ..⟩
  · refine ⟨false, fun line isLine => List.mem_append_right _ ?_⟩
    exact List.mem_flatMap.mpr ⟨place, later, isLine⟩

/-- The lines of the levels are in order where the levels are. -/
theorem mostDetailedFirst_levelsLines (languages : List String)
    (falls : (first :: rest).Pairwise fun lower upper => upper.addressRank < lower.addressRank) :
    MostDetailedFirst (levelsLines languages first rest) := by
  obtain ⟨belowFirst, falls⟩ := List.pairwise_cons.mp falls
  apply List.pairwise_append.mpr
  refine ⟨mostDetailedFirst_levelLines languages fun _ => rfl, ?_, ?_⟩
  · apply List.pairwise_flatMap.mpr
    refine ⟨fun place _ => mostDetailedFirst_levelLines languages (by nofun), ?_⟩
    apply falls.imp
    intro lower upper below before isBefore after isAfter
    exact UInt8.le_trans (rank_le_of_mem_levelLines (by nofun) isAfter below)
      (addressRank_le_of_mem_levelLines (by nofun) isBefore)
  · intro before isBefore after later
    obtain ⟨place, among, isAfter⟩ := List.mem_flatMap.mp later
    exact UInt8.le_trans (rank_le_of_mem_levelLines (by nofun) isAfter (belowFirst place among))
      (addressRank_le_of_mem_levelLines (fun _ => rfl) isBefore)

/-! ## A postcode behind all levels -/

/-- A building has a postcode and none of its levels has one. -/
structure LatePostcode (languages : List String) (first : Place K) (rest : List (Place K))
    (code : String) : Prop where
  building : first.isBuilding = true
  coded : first.address.get? "postcode" = some code
  missing : ∀ line ∈ levelsLines languages first rest, line.kind ≠ "postcode"

/-- Such a postcode is put behind all levels. -/
theorem lines_of_latePostcode {code : String} (late : LatePostcode languages first rest code) :
    lines languages (first :: rest) =
      levelsLines languages first rest ++ [.ofTag "postcode" code Rank.postcode] := by
  have missing := late.missing
  rw [lines_cons, if_pos (by simpa [late.building] using missing), postcodeLines, late.coded]
  rfl

/-- Otherwise there are no lines but those of the levels. -/
theorem lines_of_not_latePostcode (inTime : ∀ code, ¬ LatePostcode languages first rest code) :
    lines languages (first :: rest) = levelsLines languages first rest := by
  rw [lines_cons]
  split
  · rename_i added
    simp only [Bool.and_eq_true, Bool.not_eq_true', List.any_eq_false, beq_iff_eq] at added
    have uncoded : first.address.get? "postcode" = none :=
      Option.eq_none_iff_forall_ne_some.mpr fun code coded =>
        inTime code ⟨added.1, coded, added.2⟩
    rw [postcodeLines, uncoded]
    exact List.append_nil _
  · rfl

/-- The levels of a building with a postcode have no postcode exactly if no level is a country
or has a line that counts as one. -/
theorem no_postcode_iff (building : first.isBuilding = true) {code : String}
    (coded : first.address.get? "postcode" = some code) :
    (∀ line ∈ levelsLines languages first rest, line.kind ≠ "postcode") ↔
      (∀ place ∈ first :: rest, place.addressRank ≠ Rank.country) ∧
        ∀ place ∈ first :: rest, IsNamed languages place →
          kind place.category place.placeType place.addressRank ≠ "postcode" := by
  constructor
  · intro without
    constructor
    · intro place member country
      obtain ⟨isFirst, lines⟩ := exists_levelLines_subset languages member
      refine without (.ofTag "postcode" code Rank.postcode) (lines ?_) rfl
      simp [levelLines_eq, frontLines, country, building, postcodeLines, coded]
    · intro place member named postcode
      obtain ⟨isFirst, lines⟩ := exists_levelLines_subset languages member
      obtain ⟨line, isName⟩ := exists_mem_nameLines named isFirst
      refine without line (lines ?_) ((of_mem_nameLines isName).2.1.trans postcode)
      simp [levelLines_eq, rankedLines, isName]
  · rintro ⟨noCountry, noPostcode⟩ line member postcode
    obtain ⟨place, among, isFirst, own, isLine⟩ := exists_of_mem_levelsLines member
    rw [levelLines_eq, List.mem_append] at isLine
    rcases isLine with front | ranked
    · exact noCountry place among (of_mem_frontLines front).1
    · obtain ⟨named, isPostcode⟩ := (of_mem_rankedLines own ranked).2.2 postcode
      exact noPostcode place among named isPostcode

/-- Without a country, a line is below a postcode exactly if it names a level beyond
countries. -/
theorem postcode_le_iff (noCountry : ∀ place ∈ first :: rest, place.addressRank ≠ Rank.country) :
    (∀ line ∈ levelsLines languages first rest, Rank.postcode ≤ line.rank) ↔
      ¬ ∃ place ∈ first :: rest, IsNamed languages place ∧ place.addressRank < Rank.country := by
  constructor
  · rintro reaches ⟨place, member, named, beyond⟩
    obtain ⟨isFirst, lines⟩ := exists_levelLines_subset languages member
    obtain ⟨line, isName⟩ := exists_mem_nameLines named isFirst
    have bound := reaches line (lines (by simp [levelLines_eq, rankedLines, isName]))
    rw [(of_mem_nameLines isName).2.2] at bound
    exact absurd (UInt8.lt_trans beyond country_lt_postcode) (UInt8.not_lt.mpr bound)
  · intro noneBeyond line member
    obtain ⟨place, among, isFirst, own, isLine⟩ := exists_of_mem_levelsLines member
    rw [levelLines_eq, List.mem_append] at isLine
    rcases isLine with front | ranked
    · exact absurd (of_mem_frontLines front).1 (noCountry place among)
    · obtain ⟨sameRank, named, _⟩ := of_mem_rankedLines own ranked
      have reaches : Rank.country ≤ place.addressRank :=
        UInt8.not_lt.mp fun beyond => noneBeyond ⟨place, among, named beyond, beyond⟩
      have above : Rank.country < place.addressRank :=
        UInt8.lt_of_le_of_ne reaches (noCountry place among).symm
      rw [sameRank, UInt8.le_iff_toNat_le]
      exact UInt8.lt_iff_toNat_lt.mp above

/-- The postcode of a building follows a line that it ought to precede: no level is a country
or has a line that counts as a postcode, and a named level is beyond countries. -/
structure PostcodeTrails (languages : List String) (places : List (Place K)) : Prop where
  coded : ∃ first ∈ places.head?, first.isBuilding = true ∧
    (first.address.get? "postcode").isSome = true
  noCountry : ∀ place ∈ places, place.addressRank ≠ Rank.country
  noPostcode : ∀ place ∈ places, IsNamed languages place →
    kind place.category place.placeType place.addressRank ≠ "postcode"
  beyond : ∃ place ∈ places, IsNamed languages place ∧ place.addressRank < Rank.country

/-- That is, the postcode is put behind a level beyond countries. -/
theorem postcodeTrails_cons_iff :
    PostcodeTrails languages (first :: rest) ↔
      (∃ code, LatePostcode languages first rest code) ∧
        ∃ place ∈ first :: rest, IsNamed languages place ∧ place.addressRank < Rank.country := by
  constructor
  · intro trails
    obtain ⟨_, isFirst, building, hasCode⟩ := trails.coded
    obtain rfl := Option.some.inj isFirst
    obtain ⟨code, coded⟩ := Option.isSome_iff_exists.mp hasCode
    have missing := (no_postcode_iff building coded).mpr ⟨trails.noCountry, trails.noPostcode⟩
    exact ⟨⟨code, building, coded, missing⟩, trails.beyond⟩
  · rintro ⟨⟨code, late⟩, beyond⟩
    obtain ⟨noCountry, noPostcode⟩ := (no_postcode_iff late.building late.coded).mp late.missing
    exact ⟨⟨first, rfl, late.building, by rw [late.coded]; rfl⟩, noCountry, noPostcode, beyond⟩

/-- The lines of levels along which ranks fall are in order unless a postcode trails. -/
theorem mostDetailedFirst_lines_iff (languages : List String) {places : List (Place K)}
    (falls : places.Pairwise fun lower upper => upper.addressRank < lower.addressRank) :
    MostDetailedFirst (lines languages places) ↔ ¬ PostcodeTrails languages places := by
  cases places with
  | nil =>
      refine iff_of_true List.Pairwise.nil fun trails => ?_
      obtain ⟨first, none, _⟩ := trails.coded
      contradiction
  | cons first rest =>
      have inOrder := mostDetailedFirst_levelsLines languages falls
      rw [postcodeTrails_cons_iff]
      by_cases late : ∃ code, LatePostcode languages first rest code
      · rw [and_iff_right late]
        obtain ⟨code, late⟩ := late
        rw [lines_of_latePostcode late, mostDetailedFirst_concat_iff inOrder]
        exact postcode_le_iff ((no_postcode_iff late.building late.coded).mp late.missing).1
      · rw [lines_of_not_latePostcode (not_exists.mp late)]
        exact iff_of_true inOrder fun trails => late trails.1

/-! ## The address of a chain -/

/-- Ranks fall along the places of the levels that are kept of a chain. -/
theorem pairwise_places {store : Store K} {start : Place K} (stored : start ∈ store.toList)
    (limit : Nat) (table : ZoomTable) (zoom : Int) :
    ((table.truncate (Chain.build store start limit) zoom).filterMap fun entry =>
      store.get? entry.id).Pairwise fun lower upper => upper.addressRank < lower.addressRank := by
  have kept := ZoomTable.truncate_sublist table (Chain.build store start limit) zoom
  have rank {entry : ChainEntry} {place : Place K}
      (member : entry ∈ table.truncate (Chain.build store start limit) zoom)
      (found : store.get? entry.id = some place) : place.addressRank = entry.rank := by
    obtain ⟨_, again, rfl⟩ :=
      Chain.stored_of_mem_build (Store.get?_id_of_mem stored) (kept.subset member)
    rw [Option.some.inj (found.symm.trans again)]
    rfl
  apply List.pairwise_filterMap.mpr
  refine ((Chain.pairwise_build store start limit).sublist kept).imp_of_mem ?_
  intro lower upper isLower isUpper below lowerPlace lowerFound upperPlace upperFound
  rw [rank isLower lowerFound, rank isUpper upperFound]
  exact below

/-- The address of the levels that a zoom keeps of a chain comes most detailed first, unless
it is the address of a building with a postcode, has no country and no other postcode, and
names a level beyond countries.  Then the postcode stands behind that level. -/
theorem assemble_mostDetailedFirst_iff (store : Store K) {start : Place K}
    (stored : start ∈ store.toList) (limit : Nat) (table : ZoomTable) (zoom : Int)
    (languages : List String) :
    MostDetailedFirst (assemble store (table.truncate (Chain.build store start limit) zoom)
        languages).lines ↔
      ¬ PostcodeTrails languages
        ((table.truncate (Chain.build store start limit) zoom).filterMap fun entry =>
          store.get? entry.id) :=
  mostDetailedFirst_lines_iff languages (pairwise_places stored limit table zoom)

/-- A house with a number and a postcode. -/
def terraceHouse : Place Float :=
  { Place.pin 0 30 [1] with
    address := .ofList [("housenumber", "7"), ("postcode", "B72 1LH")] }

/-- The house, and a named level of some rank around it. -/
def terrace (rank : Rank) : Store Float :=
  ⟨#[terraceHouse, { Place.pin 1 rank [] with names := .ofList [("default", "Europe")] }], rfl⟩

/-- If that level is a country, the postcode stands in front of it. -/
theorem assemble_mostDetailedFirst_iff_terrace :
    terraceHouse ∈ (terrace 4).toList ∧
      MostDetailedFirst (assemble (terrace 4)
        (ZoomTable.standard.truncate (Chain.build (terrace 4) terraceHouse 32) 18) []).lines := by
  have stored : terraceHouse ∈ (terrace 4).toList := List.mem_cons_self
  have country : ∃ place ∈ (ZoomTable.standard.truncate
      (Chain.build (terrace 4) terraceHouse 32) 18).filterMap fun entry =>
        (terrace 4).get? entry.id, place.addressRank = Rank.country := by
    decide +kernel
  obtain ⟨place, member, rank⟩ := country
  refine ⟨stored, ?_⟩
  apply (assemble_mostDetailedFirst_iff (terrace 4) stored 32 .standard 18 []).mpr
  intro trails
  exact trails.noCountry place member rank

/-- If it is a continent, the postcode stands behind it. -/
theorem not_mostDetailedFirst_terrace :
    terraceHouse ∈ (terrace 2).toList ∧
      (assemble (terrace 2) (ZoomTable.standard.truncate
          (Chain.build (terrace 2) terraceHouse 32) 18) []).lines.map AddressLine.rank =
        [30, 2, 5] ∧
      ¬ MostDetailedFirst (assemble (terrace 2) (ZoomTable.standard.truncate
          (Chain.build (terrace 2) terraceHouse 32) 18) []).lines := by
  have ranks : (assemble (terrace 2) (ZoomTable.standard.truncate
      (Chain.build (terrace 2) terraceHouse 32) 18) []).lines.map AddressLine.rank =
        [30, 2, 5] := by
    decide +kernel
  refine ⟨List.mem_cons_self, ranks, ?_⟩
  rw [mostDetailedFirst_iff, ranks]
  decide

end Gazetteer.Address
