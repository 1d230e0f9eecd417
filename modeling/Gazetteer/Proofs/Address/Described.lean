import Gazetteer.Proofs.Address.Order

/-!
# The line of the place described

Two kinds of lines are marked as describing the place that was asked for: the line that names
the first level, and its house number.  Only a place with names has the first, and only a
building with a house number the second.

A place may be nameable without having names, by what its address tags say.  Such a place is
in its own address only as a building with a house number: a house that is known by its own
name, its street or its postcode alone has no marked line, whatever its languages.
-/

namespace Gazetteer.Address

variable {K : Type} {languages : List String} {first place : Place K} {rest : List (Place K)}
  {isFirst : Bool} {line : AddressLine}

/-- Some line describes the place that was asked for. -/
def Describes (lines : List AddressLine) : Prop :=
  ∃ line ∈ lines, line.isMatched = true

instance (lines : List AddressLine) : Decidable (Describes lines) :=
  inferInstanceAs (Decidable (∃ line ∈ lines, line.isMatched = true))

/-- A building with a house number. -/
def IsNumberedBuilding (place : Place K) : Prop :=
  place.isBuilding = true ∧ place.houseNumber?.isSome = true

instance (place : Place K) : Decidable (IsNumberedBuilding place) :=
  inferInstanceAs (Decidable (_ ∧ _))

/-! ## Marked lines -/

theorem describes_append_iff {before after : List AddressLine} :
    Describes (before ++ after) ↔ Describes before ∨ Describes after := by
  simp only [Describes, List.mem_append, or_and_right, exists_or]

theorem not_describes_of_unmarked {lines : List AddressLine}
    (unmarked : ∀ line ∈ lines, line.isMatched = false) : ¬ Describes lines := by
  rintro ⟨line, member, marked⟩
  rw [unmarked line member] at marked
  contradiction

theorem not_describes_postcodeLines : ¬ Describes (postcodeLines place) := by
  apply not_describes_of_unmarked
  intro line member
  obtain ⟨code, _, rfl⟩ := Option.map_eq_some_iff.mp (Option.mem_toList.mp member)
  rfl

theorem not_describes_frontLines : ¬ Describes (frontLines first place) := by
  unfold frontLines
  split
  · exact not_describes_postcodeLines
  · exact not_describes_of_unmarked (by simp)

theorem not_describes_countryCodeLines : ¬ Describes (countryCodeLines place) := by
  apply not_describes_of_unmarked
  intro line member
  obtain ⟨_, isCode⟩ := List.mem_ite_nil_right.mp member
  obtain ⟨code, _, rfl⟩ := Option.map_eq_some_iff.mp (Option.mem_toList.mp isCode)
  rfl

/-- Of the names only that of the first level is marked. -/
theorem describes_nameLines_iff :
    Describes (nameLines languages place isFirst) ↔
      isFirst = true ∧ IsNamed languages place := by
  constructor
  · rintro ⟨line, member, marked⟩
    have named := (of_mem_nameLines member).1
    rw [nameLines, named.named] at member
    obtain ⟨name, _, rfl⟩ := Option.map_eq_some_iff.mp (Option.mem_toList.mp member)
    exact ⟨marked, named⟩
  · rintro ⟨rfl, named⟩
    obtain ⟨name, found⟩ := Option.isSome_iff_exists.mp named.readable
    rw [nameLines, named.named, found]
    exact ⟨_, List.mem_singleton_self _, rfl⟩

/-- Every house number is marked. -/
theorem describes_houseNumberLines_iff :
    Describes (houseNumberLines place) ↔ place.houseNumber?.isSome = true := by
  unfold houseNumberLines
  cases place.houseNumber? with
  | none => exact iff_of_false (not_describes_of_unmarked (by simp)) (by simp)
  | some number => exact iff_of_true ⟨_, List.mem_singleton_self _, rfl⟩ rfl

/-! ## Marked lines of an address -/

theorem describes_levelLines_iff :
    Describes (levelLines languages first place isFirst) ↔
      isFirst = true ∧ (IsNamed languages place ∨ IsNumberedBuilding first) := by
  rw [levelLines_eq, rankedLines, describes_append_iff, describes_append_iff, describes_append_iff,
    or_iff_right not_describes_frontLines, or_iff_left not_describes_countryCodeLines,
    describes_nameLines_iff, and_or_left]
  apply or_congr_right
  split
  · rename_i level
    rw [describes_houseNumberLines_iff, IsNumberedBuilding, level.1, level.2]
    simp
  · rename_i level
    apply iff_of_false (not_describes_of_unmarked (by simp))
    exact fun numbered => level ⟨numbered.1, numbered.2.1⟩

/-- No level but the first one has a marked line. -/
theorem describes_levelsLines_iff :
    Describes (levelsLines languages first rest) ↔
      IsNamed languages first ∨ IsNumberedBuilding first := by
  have others : ¬ Describes (rest.flatMap fun place => levelLines languages first place false) := by
    rintro ⟨line, member, marked⟩
    obtain ⟨place, _, isLine⟩ := List.mem_flatMap.mp member
    exact absurd (describes_levelLines_iff.mp ⟨line, isLine, marked⟩).1 Bool.false_ne_true
  rw [levelsLines, describes_append_iff, or_iff_left others, describes_levelLines_iff,
    and_iff_right rfl]

theorem describes_lines_iff :
    Describes (lines languages (first :: rest)) ↔
      IsNamed languages first ∨ IsNumberedBuilding first := by
  rw [lines_cons]
  split
  · rw [describes_append_iff, or_iff_left not_describes_postcodeLines, describes_levelsLines_iff]
  · exact describes_levelsLines_iff

/-- A nameable place has a line of its own in its address exactly if it has names, or is a
building with a house number.  The other tags of its address do not give it one. -/
theorem describes_assemble_iff (store : Store K) (entries : List ChainEntry) {first : Place K}
    (described : (entries.filterMap fun entry => store.get? entry.id).head? = some first)
    (languages : List String) (nameable : (first.name? languages).isSome = true) :
    Describes (assemble store entries languages).lines ↔
      first.names.isEmpty = false ∨ IsNumberedBuilding first := by
  obtain ⟨rest, places⟩ := List.head?_eq_some_iff.mp described
  have named : IsNamed languages first ↔ first.names.isEmpty = false :=
    ⟨IsNamed.named, fun named => ⟨named, nameable⟩⟩
  rw [assemble, ofPlaces, places, describes_lines_iff, named]

/-- A house without names, with some address tags. -/
def cottage (tags : List (String × String)) : Place Float :=
  { Place.pin 0 30 [1] with address := .ofList tags }

/-- The house, and a lane that it is on. -/
def lane (tags : List (String × String)) : Store Float :=
  ⟨#[cottage tags, { Place.pin 1 26 [] with names := .ofList [("default", "Mill Lane")] }], rfl⟩

/-- The levels of the house and the lane. -/
def laneLevels : List ChainEntry :=
  [⟨0, 30⟩, ⟨1, 26⟩]

/-- By its number the house has a line in its own address. -/
theorem describes_assemble_iff_numbered :
    (laneLevels.filterMap fun entry => (lane [("housenumber", "7")]).get? entry.id).head? =
        some (cottage [("housenumber", "7")]) ∧
      (cottage [("housenumber", "7")]).name? [] = some "7" ∧
      Describes (assemble (lane [("housenumber", "7")]) laneLevels []).lines := by
  have described : (laneLevels.filterMap fun entry =>
      (lane [("housenumber", "7")]).get? entry.id).head? = some (cottage [("housenumber", "7")]) :=
    rfl
  have named : (cottage [("housenumber", "7")]).name? [] = some "7" := by
    decide +kernel
  have numbered : IsNumberedBuilding (cottage [("housenumber", "7")]) := by
    decide +kernel
  exact ⟨described, named, (describes_assemble_iff _ laneLevels described []
    (by rw [named]; rfl)).mpr (Or.inr numbered)⟩

/-- By its name alone it has none. -/
theorem not_describes_assemble_named :
    (laneLevels.filterMap fun entry =>
        (lane [("housename", "Rose Cottage")]).get? entry.id).head? =
        some (cottage [("housename", "Rose Cottage")]) ∧
      (cottage [("housename", "Rose Cottage")]).name? [] = some "Rose Cottage" ∧
      (assemble (lane [("housename", "Rose Cottage")]) laneLevels []).lines.map
        AddressLine.name = ["Mill Lane"] ∧
      ¬ Describes (assemble (lane [("housename", "Rose Cottage")]) laneLevels []).lines := by
  refine ⟨rfl, ?_, ?_, ?_⟩ <;> decide +kernel

end Gazetteer.Address
