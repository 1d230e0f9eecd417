import Gazetteer.Address

/-!
# Address lines, level by level

Every level has lines of its own, its name and for a country its code, that do not depend on
the place described.  Only a building adds lines beyond those, and which line describes the
place asked for is the only other difference.  So an address holds the lines of any address
that starts at one of its wider levels.
-/

namespace Gazetteer

variable {K : Type}

/-- A line, less the mark of the place that was asked for. -/
def AddressLine.unmarked (line : AddressLine) : AddressLine :=
  { line with isMatched := false }

namespace Address

/-- The lines that a level has in every address. -/
def ownLines (languages : List String) (place : Place K) : List AddressLine :=
  nameLines languages place false ++ countryCodeLines place

theorem map_unmarked_nameLines (languages : List String) (place : Place K) (isFirst : Bool) :
    (nameLines languages place isFirst).map AddressLine.unmarked =
      (nameLines languages place false).map AddressLine.unmarked := by
  unfold nameLines
  by_cases nameless : place.names.isEmpty = true
  · rw [if_pos nameless, if_pos nameless]
  · rw [if_neg nameless, if_neg nameless]
    cases place.name? languages with
    | none => rfl
    | some name => rfl

/-- In the address of a building a level has its own lines and perhaps others. -/
theorem ownLines_sublist_levelLines (languages : List String) (first place : Place K)
    (isFirst : Bool) :
    ((ownLines languages place).map AddressLine.unmarked).Sublist
      ((levelLines languages first place isFirst).map AddressLine.unmarked) := by
  simp only [ownLines, levelLines, List.map_append, map_unmarked_nameLines languages place isFirst]
  exact (List.sublist_append_of_sublist_left (List.sublist_append_right ..)).append_right _

/-- In any other address it has no others. -/
theorem levelLines_of_not_isBuilding (languages : List String) {first : Place K}
    (plain : first.isBuilding = false) (place : Place K) (isFirst : Bool) :
    (levelLines languages first place isFirst).map AddressLine.unmarked =
      (ownLines languages place).map AddressLine.unmarked := by
  simp [levelLines, ownLines, plain, map_unmarked_nameLines languages place isFirst]

/-- An address holds the own lines of all its levels. -/
theorem ownLines_sublist_lines (languages : List String) (places : List (Place K)) :
    ((places.flatMap (ownLines languages)).map AddressLine.unmarked).Sublist
      ((lines languages places).map AddressLine.unmarked) := by
  cases places with
  | nil => exact .refl _
  | cons first rest =>
      have others : ∀ others : List (Place K),
          ((others.flatMap (ownLines languages)).map AddressLine.unmarked).Sublist
            ((others.flatMap fun place => levelLines languages first place false).map
              AddressLine.unmarked) := by
        intro others
        induction others with
        | nil => exact .refl _
        | cons place others ih =>
            simp only [List.flatMap_cons, List.map_append]
            exact (ownLines_sublist_levelLines languages first place false).append ih
      have levels := (ownLines_sublist_levelLines languages first first true).append (others rest)
      rw [← List.map_append, ← List.map_append] at levels
      rw [lines, List.flatMap_cons]
      apply levels.trans
      apply List.Sublist.map
      split
      · exact List.sublist_append_left ..
      · exact .refl _

/-- The address of anything but a building consists of the own lines of its levels. -/
theorem lines_of_not_isBuilding (languages : List String) {first : Place K}
    (plain : first.isBuilding = false) (rest : List (Place K)) :
    (lines languages (first :: rest)).map AddressLine.unmarked =
      ((first :: rest).flatMap (ownLines languages)).map AddressLine.unmarked := by
  have others : (rest.flatMap fun place => levelLines languages first place false).map
      AddressLine.unmarked = (rest.flatMap (ownLines languages)).map AddressLine.unmarked := by
    rw [List.map_flatMap, List.map_flatMap]
    exact congrArg rest.flatMap
      (funext fun place => levelLines_of_not_isBuilding languages plain place false)
  simp only [lines, plain, Bool.false_and, Bool.false_eq_true, if_false, List.flatMap_cons,
    List.map_append, levelLines_of_not_isBuilding languages plain, others]

/-- An address holds the lines of an address that starts at a wider level which is not a
building. -/
theorem lines_sublist_of_isSuffix (languages : List String) {wider detailed : List (Place K)}
    (suffix : wider <:+ detailed)
    (plain : ∀ first ∈ wider.head?, first.isBuilding = false) :
    ((lines languages wider).map AddressLine.unmarked).Sublist
      ((lines languages detailed).map AddressLine.unmarked) := by
  cases wider with
  | nil => exact List.nil_sublist _
  | cons first rest =>
      rw [lines_of_not_isBuilding languages (plain first rfl)]
      refine .trans (List.Sublist.map _ ?_) (ownLines_sublist_lines languages detailed)
      obtain ⟨before, rfl⟩ := suffix
      rw [List.flatMap_append]
      exact List.sublist_append_right ..

end Address

end Gazetteer
