import Gazetteer.Place

/-!
# The order of preference

`Place.precedes` compares ranks and then numbers, so it is a strict order in which two
places stand level only when they agree in both.  `Place.foremost?` picks a place that
none of the others precedes; where places have numbers of their own, there is one such
place and the order of the list does not matter.
-/

namespace Gazetteer.Place

variable {K : Type}

theorem precedes_iff {first second : Place K} :
    first.precedes second = true ↔
      second.addressRank < first.addressRank ∨
        first.addressRank = second.addressRank ∧ first.id < second.id := by
  simp [precedes]

theorem precedes_eq_false_iff {first second : Place K} :
    first.precedes second = false ↔
      first.addressRank ≤ second.addressRank ∧
        (first.addressRank = second.addressRank → second.id ≤ first.id) := by
  simp [precedes]

theorem precedes_self (place : Place K) : place.precedes place = false := by
  simp [precedes_eq_false_iff]

/-- What does not precede a place does not precede one that the place does not precede. -/
theorem precedes_eq_false_trans {first second third : Place K}
    (notFirst : first.precedes second = false) (notSecond : second.precedes third = false) :
    first.precedes third = false := by
  rw [precedes_eq_false_iff] at notFirst notSecond ⊢
  constructor
  · exact UInt8.le_trans notFirst.1 notSecond.1
  · intro level
    have middle : first.addressRank = second.addressRank :=
      UInt8.le_antisymm notFirst.1 (level ▸ notSecond.1)
    exact UInt32.le_trans (notSecond.2 (middle.symm.trans level)) (notFirst.2 middle)

theorem precedes_asymm {first second : Place K} (before : first.precedes second = true) :
    second.precedes first = false := by
  rw [precedes_iff] at before
  rw [precedes_eq_false_iff]
  rcases before with higher | ⟨level, smaller⟩
  · exact ⟨UInt8.le_of_lt higher, fun level => absurd higher (by simp [level])⟩
  · exact ⟨UInt8.le_of_eq level.symm, fun _ => UInt32.le_of_lt smaller⟩

/-- Two places neither of which precedes the other agree in rank and number. -/
theorem entry_eq_of_level {first second : Place K}
    (notBefore : first.precedes second = false) (notAfter : second.precedes first = false) :
    first.addressRank = second.addressRank ∧ first.id = second.id := by
  rw [precedes_eq_false_iff] at notBefore notAfter
  have level : first.addressRank = second.addressRank :=
    UInt8.le_antisymm notBefore.1 notAfter.1
  exact ⟨level, UInt32.le_antisymm (notAfter.2 level.symm) (notBefore.2 level)⟩

/-- Of two places with different numbers one precedes the other. -/
theorem precedes_of_not_precedes {first second : Place K}
    (notBefore : second.precedes first = false) (differ : first.id ≠ second.id) :
    first.precedes second = true := by
  cases before : first.precedes second with
  | true => rfl
  | false => exact absurd (entry_eq_of_level before notBefore).2 differ

/-- Sorting by preference leaves no place behind one that it precedes. -/
theorem pairwise_mergeSort_precedes (places : List (Place K)) :
    (places.mergeSort fun first second => !second.precedes first).Pairwise fun first second =>
      second.precedes first = false := by
  have sorted : (places.mergeSort fun first second => !second.precedes first).Pairwise
      fun first second => (!second.precedes first) = true := by
    apply List.pairwise_mergeSort
    · intro first second third notSecond notThird
      rw [Bool.not_eq_true'] at notSecond notThird ⊢
      exact precedes_eq_false_trans notThird notSecond
    · intro first second
      cases before : second.precedes first with
      | false => rfl
      | true => simp [precedes_asymm before]
  simpa only [Bool.not_eq_true'] using sorted

theorem foremost?_eq_none_iff {places : List (Place K)} :
    foremost? places = none ↔ places = [] := by
  cases places with
  | nil => simp [foremost?]
  | cons place rest =>
      rw [foremost?]
      split
      · split <;> simp
      · simp

/-- No place of a list precedes its foremost one. -/
theorem precedes_foremost?_eq_false {places : List (Place K)} {best : Place K}
    (found : foremost? places = some best) {place : Place K} (member : place ∈ places) :
    place.precedes best = false := by
  induction places generalizing best with
  | nil => simp at member
  | cons first rest ih =>
      rw [foremost?] at found
      cases inner : foremost? rest with
      | none =>
          obtain rfl : rest = [] := foremost?_eq_none_iff.mp inner
          obtain rfl : first = best := by simpa [inner] using found
          obtain rfl : place = first := by simpa using member
          exact precedes_self place
      | some rival =>
          simp only [inner] at found
          split at found
          · rename_i ahead
            obtain rfl : rival = best := Option.some.inj found
            rcases List.mem_cons.mp member with rfl | inRest
            · exact precedes_asymm ahead
            · exact ih inner inRest
          · rename_i behind
            obtain rfl : first = best := Option.some.inj found
            rcases List.mem_cons.mp member with rfl | inRest
            · exact precedes_self place
            · exact precedes_eq_false_trans (ih inner inRest) (Bool.eq_false_iff.mpr behind)

end Gazetteer.Place
