import Gazetteer.Decimal.Fixed
import Gazetteer.Decimal.Reading

/-!
# Digits that are written and read

A number written with zeros in front reads back as the number, and takes no more places than it
is given as long as it fits them.
-/

namespace Gazetteer.Decimal

variable {width value : Nat}

theorem toList_padded (width value : Nat) :
    (padded width value).toList =
      List.replicate (width - (Nat.toDigits 10 value).length) '0' ++ Nat.toDigits 10 value :=
  String.toList_ofList

/-- Zeros in front do not count. -/
@[simp] theorem digitsValue_padded (width value : Nat) :
    digitsValue (padded width value).toList = value := by
  change Nat.ofDigitChars 10 _ 0 = value
  rw [toList_padded, Nat.ofDigitChars_append, Nat.ofDigitChars_replicate_zero, Nat.mul_zero]
  exact Nat.ofDigitChars_ten_toDigits

theorem isDigit_padded (width value : Nat) :
    ∀ c ∈ (padded width value).toList, c.isDigit = true := by
  intro c member
  rw [toList_padded, List.mem_append] at member
  rcases member with zero | digit
  · rw [List.eq_of_mem_replicate zero]
    rfl
  · exact Nat.isDigit_of_mem_toDigits (by decide) (by decide) digit

theorem length_padded (positive : 0 < width) (fits : value < Nat.pow 10 width) :
    (padded width value).toList.length = width := by
  have short := (Nat.length_toDigits_le_iff (by decide) positive).mpr fits
  rw [toList_padded, List.length_append, List.length_replicate]
  exact Nat.sub_add_cancel short

theorem padded_ne_nil (width value : Nat) : (padded width value).toList ≠ [] := by
  rw [toList_padded]
  exact List.append_ne_nil_of_right_ne_nil _ Nat.toDigits_ne_nil

theorem exists_padded_eq_cons (width value : Nat) :
    ∃ c rest, (padded width value).toList = c :: rest ∧ c.isDigit = true := by
  obtain ⟨c, rest, written⟩ := List.exists_cons_of_ne_nil (padded_ne_nil width value)
  exact ⟨c, rest, written, isDigit_padded width value c (written ▸ List.mem_cons_self)⟩

end Gazetteer.Decimal
