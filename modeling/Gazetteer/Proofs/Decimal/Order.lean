import Gazetteer.Decimal.Reading
import Mathlib.Algebra.Order.Field.Power
import Mathlib.Data.EReal.Basic
import Mathlib.Data.EReal.Operations
import Mathlib.Tactic.GCongr
import Mathlib.Tactic.NormNum

/-!
# Patterns in the order of their numbers

The patterns of a format are ordered as the numbers that they stand for: the next pattern has
one more in its significand, or, where the significand is full, an empty one with the next
exponent.  No reading lies beyond the pattern of infinity, so magnitudes that are read can be
compared by their patterns.
-/

namespace Gazetteer.Decimal.Format

variable {format : Format} {pattern : Nat}

/-! ## Finite numbers -/

/-- How many significands there are for each exponent. -/
def span (format : Format) : Nat :=
  2 ^ (format.precision - 1)

theorem span_pos (format : Format) : 0 < format.span :=
  Nat.two_pow_pos _

/-- The number that a pattern stands for, whatever its size.  The numbers without a leading
digit share the least exponent with those that come next. -/
def value (format : Format) (pattern : Nat) : ℚ :=
  let field := pattern / format.span
  let fraction := pattern % format.span
  ((if field = 0 then fraction else format.span + fraction : ℕ) : ℚ) *
    2 ^ (format.leastExponent + (field - 1 : ℕ))

@[simp] theorem value_zero (format : Format) : format.value 0 = 0 := by
  simp [value]

theorem value_mul_add (field : Nat) {fraction : Nat} (short : fraction < format.span) :
    format.value (format.span * field + fraction) =
      ((if field = 0 then fraction else format.span + fraction : ℕ) : ℚ) *
        2 ^ (format.leastExponent + (field - 1 : ℕ)) := by
  rw [value, Nat.mul_add_div format.span_pos, Nat.div_eq_of_lt short, Nat.add_zero,
    Nat.mul_add_mod, Nat.mod_eq_of_lt short]

theorem value_lt_value_succ (format : Format) (pattern : Nat) :
    format.value pattern < format.value (pattern + 1) := by
  obtain ⟨field, fraction, short, rfl⟩ : ∃ field fraction, fraction < format.span ∧
      pattern = format.span * field + fraction :=
    ⟨_, _, Nat.mod_lt pattern format.span_pos, (Nat.div_add_mod pattern format.span).symm⟩
  rcases Nat.lt_or_ge (fraction + 1) format.span with within | full
  · rw [Nat.add_assoc, value_mul_add field short, value_mul_add field within]
    gcongr
    split <;> omega
  · -- the significand is full, and the next pattern begins with the next exponent
    have next : format.span * field + fraction + 1 = format.span * (field + 1) + 0 := by
      rw [Nat.mul_succ]
      omega
    rw [next, value_mul_add field short, value_mul_add (field + 1) format.span_pos,
      if_neg field.succ_ne_zero, Nat.add_sub_cancel, Nat.add_zero]
    cases field with
    | zero =>
        gcongr
        exact short
    | succ field =>
        rw [if_neg field.succ_ne_zero, Nat.add_sub_cancel, Nat.cast_succ, ← add_assoc,
          zpow_add_one₀ two_ne_zero, mul_comm (2 ^ _ : ℚ), ← mul_assoc]
        gcongr
        exact_mod_cast (by omega : format.span + fraction < format.span * 2)

/-- Greater patterns stand for greater numbers. -/
theorem value_strictMono (format : Format) : StrictMono format.value :=
  strictMono_nat_of_lt_succ format.value_lt_value_succ

/-! ## Magnitudes -/

/-- The magnitude of a pattern, which may be infinite. -/
noncomputable def magnitude (format : Format) (pattern : Nat) : EReal :=
  if pattern < format.infinity then ((format.value pattern : ℝ) : EReal) else ⊤

/-- Up to infinity, greater patterns stand for greater magnitudes. -/
theorem magnitude_strictMonoOn (format : Format) :
    StrictMonoOn format.magnitude (Set.Iic format.infinity) := by
  intro pattern _ other bound less
  rw [magnitude, magnitude, if_pos (less.trans_le bound)]
  split
  · exact EReal.coe_lt_coe_iff.mpr (Rat.cast_lt.mpr (format.value_strictMono less))
  · exact EReal.coe_lt_top _

theorem magnitude_zero (finite : 0 < format.infinity) : format.magnitude 0 = 0 := by
  simp [magnitude, finite]

theorem magnitude_pos_iff (finite : 0 < format.infinity) :
    0 < format.magnitude pattern ↔ 0 < pattern := by
  rcases Nat.lt_or_ge pattern format.infinity with less | infinite
  · rw [← magnitude_zero finite]
    exact format.magnitude_strictMonoOn.lt_iff_lt (Nat.zero_le _) less.le
  · rw [magnitude, if_neg infinite.not_gt]
    exact iff_of_true EReal.zero_lt_top (finite.trans_le infinite)

theorem magnitude_nonneg (finite : 0 < format.infinity) (pattern : Nat) :
    0 ≤ format.magnitude pattern := by
  rcases Nat.eq_zero_or_pos pattern with rfl | positive
  · exact (magnitude_zero finite).ge
  · exact ((magnitude_pos_iff finite).mpr positive).le

/-- The pattern that is nearest to one stands for one. -/
theorem magnitude_one : binary32.magnitude (binary32.nearest 1 1) = 1 := by
  have pattern : binary32.nearest 1 1 = 127 * 2 ^ 23 := by decide +kernel
  rw [pattern]
  norm_num [magnitude, value, span, binary32]

/-! ## Readings -/

/-- The number that a reading stands for, if it is one. -/
noncomputable def number? (format : Format) : Reading → Option EReal
  | .notANumber => none
  | .magnitude negative pattern =>
    some (if negative then -format.magnitude pattern else format.magnitude pattern)

theorem nearest_le (format : Format) (numerator denominator : Nat) :
    format.nearest numerator denominator ≤ format.infinity := by
  unfold nearest
  split
  · exact Nat.zero_le _
  · exact Nat.min_le_right ..

theorem ofDecimal_le (format : Format) (digits : Nat) (exponent : Int) :
    format.ofDecimal digits exponent ≤ format.infinity := by
  fun_cases ofDecimal format digits exponent with
  | case1 => exact Nat.zero_le _
  | case2 => exact Nat.le_refl _
  | case3 => exact Nat.zero_le _
  | case4 => exact nearest_le ..
  | case5 => exact nearest_le ..

theorem readUnsigned_le {chars : List Char} (found : readUnsigned format chars = some pattern) :
    pattern ≤ format.infinity := by
  obtain ⟨_, found⟩ := Option.ite_none_left_eq_some.mp found
  obtain ⟨exponent, _, rfl⟩ := Option.map_eq_some_iff.mp found
  exact ofDecimal_le ..

/-- Nothing that is read lies beyond infinity. -/
theorem read_le {text : String} {negative : Bool}
    (found : format.read text = .ok (.magnitude negative pattern)) :
    pattern ≤ format.infinity := by
  unfold read at found
  dsimp only at found
  split at found
  · contradiction
  · split at found
    · rename_i unsigned
      cases found
      exact readUnsigned_le unsigned
    · split at found
      · cases found
        exact Nat.le_refl _
      · split at found <;> cases found

end Gazetteer.Decimal.Format
