import Gazetteer.Proofs.Plane.ExactValue

/-!
# Rounding to a number in canonical form

A result is rounded to a whole number of steps of the exponent it is given, and does not come
to lie beyond any such number.  All numbers in canonical form are among them, apart from those
that are smaller than anything with that exponent.  So rounding leads past no number in
canonical form.
-/

namespace Gazetteer.Binary64

open Float.Model Float.Model.UnpackedFloat

/-! ## Shifting and rounding a mantissa -/

theorem mantissa_shiftRight (extended : ExtendedMantissa) (amount : Nat) :
    (extended >>> amount).mantissa = extended.mantissa / 2 ^ amount := by
  induction amount with
  | zero => exact (Nat.div_one _).symm
  | succ amount ih =>
      change (extended >>> amount).mantissa / 2 = _
      rw [ih, Nat.div_div_eq_div_mul, Nat.pow_succ]

/-- Nothing is lost where only zeros are shifted out. -/
theorem shiftRight_exact (mantissa amount : Nat) :
    (ExtendedMantissa.mk (mantissa * 2 ^ amount) false false) >>> amount =
      ExtendedMantissa.mk mantissa false false := by
  induction amount generalizing mantissa with
  | zero => simp [HShiftRight.hShiftRight, Nat.repeat]
  | succ amount ih =>
      have moved : mantissa * 2 ^ (amount + 1) = mantissa * 2 * 2 ^ amount := by ring
      change ((ExtendedMantissa.mk _ false false) >>> amount).shiftRightOne = _
      rw [moved, ih]
      simp [ExtendedMantissa.shiftRightOne]

theorem roundedMantissa_bounds (extended : ExtendedMantissa) :
    extended.mantissa ≤ extended.roundedMantissa ∧
      extended.roundedMantissa ≤ extended.mantissa + 1 := by
  rcases extended with ⟨mantissa, _ | _, _ | _⟩ <;>
    simp [ExtendedMantissa.roundedMantissa, ExtendedMantissa.accuracy,
      Accuracy.roundToNearestEven]
  omega

/-- A mantissa of which digits are shifted out, rounded. -/
def shifted (mantissa amount : Nat) : Nat :=
  ((ExtendedMantissa.mk mantissa false false) >>> amount).roundedMantissa

theorem le_shifted {mantissa amount bound : Nat} (below : bound * 2 ^ amount ≤ mantissa) :
    bound ≤ shifted mantissa amount := by
  have whole := mantissa_shiftRight ⟨mantissa, false, false⟩ amount
  have reached : bound ≤ mantissa / 2 ^ amount :=
    (Nat.le_div_iff_mul_le (Nat.two_pow_pos amount)).mpr below
  exact reached.trans (whole ▸ (roundedMantissa_bounds _).1)

theorem shifted_le {mantissa amount bound : Nat} (above : mantissa ≤ bound * 2 ^ amount) :
    shifted mantissa amount ≤ bound := by
  rcases above.lt_or_eq with less | rfl
  · have notReached : mantissa / 2 ^ amount < bound :=
      (Nat.div_lt_iff_lt_mul (Nat.two_pow_pos amount)).mpr less
    have next :=
      (roundedMantissa_bounds ((ExtendedMantissa.mk mantissa false false) >>> amount)).2
    rw [mantissa_shiftRight] at next
    exact next.trans notReached
  · rw [shifted, shiftRight_exact]
    rfl

/-! ## Rounding -/

/-- The exponent that a number is rounded to. -/
def target (mantissa : Nat) (exponent : Int) : Int :=
  Format.binary64.targetExponent (totalExponent mantissa exponent)

theorem target_eq (mantissa : Nat) (exponent : Int) :
    target mantissa exponent = max (mantissa.log2 + exponent - 52) (-1074) := by
  simp only [target, Format.targetExponent, totalExponent, Format.mantissaBits,
    Format.minExponent]
  omega

/-- A number in steps of the exponent that it is rounded to. -/
def steps (mantissa : Nat) (exponent : Int) : Nat :=
  shifted (mantissa <<< (exponent - target mantissa exponent).toNat)
    (target mantissa exponent - exponent).toNat

theorem two_pow_toNat_mul (high low : Int) :
    (2 : ℚ) ^ (high - low).toNat * 2 ^ min high low = 2 ^ high := by
  rw [← zpow_natCast, ← zpow_add₀ two_ne_zero]
  congr 1
  omega

/-- The digits that rounding starts from and a number of steps, with the smaller of the two
exponents in common. -/
theorem shiftLeft_mul (mantissa : Nat) (exponent goal : Int) :
    ((mantissa <<< (exponent - goal).toNat : Nat) : ℚ) * 2 ^ min exponent goal =
      mantissa * 2 ^ exponent := by
  rw [Nat.shiftLeft_eq, Nat.cast_mul, Nat.cast_pow, Nat.cast_ofNat, mul_assoc, two_pow_toNat_mul]

/-- A whole number of steps that is not above a number is not above it when it is rounded. -/
theorem le_steps {mantissa bound : Nat} {exponent : Int}
    (below : (bound : ℚ) * 2 ^ target mantissa exponent ≤ mantissa * 2 ^ exponent) :
    bound ≤ steps mantissa exponent := by
  apply le_shifted
  have positive : (0 : ℚ) < 2 ^ min exponent (target mantissa exponent) := by positivity
  rw [← Nat.cast_le (α := ℚ), ← mul_le_mul_iff_left₀ positive, shiftLeft_mul, Nat.cast_mul,
    Nat.cast_pow, Nat.cast_ofNat, mul_assoc, min_comm, two_pow_toNat_mul]
  exact below

/-- One that is not below it is not below it either. -/
theorem steps_le {mantissa bound : Nat} {exponent : Int}
    (above : (mantissa : ℚ) * 2 ^ exponent ≤ bound * 2 ^ target mantissa exponent) :
    steps mantissa exponent ≤ bound := by
  apply shifted_le
  have positive : (0 : ℚ) < 2 ^ min exponent (target mantissa exponent) := by positivity
  rw [← Nat.cast_le (α := ℚ), ← mul_le_mul_iff_left₀ positive, shiftLeft_mul, Nat.cast_mul,
    Nat.cast_pow, Nat.cast_ofNat, mul_assoc, min_comm, two_pow_toNat_mul]
  exact above

theorem steps_le_two_pow (mantissa : Nat) (exponent : Int) :
    steps mantissa exponent ≤ 2 ^ 53 := by
  apply steps_le
  have digits : (mantissa : ℚ) ≤ 2 ^ (mantissa.log2 + 1) := by
    exact_mod_cast Nat.lt_log2_self.le
  calc
    (mantissa : ℚ) * 2 ^ exponent ≤ 2 ^ (mantissa.log2 + 1) * 2 ^ exponent := by gcongr
    _ = 2 ^ (mantissa.log2 + 1 + exponent : Int) := by
      rw [zpow_add₀ two_ne_zero]
      norm_cast
    _ ≤ 2 ^ (53 + target mantissa exponent : Int) := by
      apply zpow_le_zpow_right₀ one_le_two
      rw [target_eq]
      omega
    _ = (2 ^ 53 : Nat) * 2 ^ target mantissa exponent := by
      rw [zpow_add₀ two_ne_zero]
      norm_cast

/-- Unless the exponent is the least, a number has all the digits that it is rounded to. -/
theorem two_pow_target_le {mantissa : Nat} (positive : 0 < mantissa) {exponent : Int}
    (notLeast : target mantissa exponent ≠ -1074) :
    (2 : ℚ) ^ 52 * 2 ^ target mantissa exponent ≤ mantissa * 2 ^ exponent := by
  have digits : (2 : ℚ) ^ mantissa.log2 ≤ mantissa := by
    exact_mod_cast Nat.log2_self_le positive.ne'
  have isTarget : target mantissa exponent = mantissa.log2 + exponent - 52 := by
    rw [target_eq] at notLeast ⊢
    omega
  calc
    (2 : ℚ) ^ 52 * 2 ^ target mantissa exponent = 2 ^ mantissa.log2 * 2 ^ exponent := by
      rw [isTarget, ← zpow_natCast, ← zpow_natCast, ← zpow_add₀ two_ne_zero,
        ← zpow_add₀ two_ne_zero]
      congr 1
      push_cast
      ring
    _ ≤ mantissa * 2 ^ exponent := by gcongr

/-- A number in canonical form that a magnitude may be rounded to: whatever number in canonical
form bounds the magnitude bounds it as well. -/
structure Rounds (magnitude : ℚ) (mantissa : Nat) (exponent : Int) : Prop where
  canonical : IsCanonical mantissa exponent
  le_of_le : ∀ {bound power}, IsCanonical bound power → (bound : ℚ) * 2 ^ power ≤ magnitude →
    (bound : ℚ) * 2 ^ power ≤ mantissa * 2 ^ exponent
  of_le_of : ∀ {bound power}, IsCanonical bound power → magnitude ≤ (bound : ℚ) * 2 ^ power →
    (mantissa : ℚ) * 2 ^ exponent ≤ bound * 2 ^ power

theorem isCanonical_two_pow {exponent : Int} (least : -1074 ≤ exponent) :
    IsCanonical (2 ^ 52) exponent :=
  ⟨by decide, least, Or.inr le_rfl⟩

theorem mul_two_pow_toNat (bound : Nat) {power goal : Int} (ordered : goal ≤ power) :
    (bound : ℚ) * 2 ^ power = (bound * 2 ^ (power - goal).toNat : Nat) * 2 ^ goal := by
  rw [Nat.cast_mul, Nat.cast_pow, Nat.cast_ofNat, mul_assoc]
  congr 1
  rw [← two_pow_toNat_mul power goal, min_eq_right ordered]

section Steps

variable {mantissa bound : Nat} {exponent power : Int}

theorem le_target (mantissa : Nat) (exponent : Int) : -1074 ≤ target mantissa exponent := by
  rw [target_eq]
  exact le_max_right _ _

theorem magnitude_le_steps (positive : 0 < mantissa) (canonical : IsCanonical bound power)
    (below : (bound : ℚ) * 2 ^ power ≤ mantissa * 2 ^ exponent) :
    (bound : ℚ) * 2 ^ power ≤ steps mantissa exponent * 2 ^ target mantissa exponent := by
  rcases le_or_gt (target mantissa exponent) power with ordered | less
  · rw [mul_two_pow_toNat bound ordered] at below ⊢
    gcongr
    exact le_steps below
  -- a smaller exponent is not the least one to round to, so all digits are there
  · have notLeast : target mantissa exponent ≠ -1074 := (canonical.least.trans_lt less).ne'
    have whole := isCanonical_two_pow (le_target mantissa exponent)
    refine (magnitude_lt canonical whole less).le.trans ?_
    gcongr
    exact le_steps (by exact_mod_cast two_pow_target_le positive notLeast)

theorem steps_le_magnitude (positive : 0 < mantissa) (canonical : IsCanonical bound power)
    (above : (mantissa : ℚ) * 2 ^ exponent ≤ bound * 2 ^ power) :
    (steps mantissa exponent : ℚ) * 2 ^ target mantissa exponent ≤ bound * 2 ^ power := by
  rcases le_or_gt (target mantissa exponent) power with ordered | less
  · rw [mul_two_pow_toNat bound ordered] at above ⊢
    gcongr
    exact steps_le above
  · have notLeast : target mantissa exponent ≠ -1074 := (canonical.least.trans_lt less).ne'
    have whole := isCanonical_two_pow (le_target mantissa exponent)
    have reached := two_pow_target_le positive notLeast
    have less := magnitude_lt canonical whole less
    push_cast at less
    exact absurd (less.trans_le (reached.trans above)) (lt_irrefl _)

theorem rounds_steps (positive : 0 < mantissa) (short : steps mantissa exponent < 2 ^ 53) :
    Rounds (mantissa * 2 ^ exponent) (steps mantissa exponent) (target mantissa exponent) where
  canonical := by
    refine ⟨short, le_target mantissa exponent, ?_⟩
    by_cases least : target mantissa exponent = -1074
    · exact Or.inl least
    · exact Or.inr (le_steps (by exact_mod_cast two_pow_target_le positive least))
  le_of_le canonical below := magnitude_le_steps positive canonical below
  of_le_of canonical above := steps_le_magnitude positive canonical above

/-- A rounded number with too many digits is a power of two, and takes the next exponent. -/
theorem rounds_full (positive : 0 < mantissa) (full : steps mantissa exponent = 2 ^ 53) :
    Rounds (mantissa * 2 ^ exponent) (2 ^ 52) (target mantissa exponent + 1) := by
  have least := le_target mantissa exponent
  have same : ((2 ^ 52 : Nat) : ℚ) * 2 ^ (target mantissa exponent + 1) =
      steps mantissa exponent * 2 ^ target mantissa exponent := by
    rw [full, zpow_add_one₀ two_ne_zero]
    push_cast
    ring
  refine ⟨isCanonical_two_pow (by omega), ?_, ?_⟩
  · intro bound power canonical below
    exact same ▸ magnitude_le_steps positive canonical below
  · intro bound power canonical above
    exact same ▸ steps_le_magnitude positive canonical above

end Steps

theorem target_shiftLeft {mantissa : Nat} (positive : 0 < mantissa) (exponent : Int)
    (amount : Nat) :
    target (mantissa <<< amount) (exponent - amount) = target mantissa exponent := by
  have digits : (mantissa <<< amount).log2 = mantissa.log2 + amount := by
    rw [Nat.shiftLeft_eq, Nat.log2_eq_iff (by positivity)]
    have bounds := (Nat.log2_eq_iff positive.ne').mp rfl
    constructor
    · rw [pow_add]
      exact Nat.mul_le_mul_right _ bounds.1
    · rw [Nat.add_right_comm, pow_add]
      exact Nat.mul_lt_mul_of_pos_right bounds.2 (by positivity)
  rw [target_eq, target_eq, digits]
  push_cast
  ring_nf

theorem targetExponent_eq (mantissa : Nat) (exponent : Int) :
    Format.binary64.targetExponent (totalExponent mantissa exponent) = target mantissa exponent :=
  rfl

theorem shiftToTargetExponent_eq (mantissa : Nat) (exponent : Int) :
    shiftToTargetExponent Format.binary64 mantissa exponent .exact =
      ((ExtendedMantissa.mk mantissa false false) >>> (target mantissa exponent - exponent).toNat,
        max exponent (target mantissa exponent)) := by
  simp only [shiftToTargetExponent, shiftToExponent, ExtendedMantissa.ofMantissaAndAccuracy,
    targetExponent_eq, Prod.mk.injEq, true_and]
  omega

/-- A finite number from its parts. -/
def assembled (sign : UnpackedFloat.Sign) (mantissa : Nat) (exponent : Int) : UnpackedFloat :=
  if zero : mantissa = 0 then .zero sign
  else .finite sign mantissa exponent (Nat.pos_of_ne_zero zero)

/-- A number is rounded to steps, and shifted once more in case these have too many digits. -/
theorem round_eq {mantissa : Nat} (positive : 0 < mantissa) (exponent : Int)
    (sign : UnpackedFloat.Sign) :
    UnpackedFloat.round Format.binary64 sign mantissa exponent =
      let final := shiftToTargetExponent Format.binary64 (steps mantissa exponent)
        (target mantissa exponent) .exact
      assembled sign final.1.mantissa final.2 := by
  have first : shiftToTargetExponent Format.binary64
      (mantissa <<< (exponent - target mantissa exponent).toNat)
      (exponent - (exponent - target mantissa exponent).toNat) .exact =
      ((ExtendedMantissa.mk (mantissa <<< (exponent - target mantissa exponent).toNat) false false)
        >>> (target mantissa exponent - exponent).toNat, target mantissa exponent) := by
    rw [shiftToTargetExponent_eq, target_shiftLeft positive]
    generalize target mantissa exponent = goal
    congr 2 <;> omega
  simp only [UnpackedFloat.round, decreaseExponent, targetExponent_eq, roundWithAccuracy, first]
  rfl

theorem target_of_short {mantissa : Nat} (short : mantissa < 2 ^ 53) {exponent : Int}
    (least : -1074 ≤ exponent) : target mantissa exponent ≤ exponent := by
  have digits : mantissa.log2 < 53 := by
    by_cases zero : mantissa = 0
    · simp [zero]
    · exact (Nat.log2_lt zero).mpr short
  rw [target_eq]
  omega

/-- Rounding comes to a number in canonical form that is bounded by what bounds it. -/
theorem exists_round {mantissa : Nat} (positive : 0 < mantissa) (exponent : Int)
    (sign : UnpackedFloat.Sign) :
    ∃ rounded power, Rounds (mantissa * 2 ^ exponent) rounded power ∧
      UnpackedFloat.round Format.binary64 sign mantissa exponent =
        assembled sign rounded power := by
  have least := le_target mantissa exponent
  rcases (steps_le_two_pow mantissa exponent).lt_or_eq with short | full
  · have final : shiftToTargetExponent Format.binary64 (steps mantissa exponent)
        (target mantissa exponent) .exact =
        (ExtendedMantissa.mk (steps mantissa exponent) false false, target mantissa exponent) := by
      have notMore := target_of_short short least
      rw [shiftToTargetExponent_eq, max_eq_left notMore, Int.toNat_of_nonpos (by omega)]
      rfl
    exact ⟨_, _, rounds_steps positive short, by rw [round_eq positive, final]⟩
  · have next : target (2 ^ 53) (target mantissa exponent) = target mantissa exponent + 1 := by
      rw [target_eq (2 ^ 53), Nat.log2_two_pow]
      omega
    have one : (target mantissa exponent + 1 - target mantissa exponent).toNat = 1 := by omega
    have final : shiftToTargetExponent Format.binary64 (steps mantissa exponent)
        (target mantissa exponent) .exact =
        (ExtendedMantissa.mk (2 ^ 52) false false, target mantissa exponent + 1) := by
      rw [shiftToTargetExponent_eq, full, next, max_eq_right (by omega), one]
      rfl
    exact ⟨_, _, rounds_full positive full, by rw [round_eq positive, final]⟩

end Gazetteer.Binary64
