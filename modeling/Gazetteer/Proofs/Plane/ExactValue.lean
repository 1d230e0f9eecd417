import Mathlib
import Gazetteer.Plane.Binary64
import Gazetteer.Proofs.Plane.Exact

/-!
# The exact values of numbers

A finite number of binary64 has a rational value, and finite numbers compare as their values
do.  The comparison looks at the exponents first and at the mantissas only where the exponents
are equal.  That is right because numbers come out of their bits in canonical form: the
mantissa has 53 digits, or fewer where the exponent is the least that there is.  So the greater
of two exponents belongs to a mantissa with all its digits, and the step of an exponent makes
up for any mantissa.

How a number is unpacked is analysed in Batteries, which only the whole of Mathlib brings in, and
none of its modules.
-/

namespace Gazetteer.Binary64

open Float.Model

/-! ## Canonical form -/

/-- The digit that a normal mantissa has in front of its bits. -/
theorem toNat_append_mantissa (mantissa : BitVec 52) :
    (1#1 ++ mantissa).toNat = 2 ^ 52 + mantissa.toNat := by
  rw [BitVec.toNat_append, ← Nat.shiftLeft_add_eq_or_of_lt mantissa.isLt]
  rfl

/-- A mantissa of at most 53 digits, and of no fewer unless the exponent is the least. -/
structure IsCanonical (mantissa : Nat) (exponent : Int) : Prop where
  short : mantissa < 2 ^ 53
  least : -1074 ≤ exponent
  long : exponent = -1074 ∨ 2 ^ 52 ≤ mantissa

/-- The parts of a finite number are in canonical form. -/
def Canonical : UnpackedFloat → Prop
  | .finite _ mantissa exponent _ => IsCanonical mantissa exponent
  | _ => True

theorem canonical_unpack (bits : BitVec Format.binary64.numBits) :
    Canonical (UnpackedFloat.unpack Format.binary64 bits) := by
  fun_cases UnpackedFloat.unpack Format.binary64 bits with
  | case1 => trivial
  | case2 => trivial
  | case3 => trivial
  | case4 mantissa exponent power _ _ _ low =>
      -- the least exponent: the mantissa is short
      have bound : mantissa.toNat < 2 ^ 52 := mantissa.isLt
      have least : power + 1 = -1074 := by
        change (exponent.toNat : Int) - 1075 + 1 = -1074
        rw [low]
        rfl
      exact ⟨by omega, by omega, Or.inl least⟩
  | case5 mantissa exponent power _ _ _ notLow =>
      have bound : mantissa.toNat < 2 ^ 52 := mantissa.isLt
      have whole := toNat_append_mantissa mantissa
      have positive : exponent.toNat ≠ 0 :=
        fun zero => notLow (BitVec.eq_of_toNat_eq zero)
      have least : -1074 ≤ power := by
        change -1074 ≤ (exponent.toNat : Int) - 1075
        omega
      exact ⟨by omega, least, Or.inr (by omega)⟩

/-! ## Magnitudes -/

/-- Of two canonical numbers the one with the greater exponent is the greater. -/
theorem magnitude_lt {mantissa other : Nat} {exponent higher : Int}
    (first : IsCanonical mantissa exponent) (second : IsCanonical other higher)
    (less : exponent < higher) : (mantissa : ℚ) * 2 ^ exponent < other * 2 ^ higher := by
  have long : 2 ^ 52 ≤ other :=
    second.long.resolve_left (first.least.trans_lt less).ne'
  calc
    (mantissa : ℚ) * 2 ^ exponent < 2 ^ 53 * 2 ^ exponent := by
      gcongr
      exact_mod_cast first.short
    _ = 2 ^ 52 * 2 ^ (exponent + 1) := by
      rw [zpow_add_one₀ two_ne_zero]
      ring
    _ ≤ 2 ^ 52 * 2 ^ higher := by
      gcongr
      · exact one_le_two
      · exact less
    _ ≤ other * 2 ^ higher := by
      gcongr
      exact_mod_cast long

/-- Canonical magnitudes compare by exponent and then by mantissa. -/
theorem compare_magnitude {mantissa other : Nat} {exponent higher : Int}
    (first : IsCanonical mantissa exponent) (second : IsCanonical other higher) :
    compare ((mantissa : ℚ) * 2 ^ exponent) (other * 2 ^ higher) =
      (compare exponent higher).then (compare mantissa other) := by
  rcases lt_trichotomy exponent higher with less | rfl | more
  · rw [compare_lt_iff_lt.mpr less, compare_lt_iff_lt.mpr (magnitude_lt first second less)]
    rfl
  · have positive : (0 : ℚ) < 2 ^ exponent := by positivity
    rw [compare_eq_iff_eq.mpr rfl, Ordering.eq_then]
    rcases lt_trichotomy mantissa other with less | rfl | more
    · rw [compare_lt_iff_lt.mpr less, compare_lt_iff_lt.mpr]
      gcongr
    · rw [compare_eq_iff_eq.mpr rfl, compare_eq_iff_eq.mpr rfl]
    · rw [compare_gt_iff_gt.mpr more, compare_gt_iff_gt.mpr]
      gcongr
  · rw [compare_gt_iff_gt.mpr more, compare_gt_iff_gt.mpr (magnitude_lt second first more)]
    rfl

/-! ## Values -/

/-- The value of a number that is taken apart; zero for one that is not finite. -/
def unpackedValue : UnpackedFloat → ℚ
  | .finite .positive mantissa exponent _ => mantissa * 2 ^ exponent
  | .finite .negative mantissa exponent _ => -(mantissa * 2 ^ exponent)
  | _ => 0

/-- The value of a finite number. -/
def value (number : Float) : ℚ :=
  unpackedValue number.toModel.unpack

theorem magnitude_pos {mantissa : Nat} (positive : 0 < mantissa) (exponent : Int) :
    (0 : ℚ) < mantissa * 2 ^ exponent := by
  positivity

theorem compare_neg_neg (first second : ℚ) :
    compare (-first) (-second) = (compare first second).swap := by
  rcases lt_trichotomy first second with less | rfl | more
  · rw [compare_lt_iff_lt.mpr less, compare_gt_iff_gt.mpr (neg_lt_neg less)]
    rfl
  · rw [compare_eq_iff_eq.mpr rfl, compare_eq_iff_eq.mpr rfl]
    rfl
  · rw [compare_gt_iff_gt.mpr more, compare_lt_iff_lt.mpr (neg_lt_neg more)]
    rfl

/-- Numbers in canonical form compare as their values do. -/
theorem compare_unpackedValue {first second : UnpackedFloat} (isFirst : first.isFinite = true)
    (isSecond : second.isFinite = true) (canonicalFirst : Canonical first)
    (canonicalSecond : Canonical second) :
    first.compare second = some (compare (unpackedValue first) (unpackedValue second)) := by
  apply Eq.symm
  rcases first with _ | _ | _ | ⟨_ | _, mantissa, exponent, positive⟩ <;>
    rcases second with _ | _ | _ | ⟨_ | _, other, higher, alsoPositive⟩ <;>
      first
        | contradiction
        | dsimp only [unpackedValue, UnpackedFloat.compare]
          rw [Option.some.injEq]
  · exact compare_eq_iff_eq.mpr rfl
  · exact compare_gt_iff_gt.mpr (neg_neg_of_pos (magnitude_pos alsoPositive higher))
  · exact compare_lt_iff_lt.mpr (magnitude_pos alsoPositive higher)
  · exact compare_lt_iff_lt.mpr (neg_neg_of_pos (magnitude_pos positive exponent))
  · rw [compare_neg_neg, compare_magnitude canonicalFirst canonicalSecond]
  · exact compare_lt_iff_lt.mpr ((neg_neg_of_pos (magnitude_pos positive exponent)).trans
      (magnitude_pos alsoPositive higher))
  · exact compare_gt_iff_gt.mpr (magnitude_pos positive exponent)
  · exact compare_gt_iff_gt.mpr ((neg_neg_of_pos (magnitude_pos alsoPositive higher)).trans
      (magnitude_pos positive exponent))
  · exact compare_magnitude canonicalFirst canonicalSecond

/-- Finite numbers compare as their values do. -/
theorem compare_eq_compare_value {first second : Float} (isFirst : first.isFinite = true)
    (isSecond : second.isFinite = true) :
    first.toModel.unpack.compare second.toModel.unpack =
      some (compare (value first) (value second)) :=
  compare_unpackedValue isFirst isSecond (canonical_unpack _) (canonical_unpack _)

theorem lt_iff_value_lt {first second : Float} (isFirst : first.isFinite = true)
    (isSecond : second.isFinite = true) : first < second ↔ value first < value second := by
  change decide (first.toModel < second.toModel) = true ↔ _
  rw [decide_eq_true_iff]
  change (first.toModel.unpack.compare second.toModel.unpack == some .lt) = true ↔ _
  rw [compare_eq_compare_value isFirst isSecond, beq_iff_eq, Option.some.injEq, compare_lt_iff_lt]

theorem le_iff_value_le {first second : Float} (isFirst : first.isFinite = true)
    (isSecond : second.isFinite = true) : first ≤ second ↔ value first ≤ value second := by
  change decide (first.toModel ≤ second.toModel) = true ↔ _
  rw [decide_eq_true_iff]
  change (first.toModel.unpack.compare second.toModel.unpack).any (·.isLE) = true ↔ _
  rw [compare_eq_compare_value isFirst isSecond, Option.any_some, Ordering.isLE_iff_ne_gt]
  exact compare_le_iff_le

theorem beq_value {first second : Float} (isFirst : first.isFinite = true)
    (isSecond : second.isFinite = true) : (value first == value second) = (first == second) := by
  have same : (first == second) = true ↔ value first = value second := by
    change (first.toModel.unpack.compare second.toModel.unpack == some .eq) = true ↔ _
    rw [compare_eq_compare_value isFirst isSecond, beq_iff_eq, Option.some.injEq,
      compare_eq_iff_eq]
  rw [Bool.eq_iff_iff, same, beq_iff_eq]

end Gazetteer.Binary64
