import Gazetteer.Proofs.Plane.Comparison
import Gazetteer.Proofs.Plane.Rounding

/-!
# Adding what is not negative

A sum is computed exactly, rounded and packed.  What is added to is a number in canonical form
that is not above the exact sum, so rounding does not lead below it.  Packing changes no number
in canonical form but those that are too great, and makes them infinite.  So adding what is not
negative leads to nothing less than what it is added to.
-/

namespace Gazetteer.Binary64

open Float.Model Float.Model.UnpackedFloat

/-! ## Packing -/

theorem unpackSign_packComponents {spec : Format} (sign : UnpackedFloat.Sign)
    (exponent : BitVec spec.exponentBits) (mantissa : BitVec spec.mantissaBitsWithoutImplicit) :
    unpackSign (packComponents spec sign exponent mantissa) = sign.toBitVec := by
  ext position inOne
  obtain rfl : position = 0 := by omega
  simp [unpackSign, packComponents, BitVec.getLsbD_append, BitVec.getElem_append]

theorem ofBitVec_toBitVec (sign : UnpackedFloat.Sign) :
    UnpackedFloat.Sign.ofBitVec sign.toBitVec = sign := by
  cases sign <;> rfl

theorem unpack_packComponents_normal (sign : UnpackedFloat.Sign) {exponent : BitVec 11}
    (mantissa : BitVec 52) (notSpecial : exponent ≠ -1#11) (notLeast : exponent ≠ 0#11) :
    unpack Format.binary64 (packComponents Format.binary64 sign exponent mantissa) =
      .finite sign (1#1 ++ mantissa).toNat (exponent.toNat - 1075)
        (by rw [toNat_append_mantissa]; omega) := by
  simp only [UnpackedFloat.unpack, unpackExponent_packComponents, unpackMantissa_packComponents,
    unpackSign_packComponents, ofBitVec_toBitVec, if_neg notSpecial, if_neg notLeast]
  rfl

theorem unpack_packComponents_subnormal (sign : UnpackedFloat.Sign) {mantissa : BitVec 52}
    (notZero : 0 < mantissa.toNat) :
    unpack Format.binary64 (packComponents Format.binary64 sign 0#11 mantissa) =
      .finite sign mantissa.toNat (-1074) notZero := by
  have differs : mantissa ≠ 0#52 := by
    rintro rfl
    contradiction
  have notSpecial : (0#11) ≠ -1#11 := by decide
  simp only [UnpackedFloat.unpack, unpackExponent_packComponents, unpackMantissa_packComponents,
    unpackSign_packComponents, ofBitVec_toBitVec, if_neg notSpecial, if_true, dif_neg differs]
  rfl

/-- A number in canonical form is read back unless its exponent is too great. -/
theorem unpack_pack_finite (sign : UnpackedFloat.Sign) {mantissa : Nat} {exponent : Int}
    (positive : 0 < mantissa) (canonical : IsCanonical mantissa exponent)
    (fits : exponent ≤ 971) :
    unpack Format.binary64 (pack Format.binary64 (.finite sign mantissa exponent positive)) =
      .finite sign mantissa exponent positive := by
  have least := canonical.least
  have notLarge : ¬ 2 ^ 11 ≤ (exponent + 1023 + 52).toNat + 1 := by omega
  have digits : mantissa.log2 + 1 = 53 ↔ 2 ^ 52 ≤ mantissa := by
    rw [← Nat.le_log2 positive.ne']
    have short := (Nat.log2_lt positive.ne').mpr canonical.short
    omega
  change unpack Format.binary64 (if 2 ^ 11 ≤ (exponent + 1023 + 52).toNat + 1 then _
    else if mantissa.log2 + 1 = 53 then packComponents Format.binary64 sign
      (BitVec.ofNat 11 (exponent + 1023 + 52).toNat) (BitVec.ofNat 52 mantissa)
    else packComponents Format.binary64 sign 0#11 (BitVec.ofNat 52 mantissa)) = _
  rw [if_neg notLarge]
  by_cases whole : 2 ^ 52 ≤ mantissa
  · have biased : (BitVec.ofNat 11 (exponent + 1023 + 52).toNat).toNat =
        (exponent + 1023 + 52).toNat := by
      rw [BitVec.toNat_ofNat, Nat.mod_eq_of_lt (by omega)]
    have rest : (BitVec.ofNat 52 mantissa).toNat = mantissa - 2 ^ 52 := by
      have short := canonical.short
      rw [BitVec.toNat_ofNat]
      omega
    have notSpecial : BitVec.ofNat 11 (exponent + 1023 + 52).toNat ≠ -1#11 := by
      intro same
      have same : (exponent + 1023 + 52).toNat = 2047 := biased ▸ congrArg BitVec.toNat same
      omega
    have notLeast : BitVec.ofNat 11 (exponent + 1023 + 52).toNat ≠ 0#11 := by
      intro same
      have same : (exponent + 1023 + 52).toNat = 0 := biased ▸ congrArg BitVec.toNat same
      omega
    rw [if_pos (digits.mpr whole), unpack_packComponents_normal sign _ notSpecial notLeast,
      UnpackedFloat.finite.injEq, toNat_append_mantissa, rest, biased]
    exact ⟨rfl, by omega, by omega⟩
  · obtain rfl : exponent = -1074 := canonical.long.resolve_right whole
    have rest : (BitVec.ofNat 52 mantissa).toNat = mantissa := by
      rw [BitVec.toNat_ofNat, Nat.mod_eq_of_lt (not_le.mp whole)]
    rw [if_neg (mt digits.mp whole), unpack_packComponents_subnormal sign (rest.symm ▸ positive),
      UnpackedFloat.finite.injEq]
    exact ⟨rfl, rest, rfl⟩

theorem unpack_pack_overflow (sign : UnpackedFloat.Sign) {mantissa : Nat} {exponent : Int}
    (positive : 0 < mantissa) (large : 971 < exponent) :
    unpack Format.binary64 (pack Format.binary64 (.finite sign mantissa exponent positive)) =
      .infinity sign := by
  have isLarge : 2 ^ 11 ≤ (exponent + 1023 + 52).toNat + 1 := by omega
  change unpack Format.binary64 (if 2 ^ 11 ≤ (exponent + 1023 + 52).toNat + 1 then _ else _) = _
  rw [if_pos isLarge]
  cases sign <;> rfl

theorem unpack_pack_infinity (sign : UnpackedFloat.Sign) :
    unpack Format.binary64 (pack Format.binary64 (.infinity sign)) = .infinity sign := by
  cases sign <;> rfl

theorem unpack_pack_zero (sign : UnpackedFloat.Sign) :
    unpack Format.binary64 (pack Format.binary64 (.zero sign)) = .zero sign := by
  cases sign <;> rfl

theorem unpack_pack_notANumber :
    unpack Format.binary64 (pack Format.binary64 .notANumber) = .notANumber :=
  rfl

/-! ## Sums -/

/-- An exponent that is not too great for a finite number. -/
def Fits : UnpackedFloat → Prop
  | .finite _ _ exponent _ => exponent ≤ 971
  | _ => True

theorem fits_unpack (bits : BitVec Format.binary64.numBits) :
    Fits (UnpackedFloat.unpack Format.binary64 bits) := by
  fun_cases UnpackedFloat.unpack Format.binary64 bits with
  | case1 => trivial
  | case2 => trivial
  | case3 => trivial
  | case4 mantissa exponent power _ _ _ low =>
      have least : power + 1 = -1074 := by
        change (exponent.toNat : Int) - 1075 + 1 = -1074
        rw [low]
        rfl
      exact least.trans_le (by decide)
  | case5 mantissa exponent power _ _ notSpecial notLow =>
      have bound : exponent.toNat < 2 ^ 11 := exponent.isLt
      have differs : exponent.toNat ≠ 2047 :=
        fun special => notSpecial (BitVec.eq_of_toNat_eq special)
      change (exponent.toNat : Int) - 1075 ≤ 971
      omega

/-- A number that is read back as it was packed. -/
def stored (number : UnpackedFloat) : UnpackedFloat :=
  UnpackedFloat.unpack Format.binary64 (pack Format.binary64 number)

/-- A finite number in canonical form. -/
structure IsNumber (number : UnpackedFloat) : Prop where
  isFinite : number.isFinite = true
  canonical : Canonical number

theorem isNumber_assembled (sign : UnpackedFloat.Sign) {mantissa : Nat} {exponent : Int}
    (canonical : IsCanonical mantissa exponent) : IsNumber (assembled sign mantissa exponent) := by
  unfold assembled
  split
  · exact ⟨rfl, trivial⟩
  · exact ⟨rfl, canonical⟩

theorem unpackedValue_finite (sign : UnpackedFloat.Sign) {mantissa : Nat} (exponent : Int)
    (positive : 0 < mantissa) :
    unpackedValue (.finite sign mantissa exponent positive) =
      (sign.apply mantissa : Int) * 2 ^ exponent := by
  cases sign <;> simp [unpackedValue, UnpackedFloat.Sign.apply]

theorem unpackedValue_assembled (sign : UnpackedFloat.Sign) (mantissa : Nat) (exponent : Int) :
    unpackedValue (assembled sign mantissa exponent) =
      (sign.apply mantissa : Int) * 2 ^ exponent := by
  unfold assembled
  split
  · rename_i zero
    subst zero
    cases sign <;> simp [unpackedValue, UnpackedFloat.Sign.apply]
  · exact unpackedValue_finite sign exponent _

variable {number other : UnpackedFloat}

theorem exists_negative (negative : unpackedValue number < 0) :
    ∃ mantissa exponent positive, number = .finite .negative mantissa exponent positive := by
  rcases number with _ | _ | _ | ⟨_ | _, mantissa, exponent, positive⟩
  · exact absurd negative (lt_irrefl 0)
  · exact absurd negative (lt_irrefl 0)
  · exact absurd negative (lt_irrefl 0)
  · exact ⟨mantissa, exponent, positive, rfl⟩
  · exact absurd negative (magnitude_pos positive exponent).not_gt

/-- What overflows to a negative infinity is below all finite numbers. -/
theorem compare_infinity_ne_lt {sign : UnpackedFloat.Sign} {mantissa : Nat} {exponent : Int}
    {positive : 0 < mantissa} (isNumber : IsNumber number) (fits : Fits number)
    (canonical : IsCanonical mantissa exponent) (large : 971 < exponent)
    (below : unpackedValue number ≤ unpackedValue (.finite sign mantissa exponent positive)) :
    (UnpackedFloat.infinity sign).compare number ≠ some .lt := by
  cases sign with
  | negative =>
      obtain ⟨digits, scale, _, rfl⟩ :=
        exists_negative (below.trans_lt (neg_neg_of_pos (magnitude_pos positive exponent)))
      have greater := magnitude_lt isNumber.canonical canonical (fits.trans_lt large)
      exact absurd (neg_le_neg_iff.mp below) (not_le.mpr greater)
  | positive =>
      have isFinite := isNumber.isFinite
      rcases number with _ | _ | _ | _
      · contradiction
      · contradiction
      · simp [UnpackedFloat.compare]
      · simp [UnpackedFloat.compare]

/-- A number is not stored below one that it is not below, even if it overflows. -/
theorem compare_stored_ne_lt (isNumber : IsNumber number) (fits : Fits number)
    (isOther : IsNumber other) (below : unpackedValue number ≤ unpackedValue other) :
    (stored other).compare number ≠ some .lt := by
  have unchanged (same : stored other = other) : (stored other).compare number ≠ some .lt := by
    rw [same, compare_unpackedValue isOther.isFinite isNumber.isFinite isOther.canonical
      isNumber.canonical]
    simpa [compare_lt_iff_lt] using below
  match other, isOther with
  | .zero sign, _ => exact unchanged (unpack_pack_zero sign)
  | .finite sign mantissa exponent positive, isOther =>
      by_cases large : 971 < exponent
      · rw [stored, unpack_pack_overflow sign positive large]
        exact compare_infinity_ne_lt isNumber fits isOther.canonical large below
      · exact unchanged (unpack_pack_finite sign positive isOther.canonical (not_lt.mp large))

/-- A number is not rounded below one that it is not below. -/
theorem le_round (isNumber : IsNumber number) (sign : UnpackedFloat.Sign) {mantissa : Nat}
    (positive : 0 < mantissa) {exponent : Int}
    (below : unpackedValue number ≤ (sign.apply mantissa : Int) * 2 ^ exponent) :
    IsNumber (UnpackedFloat.round Format.binary64 sign mantissa exponent) ∧
      unpackedValue number ≤
        unpackedValue (UnpackedFloat.round Format.binary64 sign mantissa exponent) := by
  obtain ⟨rounded, power, rounds, isRounded⟩ := exists_round positive exponent sign
  rw [isRounded, unpackedValue_assembled]
  refine ⟨isNumber_assembled sign rounds.canonical, ?_⟩
  cases sign with
  | negative =>
      simp only [UnpackedFloat.Sign.apply, Int.cast_neg, Int.cast_natCast, neg_mul] at below ⊢
      obtain ⟨digits, scale, _, rfl⟩ :=
        exists_negative (below.trans_lt (neg_neg_of_pos (magnitude_pos positive exponent)))
      exact neg_le_neg (rounds.of_le_of isNumber.canonical (neg_le_neg_iff.mp below))
  | positive =>
      simp only [UnpackedFloat.Sign.apply, Int.cast_natCast] at below ⊢
      have nonneg : (0 : ℚ) ≤ rounded * 2 ^ power := by positivity
      rcases number with _ | _ | _ | ⟨_ | _, digits, scale, digitsPositive⟩
      · exact nonneg
      · exact nonneg
      · exact nonneg
      · exact (neg_nonpos.mpr (magnitude_pos digitsPositive scale).le).trans nonneg
      · exact rounds.le_of_le isNumber.canonical below

/-- A sum is not rounded below a number that it is not below. -/
theorem le_normalize (isNumber : IsNumber number) {mantissa exponent : Int}
    (below : unpackedValue number ≤ mantissa * 2 ^ exponent) (zeroSign : UnpackedFloat.Sign) :
    IsNumber (UnpackedFloat.normalize Format.binary64 mantissa exponent zeroSign) ∧
      unpackedValue number ≤
        unpackedValue (UnpackedFloat.normalize Format.binary64 mantissa exponent zeroSign) := by
  unfold UnpackedFloat.normalize
  rcases lt_trichotomy mantissa 0 with negative | rfl | positive
  · rw [compare_lt_iff_lt.mpr negative]
    have magnitude : UnpackedFloat.Sign.negative.apply (-mantissa).toNat = mantissa := by
      simp only [UnpackedFloat.Sign.apply]
      omega
    exact le_round isNumber .negative (by omega) (by rwa [magnitude])
  · rw [compare_eq_iff_eq.mpr rfl]
    exact ⟨⟨rfl, trivial⟩, by simpa [unpackedValue] using below⟩
  · rw [compare_gt_iff_gt.mpr positive]
    have magnitude : UnpackedFloat.Sign.positive.apply mantissa.toNat = mantissa := by
      simp only [UnpackedFloat.Sign.apply]
      omega
    exact le_round isNumber .positive (by omega) (by rwa [magnitude])

theorem unpackedValue_eq_shiftLeft {sign : UnpackedFloat.Sign} {mantissa : Nat}
    {exponent goal : Int} (positive : 0 < mantissa) (ordered : goal ≤ exponent) :
    unpackedValue (.finite sign mantissa exponent positive) =
      (sign.apply (mantissa <<< (exponent - goal).toNat : Nat) : Int) * 2 ^ goal := by
  have shifted := shiftLeft_mul mantissa exponent goal
  rw [min_eq_right ordered] at shifted
  generalize mantissa <<< (exponent - goal).toNat = digits at *
  cases sign with
  | negative => simp [unpackedValue, UnpackedFloat.Sign.apply, ← shifted]
  | positive => simp [unpackedValue, UnpackedFloat.Sign.apply, ← shifted]

theorem stored_eq (canonical : Canonical number) (fits : Fits number) : stored number = number := by
  match number with
  | .notANumber => exact unpack_pack_notANumber
  | .infinity sign => exact unpack_pack_infinity sign
  | .zero sign => exact unpack_pack_zero sign
  | .finite sign mantissa exponent positive => exact unpack_pack_finite sign positive canonical fits

theorem compare_self_ne_lt (number : UnpackedFloat) : number.compare number ≠ some .lt := by
  rcases number with (_ | _) | _ | _ | ⟨_ | _, mantissa, exponent, _⟩ <;>
    simp [UnpackedFloat.compare, compare_same]

/-- Zero and what is positive. -/
def NotNegative : UnpackedFloat → Prop
  | .zero _ | .infinity .positive | .finite .positive .. => True
  | _ => False

theorem add_eq_of_special (notNegative : NotNegative other)
    (special : number.isFinite = false ∨ other.isFinite = false) :
    UnpackedFloat.add Format.binary64 number other = number ∨
      UnpackedFloat.add Format.binary64 number other = .notANumber ∨
      UnpackedFloat.add Format.binary64 number other = .infinity .positive := by
  rcases number with (_ | _) | _ | _ | _ <;>
    rcases other with (_ | _) | _ | _ | ⟨_ | _, _, _, _⟩ <;>
      first
        | contradiction
        | exact Or.inl rfl
        | exact Or.inr (Or.inl rfl)
        | exact Or.inr (Or.inr rfl)
        | simp [UnpackedFloat.isFinite] at special

/-- A sum of two finite numbers, one of them not negative, is not below the other. -/
theorem le_add (isNumber : IsNumber number) (isOther : IsNumber other)
    (notNegative : NotNegative other) :
    IsNumber (UnpackedFloat.add Format.binary64 number other) ∧
      unpackedValue number ≤ unpackedValue (UnpackedFloat.add Format.binary64 number other) := by
  have isFinite := isNumber.isFinite
  have otherFinite := isOther.isFinite
  rcases number with _ | _ | sign | ⟨sign, mantissa, exponent, positive⟩ <;>
    rcases other with _ | _ | moreSign | ⟨_ | _, more, higher, morePositive⟩ <;>
      try contradiction
  · rw [UnpackedFloat.add]
    split <;> exact ⟨⟨rfl, trivial⟩, le_rfl⟩
  · exact ⟨isOther, (magnitude_pos morePositive higher).le⟩
  · exact ⟨isNumber, le_rfl⟩
  · have below : unpackedValue (.finite sign mantissa exponent positive) ≤
        (sign.apply (mantissa <<< (exponent - min exponent higher).toNat : Nat) +
          (more <<< (higher - min exponent higher).toNat : Nat) : Int) *
            2 ^ min exponent higher := by
      rw [unpackedValue_eq_shiftLeft positive (min_le_left exponent higher), Int.cast_add]
      gcongr
      exact le_add_of_nonneg_right (Int.cast_nonneg (Int.natCast_nonneg _))
    exact le_normalize isNumber below .positive

/-- Adding what is not negative leads to nothing less. -/
theorem compare_stored_add_ne_lt (canonical : Canonical number) (fits : Fits number)
    (alsoCanonical : Canonical other) (notNegative : NotNegative other) :
    (stored (UnpackedFloat.add Format.binary64 number other)).compare number ≠ some .lt := by
  by_cases finite : number.isFinite = true ∧ other.isFinite = true
  · have isNumber : IsNumber number := ⟨finite.1, canonical⟩
    obtain ⟨isSum, reached⟩ := le_add isNumber ⟨finite.2, alsoCanonical⟩ notNegative
    exact compare_stored_ne_lt isNumber fits isSum reached
  · have special : number.isFinite = false ∨ other.isFinite = false := by
      simpa [imp_iff_not_or] using finite
    obtain same | same | same := add_eq_of_special notNegative special
    · rw [same, stored_eq canonical fits]
      exact compare_self_ne_lt number
    · rw [same, stored, unpack_pack_notANumber]
      simp [UnpackedFloat.compare]
    · rw [same, stored, unpack_pack_infinity]
      rcases number with (_ | _) | _ | _ | _ <;> simp [UnpackedFloat.compare, compare_same]

theorem notNegative_unpack {number : Float} (notNegative : 0 ≤ number) :
    NotNegative number.toModel.unpack := by
  have compares : ((0 : Float).toModel.unpack.compare number.toModel.unpack).any (·.isLE) = true :=
    of_decide_eq_true notNegative
  have zero : (0 : Float).toModel.unpack = .zero .positive := rfl
  rw [zero] at compares
  generalize number.toModel.unpack = unpacked at *
  rcases unpacked with (_ | _) | _ | _ | ⟨_ | _, _, _, _⟩ <;> trivial

/-- Adding what is not negative leads to nothing less. -/
theorem not_add_lt {number other : Float} (notNegative : 0 ≤ other) :
    ¬ number + other < number := by
  rw [lt_iff, ← compare_eq_lt_iff]
  exact compare_stored_add_ne_lt (canonical_unpack _) (fits_unpack _) (canonical_unpack _)
    (notNegative_unpack notNegative)

end Gazetteer.Binary64
