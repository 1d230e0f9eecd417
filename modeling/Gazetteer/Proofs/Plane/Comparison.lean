import Gazetteer.Plane.Binary64
import Mathlib.Data.Int.CharZero
import Mathlib.Data.Int.Order.Basic
import Mathlib.Data.Prod.Lex

/-!
# Numbers that may be undefined

Binary64 has numbers that compare with nothing, so its order is not linear, nor even total.
What is left is enough to speak of a greatest number: numbers that compare with anything
compare like those of a linear order, where two that do not compare stand level.
-/

namespace Gazetteer

/-- An order in which a number that compares with anything at all stands before or behind
each of two numbers that are apart. -/
class FloatingOrder (δ : Type) [LT δ] : Prop where
  asymm : ∀ {first second : δ}, first < second → ¬ second < first
  apart : ∀ {low high value other : δ}, low < high → value < other ∨ other < value →
    low < value ∨ value < high

namespace FloatingOrder

variable {δ : Type} [LT δ] [FloatingOrder δ] {first second third : δ}

theorem irrefl (value : δ) : ¬ value < value :=
  fun less => asymm less less

theorem trans (less : first < second) (more : second < third) : first < third := by
  rcases apart less (Or.inr more) with isLess | isLess
  · exact isLess
  · exact absurd isLess (asymm more)

/-- What the greater of two numbers is less than, both are less than. -/
theorem greater_lt_iff [DecidableLT δ] (compares : second < third ∨ third < second)
    {value : δ} :
    (if first < second then second else first) < value ↔ first < value ∧ second < value := by
  split
  · rename_i less
    exact ⟨fun below => ⟨trans less below, below⟩, And.right⟩
  · rename_i notLess
    exact ⟨fun below => ⟨below, (apart below compares).resolve_left notLess⟩, And.left⟩

end FloatingOrder

instance (priority := low) {δ : Type} [LinearOrder δ] : FloatingOrder δ where
  asymm := lt_asymm
  apart less _ := (lt_or_ge _ _).imp_right fun reaches => reaches.trans_lt less

/-! ## Binary64 -/

namespace Binary64

open Float.Model

/-- The place of a number in a linear order: first the infinities and the signs, then the
exponents, then the mantissas; undefined numbers have none. -/
def standing? : UnpackedFloat → Option (Int ×ₗ Int ×ₗ Int)
  | .notANumber => none
  | .infinity .negative => some (toLex (-2, toLex (0, 0)))
  | .finite .negative mantissa exponent _ => some (toLex (-1, toLex (-exponent, -mantissa)))
  | .zero _ => some (toLex (0, toLex (0, 0)))
  | .finite .positive mantissa exponent _ => some (toLex (1, toLex (exponent, mantissa)))
  | .infinity .positive => some (toLex (2, toLex (0, 0)))

theorem compare_negative_positive :
    compare UnpackedFloat.Sign.negative UnpackedFloat.Sign.positive = .lt :=
  rfl

theorem compare_eq_lt_iff {first second : UnpackedFloat} :
    first.compare second = some .lt ↔
      ∃ low ∈ standing? first, ∃ high ∈ standing? second, low < high := by
  rcases first with (_ | _) | _ | (_ | _) | ⟨_ | _, mantissa, exponent, _⟩ <;>
    rcases second with (_ | _) | _ | (_ | _) | ⟨_ | _, rest, other, _⟩ <;>
      dsimp only [UnpackedFloat.compare, standing?] <;>
        simp [Prod.Lex.toLex_lt_toLex, Ordering.then_eq_lt, Ordering.then_eq_gt,
          compare_lt_iff_lt, compare_gt_iff_gt, compare_negative_positive]

/-- One number is less than another exactly when both have a place and it comes first. -/
theorem lt_iff {first second : Float} :
    first < second ↔
      ∃ low ∈ standing? first.toModel.unpack, ∃ high ∈ standing? second.toModel.unpack,
        low < high := by
  rw [← compare_eq_lt_iff]
  change decide (first.toModel < second.toModel) = true ↔ _
  rw [decide_eq_true_iff]
  exact beq_iff_eq

instance : FloatingOrder Float where
  asymm less more := by
    obtain ⟨low, isLow, high, isHigh, less⟩ := lt_iff.mp less
    obtain ⟨high', isHigh', low', isLow', more⟩ := lt_iff.mp more
    obtain rfl := Option.mem_unique isLow isLow'
    obtain rfl := Option.mem_unique isHigh isHigh'
    exact lt_asymm less more
  apart less compares := by
    obtain ⟨low, isLow, high, isHigh, less⟩ := lt_iff.mp less
    obtain ⟨value, isValue⟩ : ∃ value, value ∈ standing? _ := by
      rcases compares with below | above
      · obtain ⟨value, isValue, _⟩ := lt_iff.mp below
        exact ⟨value, isValue⟩
      · obtain ⟨_, _, value, isValue, _⟩ := lt_iff.mp above
        exact ⟨value, isValue⟩
    rcases lt_or_ge low value with below | reaches
    · exact Or.inl (lt_iff.mpr ⟨low, isLow, value, isValue, below⟩)
    · exact Or.inr (lt_iff.mpr ⟨value, isValue, high, isHigh, reaches.trans_lt less⟩)

/-! ### Equality -/

theorem compare_same (sign : UnpackedFloat.Sign) : compare sign sign = .eq := by
  cases sign <;> rfl

theorem compare_eq_eq_iff {first second : UnpackedFloat} :
    first.compare second = some .eq ↔
      ∃ place ∈ standing? second, place ∈ standing? first := by
  rcases first with (_ | _) | _ | (_ | _) | ⟨_ | _, mantissa, exponent, _⟩ <;>
    rcases second with (_ | _) | _ | (_ | _) | ⟨_ | _, rest, other, _⟩ <;>
      dsimp only [UnpackedFloat.compare, standing?] <;>
        simp [Ordering.then_eq_eq, compare_negative_positive, compare_same]

/-- Two numbers are equal exactly when both have one place; the signs of zero share theirs. -/
theorem beq_iff {first second : Float} :
    (first == second) = true ↔
      ∃ place ∈ standing? second.toModel.unpack, place ∈ standing? first.toModel.unpack := by
  rw [← compare_eq_eq_iff]
  change (first.toModel.unpack.compare second.toModel.unpack == some .eq) = true ↔ _
  exact beq_iff_eq

theorem le_iff {first second : Float} :
    first ≤ second ↔
      ∃ low ∈ standing? first.toModel.unpack, ∃ high ∈ standing? second.toModel.unpack,
        low ≤ high := by
  have either : first ≤ second ↔ first.toModel.unpack.compare second.toModel.unpack = some .lt ∨
      first.toModel.unpack.compare second.toModel.unpack = some .eq := by
    change decide (first.toModel ≤ second.toModel) = true ↔ _
    rw [decide_eq_true_iff]
    change (first.toModel.unpack.compare second.toModel.unpack).any (·.isLE) = true ↔ _
    cases first.toModel.unpack.compare second.toModel.unpack with
    | none => simp
    | some ordering => cases ordering <;> simp
  rw [either, compare_eq_lt_iff, compare_eq_eq_iff]
  constructor
  · rintro (⟨low, isLow, high, isHigh, less⟩ | ⟨place, isPlace, also⟩)
    · exact ⟨low, isLow, high, isHigh, less.le⟩
    · exact ⟨place, also, place, isPlace, le_rfl⟩
  · rintro ⟨low, isLow, high, isHigh, notMore⟩
    rcases notMore.lt_or_eq with less | rfl
    · exact Or.inl ⟨low, isLow, high, isHigh, less⟩
    · exact Or.inr ⟨low, isHigh, isLow⟩

instance partialEquivBEq : PartialEquivBEq Float where
  symm equal := by
    obtain ⟨place, isPlace, also⟩ := beq_iff.mp equal
    exact beq_iff.mpr ⟨place, also, isPlace⟩
  trans equal again := by
    obtain ⟨place, isPlace, also⟩ := beq_iff.mp equal
    obtain ⟨other, isOther, more⟩ := beq_iff.mp again
    obtain rfl := Option.mem_unique isPlace more
    exact beq_iff.mpr ⟨place, isOther, also⟩

/-! ### Undefined numbers -/

theorem isNaN_eq_true_iff {value : Float} :
    value.isNaN = true ↔ standing? value.toModel.unpack = none := by
  change value.toModel.unpack.isNaN = true ↔ _
  rcases value.toModel.unpack with (_ | _) | _ | (_ | _) | ⟨_ | _, _, _, _⟩
  case notANumber => exact iff_of_true rfl rfl
  all_goals exact iff_of_false Bool.false_ne_true (Option.some_ne_none _)

theorem isNaN_eq_false_iff {value : Float} :
    value.isNaN = false ↔ ∃ place, place ∈ standing? value.toModel.unpack := by
  rw [← Bool.not_eq_true, isNaN_eq_true_iff]
  exact Option.ne_none_iff_exists'

theorem isNaN_eq_false_of_lt {first second : Float} (less : first < second) :
    first.isNaN = false ∧ second.isNaN = false := by
  obtain ⟨low, isLow, high, isHigh, _⟩ := lt_iff.mp less
  exact ⟨isNaN_eq_false_iff.mpr ⟨low, isLow⟩, isNaN_eq_false_iff.mpr ⟨high, isHigh⟩⟩

theorem isNaN_eq_false_of_beq {first second : Float} (equal : (first == second) = true) :
    first.isNaN = false := by
  obtain ⟨place, _, isPlace⟩ := beq_iff.mp equal
  exact isNaN_eq_false_iff.mpr ⟨place, isPlace⟩

theorem not_lt_of_isNaN {first : Float} (undefined : first.isNaN = true) (second : Float) :
    ¬ first < second :=
  fun less => Bool.eq_false_iff.mp (isNaN_eq_false_of_lt less).1 undefined

/-- Two defined numbers, neither of which is less than the other, are equal. -/
theorem beq_of_not_lt {first second : Float} (isDefined : first.isNaN = false)
    (alsoDefined : second.isNaN = false) (notLess : ¬ first < second)
    (notMore : ¬ second < first) : (first == second) = true := by
  obtain ⟨low, isLow⟩ := isNaN_eq_false_iff.mp isDefined
  obtain ⟨high, isHigh⟩ := isNaN_eq_false_iff.mp alsoDefined
  have same : low = high := by
    rcases lt_trichotomy low high with less | same | more
    · exact absurd (lt_iff.mpr ⟨low, isLow, high, isHigh, less⟩) notLess
    · exact same
    · exact absurd (lt_iff.mpr ⟨high, isHigh, low, isLow, more⟩) notMore
  exact beq_iff.mpr ⟨high, isHigh, same ▸ isLow⟩

end Binary64

/-- Vertices are equal when their parts are, so that what holds of the equality of numbers
holds of theirs. -/
instance {K : Type} [BEq K] [PartialEquivBEq K] : PartialEquivBEq (Coord K) where
  symm := by
    rintro ⟨x, y⟩ ⟨x', y'⟩ equal
    obtain ⟨sameX, sameY⟩ := Bool.and_eq_true_iff.mp equal
    exact Bool.and_eq_true_iff.mpr ⟨BEq.symm sameX, BEq.symm sameY⟩
  trans := by
    rintro ⟨x, y⟩ ⟨x', y'⟩ ⟨x'', y''⟩ equal again
    obtain ⟨sameX, sameY⟩ := Bool.and_eq_true_iff.mp equal
    obtain ⟨alsoX, alsoY⟩ := Bool.and_eq_true_iff.mp again
    exact Bool.and_eq_true_iff.mpr ⟨BEq.trans sameX alsoX, BEq.trans sameY alsoY⟩

end Gazetteer
