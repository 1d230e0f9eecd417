import Gazetteer.Json.Token

/-!
# Words of JSON

A word that has a value ends where white space, a quote or a mark stands, since none of these is
part of a number.  A whole number of 64 bits, with or without sign, reads back from its digits:
they fit, and the first of them is no zero unless it stands alone.
-/

namespace Gazetteer.Json

open Gazetteer.Data (Value)

/-! ## Where a word ends -/

section Ends

variable {chars digits rest : List Char} {c : Char}

theorem endsWord_of_isDigit (digit : c.isDigit = true) : Scan.endsWord c = false := by
  have differs {other : Char} (isOther : other.isDigit = false) : c ≠ other := by
    rintro rfl
    rw [digit] at isOther
    exact absurd isOther (by decide)
  simp only [Scan.endsWord, isSpace, Bool.or_eq_false_iff, decide_eq_false_iff_not]
  refine ⟨⟨⟨⟨⟨?_, ?_⟩, ?_⟩, ?_⟩, ?_⟩, ?_⟩
  all_goals try exact differs (by decide)
  unfold mark?
  split
  all_goals first | rfl | exact absurd digit (by decide)

/-- Characters that belong to one word. -/
def OfWord (chars : List Char) : Prop :=
  ∀ c ∈ chars, Scan.endsWord c = false

theorem ofWord_cons_iff : OfWord (c :: chars) ↔ Scan.endsWord c = false ∧ OfWord chars :=
  List.forall_mem_cons

theorem ofWord_append_iff : OfWord (chars ++ rest) ↔ OfWord chars ∧ OfWord rest :=
  List.forall_mem_append

theorem ofWord_nil : OfWord [] := List.forall_mem_nil _

theorem ofWord_of_digits? (found : digits? chars = some (digits, rest)) (ofRest : OfWord rest) :
    OfWord chars := by
  unfold digits? at found
  dsimp only at found
  split at found
  · simp at found
  · obtain ⟨-, rfl⟩ : chars.takeWhile Char.isDigit = digits ∧
        chars.dropWhile Char.isDigit = rest := by simpa using found
    rw [← List.takeWhile_append_dropWhile (p := Char.isDigit) (l := chars), ofWord_append_iff]
    have digits := List.all_takeWhile (p := Char.isDigit) (l := chars)
    exact ⟨fun c member => endsWord_of_isDigit (List.all_eq_true.mp digits c member), ofRest⟩

theorem ofWord_of_fraction? {fraction : Option (List Char)}
    (found : fraction? chars = some (fraction, rest)) (ofRest : OfWord rest) : OfWord chars := by
  unfold fraction? at found
  split at found
  · rename_i tail
    obtain ⟨⟨digits, left⟩, isDigits, same⟩ := Option.map_eq_some_iff.mp found
    obtain ⟨-, rfl⟩ := Prod.mk.inj same
    exact ofWord_cons_iff.mpr ⟨by decide, ofWord_of_digits? isDigits ofRest⟩
  · obtain ⟨-, rfl⟩ := Prod.mk.inj (Option.some.inj found)
    exact ofRest

theorem ofWord_of_takeSign (ofRest : OfWord (Decimal.takeSign chars).2) : OfWord chars := by
  unfold Decimal.takeSign at ofRest
  split at ofRest
  · exact ofWord_cons_iff.mpr ⟨by decide, ofRest⟩
  · exact ofWord_cons_iff.mpr ⟨by decide, ofRest⟩
  · exact ofRest

theorem ofWord_of_exponent? {exponent : Option Int}
    (found : exponent? chars = some (exponent, rest)) (ofRest : OfWord rest) : OfWord chars := by
  unfold exponent? at found
  split at found
  · rename_i letter tail
    split at found
    · rename_i isLetter
      obtain ⟨⟨digits, left⟩, isDigits, same⟩ := Option.map_eq_some_iff.mp found
      obtain ⟨-, rfl⟩ := Prod.mk.inj same
      refine ofWord_cons_iff.mpr ⟨?_, ofWord_of_takeSign (ofWord_of_digits? isDigits ofRest)⟩
      rcases isLetter with rfl | rfl <;> decide
    · obtain ⟨-, rfl⟩ := Prod.mk.inj (Option.some.inj found)
      exact ofRest
  · exact ofWord_nil

/-- A number ends before white space, a quote or a mark. -/
theorem ofWord_of_number? {value : Value} (found : number? chars = some value) :
    OfWord chars := by
  unfold number? at found
  simp only [Option.bind_eq_bind, Option.bind_eq_some_iff] at found
  obtain ⟨⟨whole, afterWhole⟩, isWhole, found⟩ := found
  split at found
  · simp at found
  · simp only [Option.bind_eq_some_iff] at found
    obtain ⟨⟨fraction, afterFraction⟩, isFraction, ⟨exponent, afterExponent⟩, isExponent, found⟩ :=
      found
    split at found
    · rename_i isEnd
      obtain rfl : afterExponent = [] := List.isEmpty_iff.mp isEnd
      have unsigned := ofWord_of_digits? isWhole
        (ofWord_of_fraction? isFraction (ofWord_of_exponent? isExponent ofWord_nil))
      split at unsigned
      · exact ofWord_cons_iff.mpr ⟨by decide, unsigned⟩
      · exact unsigned
    · simp at found

/-- A word that has a value ends before white space, a quote or a mark. -/
theorem ofWord_of_wordValue? {value : Value} (found : wordValue? chars = some value) :
    OfWord chars := by
  unfold wordValue? at found
  split at found
  case h_4 => exact ofWord_of_number? found
  all_goals simp [ofWord_cons_iff, ofWord_nil, Scan.endsWord, isSpace, mark?]

theorem ne_nil_of_wordValue? {value : Value} (found : wordValue? chars = some value) :
    chars ≠ [] := by
  rintro rfl
  simp [wordValue?, number?, digits?] at found

end Ends

/-! ## Whole numbers -/

section Whole

variable {n : Nat} {digits : List Char}

/-- Only the number zero is written with a zero in front. -/
theorem eq_zero_of_head?_toDigits (zero : (Nat.toDigits 10 n).head? = some '0') : n = 0 := by
  induction n using Nat.strongRecOn with
  | ind n ih =>
      by_cases small : n < 10
      · rw [Nat.toDigits_of_lt_base small, List.head?_cons, Option.some.injEq] at zero
        have onlyZero : ∀ m < 10, m.digitChar = '0' → m = 0 := by decide
        exact onlyZero n small zero
      · have split := Nat.toDigits_of_base_le (b := 10) (by decide) (Nat.le_of_not_lt small)
        rw [split, List.head?_append, Option.or_of_isSome
          (List.isSome_head?.mpr Nat.toDigits_ne_nil)] at zero
        have := ih (n / 10) (by omega) zero
        omega

theorem le_ofDigitChars (digits : List Char) (value : Nat) :
    value ≤ Nat.ofDigitChars 10 digits value := by
  induction digits generalizing value with
  | nil => exact Nat.le_refl _
  | cons c rest ih =>
      rw [Nat.ofDigitChars_cons]
      have := ih (10 * value + (c.toNat - '0'.toNat))
      omega

/-- Digits are taken to the last as long as the number fits 64 bits. -/
theorem appendDigits_eq (digits : List Char) (value : Nat)
    (fits : Nat.ofDigitChars 10 digits value < UInt64.size) :
    appendDigits value digits = (Nat.ofDigitChars 10 digits value, []) := by
  induction digits generalizing value with
  | nil => rfl
  | cons c rest ih =>
      rw [Nat.ofDigitChars_cons] at fits ⊢
      have next := Nat.lt_of_le_of_lt (le_ofDigitChars rest _) fits
      rw [appendDigits, if_pos next, ih _ fits]

theorem digits?_toDigits : digits? (Nat.toDigits 10 n) = some (Nat.toDigits 10 n, []) := by
  have digit : ∀ c ∈ Nat.toDigits 10 n, c.isDigit = true := fun c member =>
    Nat.isDigit_of_mem_toDigits (by decide) (by decide) member
  have taken : (Nat.toDigits 10 n ++ []).takeWhile Char.isDigit = Nat.toDigits 10 n ++ [] :=
    List.takeWhile_append_of_pos digit
  have left : (Nat.toDigits 10 n ++ []).dropWhile Char.isDigit = [] :=
    List.dropWhile_append_of_pos digit
  rw [List.append_nil] at taken left
  simp [digits?, taken, left]

theorem exists_toDigits_eq_cons (n : Nat) :
    ∃ c rest, Nat.toDigits 10 n = c :: rest ∧ c.isDigit = true := by
  obtain ⟨c, rest, written⟩ := List.exists_cons_of_ne_nil (Nat.toDigits_ne_nil (b := 10) (n := n))
  exact ⟨c, rest, written, Nat.isDigit_of_mem_toDigits (b := 10) (n := n) (by decide) (by decide)
    (written ▸ List.mem_cons_self)⟩

/-- Digits without a sign or with one make a whole number, or a real one where it is too
large. -/
theorem number?_toDigits (n : Nat) :
    number? (Nat.toDigits 10 n) = some (numberValue false (Nat.toDigits 10 n) none none) ∧
      number? ('-' :: Nat.toDigits 10 n) =
        some (numberValue true (Nat.toDigits 10 n) none none) := by
  obtain ⟨c, rest, written, digit⟩ := exists_toDigits_eq_cons n
  have unsigned : c ≠ '-' := by
    rintro rfl
    exact absurd digit (by decide)
  have noZero : c = '0' → rest = [] := by
    rintro rfl
    have isZero := eq_zero_of_head?_toDigits (n := n) (by rw [written, List.head?_cons])
    rw [isZero, Nat.toDigits_zero] at written
    exact (List.cons.inj written).2.symm
  have isWhole := digits?_toDigits (n := n)
  rw [written] at isWhole ⊢
  constructor
  · simpa [number?, isWhole, unsigned, fraction?, exponent?] using noZero
  · simpa [number?, isWhole, fraction?, exponent?] using noZero

theorem wordValue?_eq_number? {c : Char} {rest : List Char} (first : c.isDigit = true ∨ c = '-') :
    wordValue? (c :: rest) = number? (c :: rest) := by
  unfold wordValue?
  split
  case h_4 => rfl
  all_goals
    rename_i same
    rw [(List.cons.inj same).1] at first
    exact absurd first (by decide)

theorem numberValue_of_wholeValue? {negative : Bool} {value : Int}
    (whole : wholeValue? negative digits = some value) :
    numberValue negative digits none none = .integer value := by
  simp [numberValue, whole]

theorem wholeValue?_of_fits (fits : n < UInt64.size) :
    wholeValue? false (Nat.toDigits 10 n) = some (n : Int) := by
  have taken := appendDigits_eq (Nat.toDigits 10 n) 0 (by rwa [Nat.ofDigitChars_ten_toDigits])
  rw [Nat.ofDigitChars_ten_toDigits] at taken
  rw [wholeValue?, taken]
  rfl

theorem wholeValue?_of_negative (positive : 0 < n) (fits : Int64.minValue.toInt ≤ -(n : Int)) :
    wholeValue? true (Nat.toDigits 10 n) = some (-(n : Int)) := by
  have least : Int64.minValue.toInt = -9223372036854775808 := rfl
  have greatest : UInt64.size = 18446744073709551616 := rfl
  have small : n < UInt64.size := by omega
  have taken := appendDigits_eq (Nat.toDigits 10 n) 0 (by rwa [Nat.ofDigitChars_ten_toDigits])
  have bounds : n ≠ 0 ∧ Int64.minValue.toInt ≤ -(n : Int) := ⟨Nat.ne_of_gt positive, fits⟩
  rw [Nat.ofDigitChars_ten_toDigits] at taken
  rw [wholeValue?, taken]
  exact if_pos bounds

/-- A whole number of 64 bits, with a sign or without, reads back from its text. -/
theorem wordValue?_toString {n : Int} (low : Int64.minValue.toInt ≤ n) (high : n < UInt64.size) :
    wordValue? (toString n).toList = some (.integer n) := by
  cases n with
  | ofNat n =>
      have text : (toString (Int.ofNat n)).toList = Nat.toDigits 10 n := Nat.toList_repr
      have fits : n < UInt64.size := Int.ofNat_lt.mp high
      obtain ⟨c, rest, written, digit⟩ := exists_toDigits_eq_cons n
      rw [text, written, wordValue?_eq_number? (.inl digit), ← written, (number?_toDigits n).1,
        numberValue_of_wholeValue? (wholeValue?_of_fits fits)]
      rfl
  | negSucc n =>
      have text : (toString (Int.negSucc n)).toList = '-' :: Nat.toDigits 10 (n + 1) := by
        change ("-" ++ (n + 1).repr).toList = _
        rw [String.toList_append, Nat.toList_repr]
        rfl
      rw [text, wordValue?_eq_number? (.inr rfl), (number?_toDigits (n + 1)).2,
        numberValue_of_wholeValue? (wholeValue?_of_negative n.succ_pos low)]
      rfl

end Whole

end Gazetteer.Json
