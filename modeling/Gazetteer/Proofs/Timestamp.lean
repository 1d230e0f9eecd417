import Gazetteer.Proofs.Calendar
import Gazetteer.Proofs.Decimal

/-!
# Moments that are written and read

A moment of a year that dates are kept for reads back from its own text.  The text has a fixed
width but for its year and its fraction: a year beyond four digits has a sign in front and ends
where the dash begins, and a fraction ends where the letter of universal time stands.  A leap
second is written as the sixtieth of its minute, and read as such.
-/

namespace Gazetteer.Timestamp

/-- Moments that can be written and read: the year is one that dates are kept for, and there are
nanoseconds beyond the second only at the end of a minute. -/
structure IsKnown (moment : Timestamp) : Prop where
  year : isKnownYear (dateOfDays (moment.seconds / 86400)).1 = true
  nanoseconds : moment.nanoseconds < 1000000000 ∨
    moment.nanoseconds < 2000000000 ∧ moment.seconds % 60 = 59

/-! ## Single parts -/

section Parts

variable {least greatest value limit : Nat} {c : Char} {digits rest : List Char}

theorem skipBlank_run (unblank : Text.isBlankChar c = false) :
    skipBlank.run (c :: rest) = some ((), c :: rest) := by
  change some ((), (c :: rest).dropWhile Text.isBlankChar) = some ((), c :: rest)
  rw [List.dropWhile_cons_of_neg (by simp [unblank])]

theorem expect_run : (expect c).run (c :: rest) = some ((), rest) :=
  if_pos rfl

/-- Where a number of digits is fixed, the next one may follow at once. -/
theorem digits_some_run (rest : List Char) (areDigits : ∀ c ∈ digits, c.isDigit = true)
    (some : digits ≠ []) :
    (Timestamp.digits (Option.some digits.length)).run (digits ++ rest) =
      Option.some (digits, rest) := by
  change (if List.isEmpty _ then none else Option.some (_, _)) = _
  simp [List.takeWhile_append_of_pos areDigits, some]

theorem digits_none_run (rest : List Char) (areDigits : ∀ c ∈ digits, c.isDigit = true)
    (some : digits ≠ []) (ends : c.isDigit = false) :
    (Timestamp.digits none).run (digits ++ c :: rest) = Option.some (digits, c :: rest) := by
  change (if List.isEmpty _ then none else Option.some (_, _)) = _
  simp [List.takeWhile_append_of_pos areDigits, some, ends]

theorem isBlankChar_of_isDigit (digit : c.isDigit = true) : Text.isBlankChar c = false := by
  rw [Char.isDigit_iff_toNat, show '0'.toNat = 48 from rfl, show '9'.toNat = 57 from rfl] at digit
  simp only [Text.isBlankChar, Text.blankRanges, List.any_cons, List.any_nil, Bool.or_false,
    Bool.or_eq_false_iff, Bool.and_eq_false_imp, decide_eq_true_eq, decide_eq_false_iff_not]
  omega

/-- A number without a blank in front is not touched by passing over blanks. -/
theorem skipBlank_padded_run {width : Nat} :
    skipBlank.run ((Decimal.padded width value).toList ++ rest) =
      some ((), (Decimal.padded width value).toList ++ rest) := by
  obtain ⟨c, tail, written, digit⟩ := Decimal.exists_padded_eq_cons width value
  rw [written]
  exact skipBlank_run (isBlankChar_of_isDigit digit)

theorem digits_padded_run {width : Nat} (rest : List Char) (positive : 0 < width)
    (fits : value < Nat.pow 10 width) :
    (Timestamp.digits (some width)).run ((Decimal.padded width value).toList ++ rest) =
      some ((Decimal.padded width value).toList, rest) := by
  have run := digits_some_run rest (Decimal.isDigit_padded width value)
    (Decimal.padded_ne_nil width value)
  rwa [Decimal.length_padded positive fits] at run

theorem twoDigits_run (low : least ≤ value) (high : value ≤ greatest) (fits : greatest < 100) :
    (twoDigits least greatest).run ((Decimal.padded 2 value).toList ++ rest) =
      some (value, rest) := by
  have short : value < Nat.pow 10 2 := Nat.lt_of_le_of_lt high fits
  rw [twoDigits, StateT.run_bind, skipBlank_padded_run]
  simp only [Option.bind_eq_bind, Option.bind_some, StateT.run_bind]
  rw [digits_padded_run rest (by decide) short]
  simp [low, high]

end Parts

/-! ## Years and dates -/

section Dates

variable {rest : List Char}

theorem year_run_of_isDigit {c : Char} (digit : c.isDigit = true) :
    Timestamp.year.run (c :: rest) =
      ((digits (some 4)).run (c :: rest)).map fun taken =>
        ((Decimal.digitsValue taken.1 : Int), taken.2) := by
  unfold Timestamp.year
  rw [StateT.run_bind, skipBlank_run (isBlankChar_of_isDigit digit)]
  simp only [Option.bind_eq_bind, Option.bind_some, StateT.run_bind, StateT.run_get,
    Option.pure_def, List.head?_cons]
  split
  · rename_i isDash
    rw [Option.some.inj isDash] at digit
    exact absurd digit (by decide)
  · rename_i isPlus
    rw [Option.some.inj isPlus] at digit
    exact absurd digit (by decide)
  · simp [Option.map_eq_bind]

theorem year_run_minus :
    Timestamp.year.run ('-' :: rest) =
      ((digits none).run rest).map fun taken =>
        (-(Decimal.digitsValue taken.1 : Int), taken.2) := by
  unfold Timestamp.year
  rw [StateT.run_bind, skipBlank_run (by decide)]
  simp [expect_run, Option.map_eq_bind]

theorem year_run_plus :
    Timestamp.year.run ('+' :: rest) =
      ((digits none).run rest).map fun taken =>
        ((Decimal.digitsValue taken.1 : Int), taken.2) := by
  unfold Timestamp.year
  rw [StateT.run_bind, skipBlank_run (by decide)]
  simp [expect_run, Option.map_eq_bind]

/-- A year reads back up to the dash behind it. -/
theorem year_run {year : Int} :
    Timestamp.year.run ((yearText year).toList ++ '-' :: rest) = some (year, '-' :: rest) := by
  unfold yearText
  split
  · rename_i fourDigits
    obtain ⟨c, tail, written, digit⟩ := Decimal.exists_padded_eq_cons 4 year.toNat
    have run := digits_padded_run ('-' :: rest) (show 0 < 4 by decide)
      (show year.toNat < 10000 by omega)
    have value : (Decimal.digitsValue (c :: tail) : Int) = year := by
      rw [← written, Decimal.digitsValue_padded]
      omega
    rw [written, List.cons_append] at run ⊢
    rw [year_run_of_isDigit digit, run, Option.map_some, value]
  · have run := digits_none_run rest (Decimal.isDigit_padded 4 year.natAbs)
      (Decimal.padded_ne_nil 4 year.natAbs) (show '-'.isDigit = false from rfl)
    split
    · rename_i negative
      rw [String.toList_append, show "-".toList = ['-'] from rfl, List.singleton_append,
        List.cons_append, year_run_minus, run, Option.map_some, Decimal.digitsValue_padded]
      simp only [Option.some.injEq, Prod.mk.injEq, and_true]
      omega
    · rename_i positive
      rw [String.toList_append, show "+".toList = ['+'] from rfl, List.singleton_append,
        List.cons_append, year_run_plus, run, Option.map_some, Decimal.digitsValue_padded]
      simp only [Option.some.injEq, Prod.mk.injEq, and_true]
      omega

/-- The date of a number of days reads back if dates are kept for its year. -/
theorem date_run {days year : Int} {month day : Nat} (rest : List Char)
    (isDate : dateOfDays days = (year, month, day)) (known : isKnownYear year = true) :
    date.run ((yearText year).toList ++ '-' :: ((Decimal.padded 2 month).toList ++
      '-' :: ((Decimal.padded 2 day).toList ++ rest))) = some (days, rest) := by
  obtain ⟨⟨monthLow, monthHigh⟩, ⟨dayLow, dayHigh⟩, back⟩ := daysOfDate_dateOfDays days isDate
  have dayGreatest : day ≤ 31 := by
    have greatest : daysInMonth year month ≤ 31 := by
      unfold daysInMonth
      split <;> split <;> decide
    omega
  unfold date
  rw [StateT.run_bind, year_run]
  simp only [Option.bind_eq_bind, Option.bind_some, StateT.run_bind]
  rw [skipBlank_run (by decide), Option.bind_some, expect_run, Option.bind_some,
    twoDigits_run monthLow monthHigh (by decide), Option.bind_some, skipBlank_run (by decide),
    Option.bind_some, expect_run, Option.bind_some, twoDigits_run dayLow dayGreatest (by decide),
    Option.bind_some]
  simp [known, dayHigh, back]

end Dates

/-! ## Times of day -/

section Times

variable {rest : List Char}

theorem fraction_padded_run {width value : Nat} (positive : 0 < width) (short : width ≤ 9)
    (fits : value < Nat.pow 10 width) :
    fraction.run ('.' :: ((Decimal.padded width value).toList ++ 'Z' :: rest)) =
      some (value * Nat.pow 10 (9 - width), 'Z' :: rest) := by
  have run := digits_none_run rest (Decimal.isDigit_padded width value)
    (Decimal.padded_ne_nil width value) (show 'Z'.isDigit = false from rfl)
  have length := Decimal.length_padded positive fits
  have kept : (Decimal.padded width value).toList.take 9 = (Decimal.padded width value).toList :=
    List.take_of_length_le (by omega)
  unfold fraction
  simp only [StateT.run_bind, StateT.run_get, Option.pure_def, Option.bind_eq_bind,
    Option.bind_some, List.head?_cons]
  simp [expect_run, run, kept, length, Nat.min_eq_right short]

/-- A fraction reads back up to the letter behind it. -/
theorem fraction_run {nanoseconds : Nat} (fits : nanoseconds < 1000000000) :
    fraction.run ((fractionText nanoseconds).toList ++ 'Z' :: rest) =
      some (nanoseconds, 'Z' :: rest) := by
  have point {width value : Nat} :
      ("." ++ Decimal.padded width value).toList ++ 'Z' :: rest =
        '.' :: ((Decimal.padded width value).toList ++ 'Z' :: rest) := by
    rw [String.toList_append]
    rfl
  unfold fractionText
  split
  · rename_i none
    rw [none]
    rfl
  · split
    · rename_i thousands
      have fits : nanoseconds / 1000000 < 1000 := by omega
      rw [point, fraction_padded_run (by decide) (by decide) fits,
        show Nat.pow 10 (9 - 3) = 1000000 from rfl,
        Nat.div_mul_cancel (Nat.dvd_of_mod_eq_zero thousands)]
    · split
      · rename_i thousands
        have fits : nanoseconds / 1000 < 1000000 := by omega
        rw [point, fraction_padded_run (by decide) (by decide) fits,
          show Nat.pow 10 (9 - 6) = 1000 from rfl,
          Nat.div_mul_cancel (Nat.dvd_of_mod_eq_zero thousands)]
      · rw [point, fraction_padded_run (by decide) (by decide) fits]
        simp

/-- A time of day reads back.  Of a leap second the sixtieth of the minute is written. -/
theorem time_run {second nanoseconds leap : Nat} (rest : List Char) (inDay : second < 86400)
    (isLeap : leap = if 1000000000 ≤ nanoseconds then 1 else 0)
    (bound : nanoseconds < 1000000000 ∨ nanoseconds < 2000000000 ∧ second % 60 = 59) :
    time.run ((Decimal.padded 2 (second / 3600)).toList ++
      ':' :: ((Decimal.padded 2 (second / 60 % 60)).toList ++
      ':' :: ((Decimal.padded 2 (second % 60 + leap)).toList ++
      ((fractionText (nanoseconds - leap * 1000000000)).toList ++ 'Z' :: rest)))) =
      some ((second, nanoseconds), 'Z' :: rest) := by
  have lastSecond : second % 60 + leap ≤ 60 := by
    split at isLeap <;> omega
  have fraction : nanoseconds - leap * 1000000000 < 1000000000 := by
    split at isLeap <;> omega
  unfold time
  simp only [StateT.run_bind, Option.bind_eq_bind]
  rw [twoDigits_run (Nat.zero_le _) (by omega) (by decide), Option.bind_some,
    skipBlank_run (by decide), Option.bind_some, expect_run, Option.bind_some,
    twoDigits_run (Nat.zero_le _) (by omega) (by decide), Option.bind_some,
    skipBlank_run (by decide), Option.bind_some, expect_run, Option.bind_some,
    twoDigits_run (Nat.zero_le _) lastSecond (by decide), Option.bind_some,
    fraction_run fraction, Option.bind_some, skipBlank_run (by decide), Option.bind_some]
  dsimp only
  -- The sixtieth second is written just if there are nanoseconds beyond the second, and then the
  -- second is the last one of its minute.
  split
  · simp only [StateT.run_pure, Option.pure_def, Option.some.injEq, Prod.mk.injEq, and_true]
    split at isLeap <;> omega
  · simp only [StateT.run_pure, Option.pure_def, Option.some.injEq, Prod.mk.injEq, and_true]
    split at isLeap <;> omega

end Times

/-! ## Moments -/

theorem offset_run : offset.run ['Z'] = some (0, []) := rfl

theorem skipBlank_nil_run : skipBlank.run [] = some ((), []) := rfl

/-- A date and a time of day in universal time make a moment. -/
theorem moment_run {chars timeChars : List Char} {days : Int} {second nanoseconds : Nat}
    (dateRun : date.run chars = some (days, 'T' :: timeChars))
    (timeRun : time.run timeChars = some ((second, nanoseconds), ['Z']))
    (inDay : second < 86400) (known : isKnownYear (dateOfDays days).1 = true) :
    moment.run chars = some (⟨days * 86400 + second, nanoseconds⟩, []) := by
  have sameDay : (days * 86400 + second) / 86400 = days := by omega
  unfold Timestamp.moment
  simp only [StateT.run_bind, Option.bind_eq_bind, dateRun, Option.bind_some, StateT.run_get,
    Option.pure_def]
  simp [timeRun, offset_run, skipBlank_nil_run, sameDay, known]

/-- A moment reads back from its own text. -/
theorem read?_write {moment : Timestamp} (known : moment.IsKnown) :
    read? moment.write = some moment := by
  obtain ⟨seconds, nanoseconds⟩ := moment
  obtain ⟨knownYear, bound⟩ := known
  obtain ⟨⟨year, month, day⟩, isDate⟩ : ∃ date, dateOfDays (seconds / 86400) = date := ⟨_, rfl⟩
  obtain ⟨second, isSecond⟩ : ∃ second, (seconds % 86400).toNat = second := ⟨_, rfl⟩
  obtain ⟨leap, isLeap⟩ : ∃ leap, leap = if 1000000000 ≤ nanoseconds then 1 else 0 := ⟨_, rfl⟩
  dsimp only at knownYear bound
  have known : isKnownYear year = true := by
    rw [isDate] at knownYear
    exact knownYear
  have whole : seconds / 86400 * 86400 + (second : Int) = seconds := by omega
  have inDay : second < 86400 := by omega
  have timeRun := time_run [] inDay isLeap (bound.imp_right fun late => ⟨late.1, by omega⟩)
  have run := moment_run (date_run _ isDate known) timeRun inDay knownYear
  rw [whole] at run
  -- The readers take the parts of the text one by one, so that it has to be grouped to the right.
  have text : (write ⟨seconds, nanoseconds⟩).toList =
      (yearText year).toList ++ '-' :: ((Decimal.padded 2 month).toList ++
        '-' :: ((Decimal.padded 2 day).toList ++
        'T' :: ((Decimal.padded 2 (second / 3600)).toList ++
        ':' :: ((Decimal.padded 2 (second / 60 % 60)).toList ++
        ':' :: ((Decimal.padded 2 (second % 60 + leap)).toList ++
        ((fractionText (nanoseconds - leap * 1000000000)).toList ++ ['Z'])))))) := by
    unfold write
    rw [isDate, isSecond, ← isLeap]
    simp only [String.toList_append, show "-".toList = ['-'] from rfl,
      show "T".toList = ['T'] from rfl, show ":".toList = [':'] from rfl,
      show "Z".toList = ['Z'] from rfl, List.append_assoc, List.cons_append, List.nil_append]
  rw [read?, text, run]

end Gazetteer.Timestamp
