import Gazetteer.Timestamp

/-!
# Dates and numbers of days

Every number of days is that of one date: the date has a month of twelve and a day that the
month has, and counts back to the number.  Years are counted from March here, so that an era of
four hundred years ends with a leap day, and so does a year of the era that has one.
-/

namespace Gazetteer.Timestamp

/-! ## Years of an era -/

section Years

variable {dayOfEra yearOfEra dayOfYear : Int}

/-- A day of an era falls into one of its years.  Only a year with a leap day at its end, in the
February of the year that follows by the calendar, has a day of the number 365. -/
theorem dayOfYear_bounds (low : 0 ≤ dayOfEra) (high : dayOfEra ≤ 146096)
    (isYear : yearOfEra =
      (dayOfEra - dayOfEra / 1460 + dayOfEra / 36524 - dayOfEra / 146096) / 365)
    (isDay : dayOfYear = dayOfEra - (365 * yearOfEra + yearOfEra / 4 - yearOfEra / 100)) :
    (0 ≤ yearOfEra ∧ yearOfEra ≤ 399) ∧ 0 ≤ dayOfYear ∧ dayOfYear ≤ 365 ∧
      (dayOfYear = 365 → (yearOfEra + 1) % 4 = 0 ∧
        ((yearOfEra + 1) % 100 ≠ 0 ∨ (yearOfEra + 1) % 400 = 0)) := by
  by_cases isLast : dayOfEra = 146096
  · subst isLast
    omega
  · have noLeap : dayOfEra / 146096 = 0 := by omega
    have century : yearOfEra / 100 = dayOfEra / 36524 := by omega
    rw [century] at isDay
    rw [noLeap] at isYear
    -- The leap days before a day are those of the whole years before it, or one more on the
    -- leap day itself.
    have leapDays : dayOfEra / 1460 = yearOfEra / 4 ∨ dayOfEra / 1460 = yearOfEra / 4 + 1 := by
      omega
    rcases leapDays with same | more
    · rw [same] at isYear
      omega
    · rw [more] at isYear
      refine ⟨by omega, by omega, by omega, ?_⟩
      intro isLeapDay
      have fourth : yearOfEra % 4 = 3 := by omega
      exact ⟨by omega, Or.inl (by omega)⟩

end Years

/-! ## Months of a year -/

theorem isLeapYear_iff {year : Int} :
    isLeapYear year = true ↔ year % 4 = 0 ∧ (year % 100 ≠ 0 ∨ year % 400 = 0) := by
  simp [isLeapYear]

/-- A day of a year falls into one of its months, which has as many days. -/
theorem day_bounds {year dayOfYear monthFromMarch month : Int} (low : 0 ≤ dayOfYear)
    (high : dayOfYear ≤ 365) (leap : dayOfYear = 365 → isLeapYear year = true)
    (isFromMarch : monthFromMarch = (5 * dayOfYear + 2) / 153)
    (isMonth : month = if monthFromMarch < 10 then monthFromMarch + 3 else monthFromMarch - 9) :
    (1 ≤ month ∧ month ≤ 12) ∧ 1 ≤ dayOfYear - (153 * monthFromMarch + 2) / 5 + 1 ∧
      dayOfYear - (153 * monthFromMarch + 2) / 5 + 1 ≤ daysInMonth year month.toNat := by
  have bounds : 0 ≤ monthFromMarch ∧ monthFromMarch ≤ 11 := by omega
  refine ⟨by split at isMonth <;> omega, by omega, ?_⟩
  unfold daysInMonth
  split at isMonth
  all_goals
    split
    · split
      · omega
      · rename_i common
        have short : dayOfYear ≠ 365 := fun last => common (leap last)
        omega
    · split
      · omega
      · omega

/-! ## Dates -/

/-- The date of a number of days has a month of twelve and a day of that month, and it counts
back to the number of days. -/
theorem daysOfDate_dateOfDays (days : Int) {year : Int} {month day : Nat}
    (date : dateOfDays days = (year, month, day)) :
    (1 ≤ month ∧ month ≤ 12) ∧ (1 ≤ day ∧ day ≤ daysInMonth year month) ∧
      daysOfDate year month day = days := by
  unfold dateOfDays at date
  extract_lets shifted era dayOfEra yearOfEra dayOfYear monthFromMarch dayOfMonth monthOfYear
    calendarYear at date
  obtain ⟨rfl, rfl, rfl⟩ : calendarYear = year ∧ monthOfYear.toNat = month ∧
    dayOfMonth.toNat = day := by simpa using date
  have isShifted : shifted = days + 719468 := rfl
  have isEra : era = shifted / 146097 := rfl
  have isDayOfEra : dayOfEra = shifted - era * 146097 := rfl
  have isFromMarch : monthFromMarch = (5 * dayOfYear + 2) / 153 := rfl
  have isDay : dayOfMonth = dayOfYear - (153 * monthFromMarch + 2) / 5 + 1 := rfl
  have isMonth : monthOfYear =
    if monthFromMarch < 10 then monthFromMarch + 3 else monthFromMarch - 9 := rfl
  have isYear : calendarYear = yearOfEra + era * 400 + if monthOfYear ≤ 2 then 1 else 0 := rfl
  have isYearOfEra : yearOfEra =
    (dayOfEra - dayOfEra / 1460 + dayOfEra / 36524 - dayOfEra / 146096) / 365 := rfl
  have isDayOfYear :
    dayOfYear = dayOfEra - (365 * yearOfEra + yearOfEra / 4 - yearOfEra / 100) := rfl
  clear_value shifted era dayOfEra yearOfEra dayOfYear monthFromMarch dayOfMonth monthOfYear
    calendarYear
  obtain ⟨inEra, low, high, leap⟩ :=
    dayOfYear_bounds (by omega) (by omega) isYearOfEra isDayOfYear
  have leapYear : dayOfYear = 365 → isLeapYear calendarYear = true := by
    intro last
    obtain ⟨fourth, century⟩ := leap last
    rw [isLeapYear_iff]
    omega
  obtain ⟨inYear, dayLow, dayHigh⟩ := day_bounds low high leapYear isFromMarch isMonth
  rw [← isDay] at dayLow dayHigh
  refine ⟨by omega, by omega, ?_⟩
  unfold daysOfDate
  extract_lets backShifted backEra backYear backMonth backDay backDayOfEra
  have sameYear : backShifted = yearOfEra + era * 400 := by
    have isBackShifted : backShifted =
      if monthOfYear.toNat ≤ 2 then calendarYear - 1 else calendarYear := rfl
    split at isYear <;> split at isBackShifted <;> omega
  have isBackYear : backYear = backShifted - backEra * 400 := rfl
  have isBackDay : backDay = (153 * backMonth + 2) / 5 + dayOfMonth.toNat - 1 := rfl
  have isBackDayOfEra :
    backDayOfEra = backYear * 365 + backYear / 4 - backYear / 100 + backDay := rfl
  have sameEra : backEra = era := by omega
  have sameMonth : backMonth = monthFromMarch := by omega
  have sameDay : backDay = dayOfYear := by omega
  have sameYearOfEra : backYear = yearOfEra := by omega
  rw [sameYearOfEra, sameDay] at isBackDayOfEra
  omega

end Gazetteer.Timestamp
