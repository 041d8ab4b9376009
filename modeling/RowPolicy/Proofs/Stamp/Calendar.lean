import Mathlib.Tactic.Common
import RowPolicy.Stamp.Instant

/-!
# The calendar

The date of a day is one of the calendar, and the day is found again from the date.
-/

namespace RowPolicy.CivilDate

/-- The days of an era before a year of it. -/
def daysBefore (year : Int) : Int := 365 * year + year / 4 - year / 100 + year / 400

/-- The year of a day of an era. The quotients by 1460 and by 36524 count too many leap days by at
most one, so the year is at most one off four times the first. -/
lemma yearOfEra_bounds {e y : Int} (hlower : 0 ≤ e) (hupper : e < 146097)
    (hy : y = (e - e / 1460 + e / 36524 - e / 146096) / 365) :
    0 ≤ y ∧ y ≤ 399 ∧ daysBefore y ≤ e ∧ e < daysBefore (y + 1) := by
  unfold daysBefore
  obtain ⟨c, r, he, hr, hr'⟩ : ∃ c r : Int, e = 1460 * c + r ∧ 0 ≤ r ∧ r < 1460 :=
    ⟨e / 1460, e % 1460, by omega, by omega, by omega⟩
  have hc : e / 1460 = c := by omega
  rw [hc] at hy
  have hcentury : e / 36524 = 0 ∨ e / 36524 = 1 ∨ e / 36524 = 2 ∨ e / 36524 = 3 ∨
      e / 36524 = 4 := by omega
  have hyear : y = 4 * c - 1 ∨ y = 4 * c ∨ y = 4 * c + 1 ∨ y = 4 * c + 2 ∨ y = 4 * c + 3 := by
    omega
  have hbound : 0 ≤ y ∧ y ≤ 399 := by omega
  have hera : y / 400 = 0 := by omega
  refine ⟨hbound.1, hbound.2, ?_⟩
  rw [hera]
  rcases hyear with hyear | hyear | hyear | hyear | hyear <;>
    rcases hcentury with hcentury | hcentury | hcentury | hcentury | hcentury <;> omega

lemma isLeapYear_iff {y : Int} :
    isLeapYear y = true ↔ y % 4 = 0 ∧ (y % 100 ≠ 0 ∨ y % 400 = 0) := by
  simp [isLeapYear]

lemma isLeapYear_era (y era : Int) : isLeapYear (y + era * 400) = isLeapYear y := by
  rw [Bool.eq_iff_iff, isLeapYear_iff, isLeapYear_iff]
  omega

/-- A year counted from March has a leap day if the next year of the calendar is a leap year. -/
lemma daysBefore_succ (y : Int) :
    daysBefore (y + 1) = daysBefore y + if isLeapYear (y + 1) then 366 else 365 := by
  unfold daysBefore
  split
  next h =>
    rw [isLeapYear_iff] at h
    omega
  next h =>
    rw [isLeapYear_iff] at h
    omega

structure IsValid (d : CivilDate) : Prop where
  month_pos : 1 ≤ d.month
  month_le : d.month ≤ 12
  day_pos : 1 ≤ d.day
  day_le : d.day ≤ daysInMonth d.year d.month

/-- The date of a day of a year that is counted from March. -/
def ofDayOfYear (year day : Int) : CivilDate :=
  let monthFromMarch := (5 * day + 2) / 153
  let month := if monthFromMarch < 10 then monthFromMarch + 3 else monthFromMarch - 9
  ⟨if month ≤ 2 then year + 1 else year, month.toNat,
    (day - (153 * monthFromMarch + 2) / 5 + 1).toNat⟩

/-- Days since 1970 as a year, counted from March, and a day of it. -/
lemma ofDays_eq (days : Int) : ∃ era y day : Int,
    days + 719468 = era * 146097 + daysBefore y + day ∧ 0 ≤ y ∧ y ≤ 399 ∧ 0 ≤ day ∧
      day < (if isLeapYear (y + 1) then 366 else 365) ∧
      ofDays days = ofDayOfYear (y + era * 400) day := by
  obtain ⟨era, hera⟩ : ∃ era, era = (days + 719468) / 146097 := ⟨_, rfl⟩
  obtain ⟨e, he⟩ : ∃ e, e = days + 719468 - era * 146097 := ⟨_, rfl⟩
  obtain ⟨y, hy⟩ : ∃ y, y = (e - e / 1460 + e / 36524 - e / 146096) / 365 := ⟨_, rfl⟩
  have hdate : ofDays days = ofDayOfYear (y + era * 400) (e - (365 * y + y / 4 - y / 100)) := by
    rw [hy, he, hera]
    rfl
  obtain ⟨hlower, hupper, hstart, hend⟩ := yearOfEra_bounds (by omega) (by omega) hy
  have hbefore : daysBefore y = 365 * y + y / 4 - y / 100 := by
    unfold daysBefore
    omega
  rw [daysBefore_succ] at hend
  rw [← hbefore] at hdate
  exact ⟨era, y, e - daysBefore y, by omega, hlower, hupper, by omega, by omega, hdate⟩

/-- The number in the calendar of a month that is counted from March. -/
def monthOfYear (monthFromMarch : Int) : Nat :=
  (if monthFromMarch < 10 then monthFromMarch + 3 else monthFromMarch - 9).toNat

/-- The months but February end where the next one starts. -/
lemma daysInMonth_monthOfYear {m : Int} (hlower : 0 ≤ m) (hupper : m < 11) (year : Int) :
    (daysInMonth year (monthOfYear m) : Int) = (153 * (m + 1) + 2) / 5 - (153 * m + 2) / 5 := by
  have hmonth : m = 0 ∨ m = 1 ∨ m = 2 ∨ m = 3 ∨ m = 4 ∨ m = 5 ∨ m = 6 ∨ m = 7 ∨ m = 8 ∨ m = 9 ∨
      m = 10 := by omega
  rcases hmonth with rfl | rfl | rfl | rfl | rfl | rfl | rfl | rfl | rfl | rfl | rfl <;> rfl

lemma daysInMonth_february (year : Int) :
    daysInMonth year (monthOfYear 11) = if isLeapYear year then 29 else 28 := rfl

lemma ofDayOfYear_eq (year : Int) {day : Int} (hlower : 0 ≤ day) (hupper : day < 366) :
    ∃ m : Int, m = (5 * day + 2) / 153 ∧ ofDayOfYear year day =
      ⟨if m < 10 then year else year + 1, monthOfYear m, (day - (153 * m + 2) / 5 + 1).toNat⟩ := by
  obtain ⟨m, hm⟩ : ∃ m, m = (5 * day + 2) / 153 := ⟨_, rfl⟩
  have hyear : (if (if m < 10 then m + 3 else m - 9) ≤ 2 then year + 1 else year) =
      if m < 10 then year else year + 1 := by
    split_ifs <;> omega
  refine ⟨m, hm, ?_⟩
  rw [← hyear, hm]
  rfl

lemma ofDayOfYear_isValid {year day : Int} (hlower : 0 ≤ day)
    (hupper : day < if isLeapYear (year + 1) then 366 else 365) :
    (ofDayOfYear year day).IsValid := by
  have hyear : day < 366 := by
    split at hupper <;> omega
  obtain ⟨m, hm, hdate⟩ := ofDayOfYear_eq year hlower hyear
  rw [hdate]
  refine ⟨?_, ?_, ?_, ?_⟩
  · dsimp only
    unfold monthOfYear
    omega
  · dsimp only
    unfold monthOfYear
    omega
  · dsimp only
    omega
  · dsimp only
    -- The year starts in March, so only its last month depends on leap years.
    by_cases hfebruary : m < 11
    · have hlength := daysInMonth_monthOfYear (by omega) hfebruary
        (if m < 10 then year else year + 1)
      omega
    · obtain rfl : m = 11 := by omega
      rw [if_neg (by decide), daysInMonth_february]
      split at hupper
      next hleap =>
        rw [if_pos hleap]
        omega
      next hleap =>
        rw [if_neg hleap]
        omega

lemma toDays_ofDayOfYear {era y day : Int} (hlower : 0 ≤ y) (hupper : y ≤ 399)
    (hday : 0 ≤ day) (hday' : day < 366) :
    (ofDayOfYear (y + era * 400) day).toDays = era * 146097 + daysBefore y + day - 719468 := by
  obtain ⟨m, hm, hdate⟩ := ofDayOfYear_eq (y + era * 400) hday hday'
  rw [hdate]
  have hyear : (if monthOfYear m ≤ 2 then (if m < 10 then y + era * 400 else y + era * 400 + 1) - 1
      else if m < 10 then y + era * 400 else y + era * 400 + 1) = y + era * 400 := by
    unfold monthOfYear
    split_ifs <;> omega
  have hmonth : (if monthOfYear m ≤ 2 then (monthOfYear m : Int) + 9
      else (monthOfYear m : Int) - 3) = m := by
    unfold monthOfYear
    split_ifs <;> omega
  unfold toDays
  dsimp only
  rw [hyear, hmonth]
  unfold daysBefore
  omega

lemma ofDays_isValid (days : Int) : (ofDays days).IsValid := by
  obtain ⟨era, y, day, -, -, -, hday, hday', hdate⟩ := ofDays_eq days
  rw [hdate]
  refine ofDayOfYear_isValid hday ?_
  rw [Int.add_right_comm, isLeapYear_era]
  exact hday'

/-- A day is found again from its date. -/
lemma toDays_ofDays (days : Int) : (ofDays days).toDays = days := by
  obtain ⟨era, y, day, hdays, hy, hy', hday, hday', hdate⟩ := ofDays_eq days
  have hyear : day < 366 := by
    split at hday' <;> omega
  rw [hdate, toDays_ofDayOfYear hy hy' hday hyear]
  omega

end RowPolicy.CivilDate
