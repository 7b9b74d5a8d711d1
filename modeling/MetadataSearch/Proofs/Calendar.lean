import Mathlib.Tactic.IntervalCases
import MetadataSearch.Calendar

/-!
# The calendar

**Theorem (`dayNumber_ofDayNumber`).** The date of a day has that day's number, and the calendar has
that date (`isValid_ofDayNumber`).

A date is taken apart into its `Place`: the era, the century, the group of four years, the year of
the group, and the month and day, counted from March. Both functions are read off a place
(`exists_place`, `Place.dayNumber_toDate`). What the place bounds is arithmetic: the last century of
an era and the last year of a group are a day longer, and months are the runs between
`daysBeforeMonth`.
-/

namespace MetadataSearch.Date

/-! ## Places -/

/-- Where a day stands in the calendar. Months are counted from March, and days from 0. -/
structure Place where
  era : Int
  century : Nat
  four : Nat
  year : Nat
  month : Nat
  day : Nat
  century_le : century ≤ 3
  four_le : four ≤ 24
  year_le : year ≤ 3
  month_le : month ≤ 11
  inMonth : daysBeforeMonth month + day < daysBeforeMonth (month + 1)
  inYear : daysBeforeMonth month + day ≤ 365
  /-- Only the last year of a group has a 366th day, and the last group of a century only if the
  century is the last one. -/
  leapDay : daysBeforeMonth month + day = 365 → year = 3 ∧ (four = 24 → century = 3)

namespace Place

def yearOfEra (p : Place) : Nat := 100 * p.century + 4 * p.four + p.year

/-- The year that begins in March. -/
def marchYear (p : Place) : Int := p.era * 400 + p.yearOfEra

def toDate (p : Place) : Date :=
  if p.month < 10 then ⟨p.marchYear, p.month + 3, p.day + 1⟩
  else ⟨p.marchYear + 1, p.month - 9, p.day + 1⟩

/-- The number of the day, from 1970-01-01 on. -/
def number (p : Place) : Int :=
  p.era * daysPerEra + (36524 * p.century + 1461 * p.four + 365 * p.year : Nat) +
    (daysBeforeMonth p.month + p.day : Nat) - epochDay

end Place

theorem daysInMonth_le (year : Int) (month : Nat) : daysInMonth year month ≤ 31 := by
  unfold daysInMonth
  split
  · split <;> decide
  · split <;> decide

/-- The parts of a day of an era, and what they add up to. -/
theorem dayOfEra_eq {d c f y r : Nat} (hd : d < 146097) (hc : c = min (d / 36524) 3)
    (hf : f = (d - 36524 * c) / 1461) (hy : y = min ((d - 36524 * c) % 1461 / 365) 3)
    (hr : r = (d - 36524 * c) % 1461 - 365 * y) :
    d = 36524 * c + 1461 * f + 365 * y + r ∧ c ≤ 3 ∧ f ≤ 24 ∧ y ≤ 3 ∧ r ≤ 365 ∧
      (r = 365 → y = 3 ∧ (f = 24 → c = 3)) := by
  obtain ⟨rest, hrest⟩ : ∃ rest, d - 36524 * c = rest := ⟨_, rfl⟩
  have hcentury : d = 36524 * c + rest ∧ rest ≤ 36524 ∧ (rest = 36524 → c = 3) := by omega
  rw [hrest] at hf hy hr
  have hyear : rest = 1461 * f + 365 * y + r ∧ y ≤ 3 := by omega
  omega

theorem month_eq {r m : Nat} (hr : r ≤ 365) (hm : m = (5 * r + 2) / 153) :
    m ≤ 11 ∧ daysBeforeMonth m ≤ r ∧ r < daysBeforeMonth (m + 1) := by
  rw [daysBeforeMonth, daysBeforeMonth]
  omega

/-- The date of a day is the date of its place. -/
theorem exists_place (n : Int) : ∃ p : Place, p.number = n ∧ p.toDate = ofDayNumber n := by
  obtain ⟨d, hd⟩ : ∃ d, ((n + epochDay) % daysPerEra).toNat = d := ⟨_, rfl⟩
  have hlt : d < 146097 ∧ n = (n + epochDay) / daysPerEra * daysPerEra + d - epochDay := by
    unfold daysPerEra at *
    omega
  obtain ⟨c, hc⟩ : ∃ c, c = min (d / 36524) 3 := ⟨_, rfl⟩
  obtain ⟨f, hf⟩ : ∃ f, f = (d - 36524 * c) / 1461 := ⟨_, rfl⟩
  obtain ⟨y, hy⟩ : ∃ y, y = min ((d - 36524 * c) % 1461 / 365) 3 := ⟨_, rfl⟩
  obtain ⟨r, hr⟩ : ∃ r, r = (d - 36524 * c) % 1461 - 365 * y := ⟨_, rfl⟩
  obtain ⟨m, hm⟩ : ∃ m, m = (5 * r + 2) / 153 := ⟨_, rfl⟩
  obtain ⟨hsum, hcle, hfle, hyle, hrle, hleap⟩ := dayOfEra_eq hlt.1 hc hf hy hr
  obtain ⟨hmle, hbefore, hafter⟩ := month_eq hrle hm
  have hday : daysBeforeMonth m + (r - daysBeforeMonth m) = r := by omega
  refine ⟨⟨(n + epochDay) / daysPerEra, c, f, y, m, r - daysBeforeMonth m, hcle, hfle, hyle, hmle,
    by rwa [hday], by rwa [hday], by rwa [hday]⟩, ?_, ?_⟩
  · rw [Place.number]
    simp only [hday]
    omega
  · rw [ofDayNumber]
    simp only [hd, ← hc, ← hf, ← hy, ← hr, ← hm]
    rfl

namespace Place

variable (p : Place)

theorem yearOfEra_eq : p.yearOfEra < 400 ∧ p.yearOfEra / 4 = 25 * p.century + p.four ∧
    p.yearOfEra / 100 = p.century := by
  have := p.century_le
  have := p.four_le
  have := p.year_le
  rw [yearOfEra]
  omega

theorem marchYear_eq : p.marchYear / 400 = p.era ∧ p.marchYear % 400 = p.yearOfEra := by
  have := p.yearOfEra_eq.1
  rw [marchYear]
  omega

theorem month_toDate :
    p.toDate.month = if p.month < 10 then p.month + 3 else p.month - 9 := by
  rw [toDate]
  split <;> rfl

theorem day_toDate : p.toDate.day = p.day + 1 := by
  rw [toDate]
  split <;> rfl

theorem dayNumber_toDate : p.toDate.dayNumber = p.number := by
  obtain ⟨hlt, hfours, hcenturies⟩ := p.yearOfEra_eq
  obtain ⟨hera, hyear⟩ := p.marchYear_eq
  -- The month counted from March, and the year that began in March, are found again.
  have hmarch : (if p.toDate.month ≤ 2 then p.toDate.year - 1 else p.toDate.year) = p.marchYear ∧
      (if p.toDate.month ≤ 2 then p.toDate.month + 9 else p.toDate.month - 3) = p.month := by
    have hmonth := p.month_le
    rw [toDate]
    by_cases hlate : p.month < 10
    · rw [if_pos hlate]
      dsimp only
      rw [if_neg (by omega), if_neg (by omega)]
      exact ⟨rfl, by omega⟩
    · rw [if_neg hlate]
      dsimp only
      rw [if_pos (by omega), if_pos (by omega)]
      exact ⟨by omega, by omega⟩
  rw [dayNumber, number, p.day_toDate]
  simp only [hmarch, hera, hyear]
  rw [yearOfEra] at *
  omega

/-- The last day that a year may have is the leap day. -/
theorem isLeapYear_of_leapDay (h : daysBeforeMonth p.month + p.day = 365) :
    isLeapYear (p.marchYear + 1) = true := by
  obtain ⟨hyear, hcentury⟩ := p.leapDay h
  have hle := p.century_le
  have hfour := p.four_le
  simp only [isLeapYear, marchYear, yearOfEra, Bool.and_eq_true, Bool.or_eq_true, beq_iff_eq,
    bne_iff_ne]
  omega

/-- Every month but February is as long as the run that begins with it. -/
theorem daysBeforeMonth_succ (year : Int) {m : Nat} (hm : m ≤ 10) :
    daysBeforeMonth (m + 1) =
      daysBeforeMonth m + daysInMonth year (if m < 10 then m + 3 else m - 9) := by
  interval_cases m <;> rfl

theorem day_lt_daysInMonth : p.day < daysInMonth p.toDate.year p.toDate.month := by
  have hin := p.inMonth
  rcases Nat.lt_or_eq_of_le p.month_le with hm | hm
  · rw [daysBeforeMonth_succ p.toDate.year (Nat.le_of_lt_succ hm), ← p.month_toDate] at hin
    exact Nat.lt_of_add_lt_add_left hin
  · have hyear : p.toDate.year = p.marchYear + 1 := by
      rw [toDate, if_neg (by omega)]
    have hfeb : daysBeforeMonth p.month = 337 := by
      rw [hm]
      rfl
    rw [p.month_toDate, hm, hyear]
    by_cases hday : p.day = 28
    · have hleap := p.isLeapYear_of_leapDay (by omega)
      simp [daysInMonth, hleap, hday]
    · have hbefore : p.day < 28 := by
        have := p.inYear
        omega
      by_cases hleap : isLeapYear (p.marchYear + 1) = true
      · simp [daysInMonth, hleap]
        omega
      · simpa [daysInMonth, hleap] using hbefore

theorem isValid_toDate : p.toDate.isValid = true := by
  have hday := p.day_lt_daysInMonth
  have hmonth := p.month_le
  have hbounds : 1 ≤ p.toDate.month ∧ p.toDate.month ≤ 12 := by
    rw [p.month_toDate]
    split <;> omega
  simp only [isValid, p.day_toDate, Bool.and_eq_true, decide_eq_true_eq]
  omega

end Place

/-- **A day is the day of its date.** -/
theorem dayNumber_ofDayNumber (n : Int) : (ofDayNumber n).dayNumber = n := by
  obtain ⟨p, hnumber, hdate⟩ := exists_place n
  rw [← hdate, p.dayNumber_toDate, hnumber]

theorem isValid_ofDayNumber (n : Int) : (ofDayNumber n).isValid = true := by
  obtain ⟨p, -, hdate⟩ := exists_place n
  rw [← hdate, p.isValid_toDate]

end MetadataSearch.Date
