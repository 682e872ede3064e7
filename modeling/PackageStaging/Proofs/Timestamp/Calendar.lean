/-
# The calendar

A number of days makes a date, and the date makes the number of days again
(`daysOfDate_dateOfDays`); its month is one of twelve, and its day is one of the month
(`dateOfDays_bounds`).  Both counts go through the years of an era of 400 years, which begin in
March and of which a century has 36524 days and four years have 1461, except for the last ones
(`InEra`).
-/
import Mathlib.Tactic.IntervalCases
import Mathlib.Tactic.Lemma
import PackageStaging.Timestamp

namespace PackageStaging.Timestamp

variable {days era doe c q a d : Int}

/-! ### Days of an era -/

/-- The day of an era, by its century, the group of four years in the century, the year in the
group, and the day in the year. -/
structure InEra (doe c q a d : Int) : Prop where
  eq : doe = 36524 * c + 1461 * q + 365 * a + d
  century : 0 ≤ c ∧ c ≤ 3
  group : 0 ≤ q ∧ q ≤ 24
  year : 0 ≤ a ∧ a ≤ 3
  day : 0 ≤ d ∧ d ≤ 365
  /-- Only the last year of a group has a day more, and in the last group of a century only if it
  is the last year of the era. -/
  leap : d = 365 → a = 3 ∧ (q ≤ 23 ∨ c = 3)

lemma exists_inEra (h0 : 0 ≤ doe) (h1 : doe < 146097) : ∃ c q a d, InEra doe c q a d := by
  have hcentury : ∃ c r, doe = 36524 * c + r ∧ 0 ≤ c ∧ c ≤ 3 ∧ 0 ≤ r ∧ r ≤ 36524 ∧
      (r = 36524 → c = 3) :=
    ⟨min (doe / 36524) 3, doe - 36524 * min (doe / 36524) 3, by omega⟩
  obtain ⟨c, r, hdoe, hc0, hc3, hr0, hr, hlast⟩ := hcentury
  have hyear : ∃ a d, r % 1461 = 365 * a + d ∧ 0 ≤ a ∧ a ≤ 3 ∧ 0 ≤ d ∧ d ≤ 365 ∧
      (d = 365 → a = 3) :=
    ⟨min (r % 1461 / 365) 3, r % 1461 - 365 * min (r % 1461 / 365) 3, by omega⟩
  obtain ⟨a, d, hrest, ha0, ha3, hd0, hd, hleap⟩ := hyear
  exact ⟨c, r / 1461, a, d, by omega, ⟨hc0, hc3⟩, by omega, ⟨ha0, ha3⟩, ⟨hd0, hd⟩,
    fun h => ⟨hleap h, by omega⟩⟩

/-- The year of the era in which a day lies. -/
lemma InEra.year_eq (h : InEra doe c q a d) :
    (doe - doe / 1460 + doe / 36524 - doe / 146096) / 365 = 100 * c + 4 * q + a := by
  obtain ⟨hdoe, ⟨hc0, hc3⟩, ⟨hq0, hq24⟩, ⟨ha0, ha3⟩, ⟨hd0, hd⟩, hleap⟩ := h
  by_cases hlast : doe = 146096
  · have hc : c = 3 := by omega
    have hq : q = 24 := by omega
    have ha : a = 3 := by omega
    rw [hlast, hc, hq, ha]
    rfl
  · have hcentury : doe / 36524 = c := by omega
    have hera : doe / 146096 = 0 := by omega
    -- in groups of 1460 days, the leap days may add up to one more group
    rcases Int.lt_or_le (24 * c + q + 365 * a + d) 1460 with hshort | hlong
    · have hyears : doe / 1460 = 25 * c + q := by omega
      rw [hcentury, hera, hyears]
      omega
    · have hyears : doe / 1460 = 25 * c + q + 1 := by omega
      rw [hcentury, hera, hyears]
      omega

/-- The years of an era up to a year of it, in days. -/
lemma InEra.days_eq (h : InEra doe c q a d) :
    365 * (100 * c + 4 * q + a) + (100 * c + 4 * q + a) / 4 - (100 * c + 4 * q + a) / 100 =
      doe - d := by
  obtain ⟨hdoe, ⟨hc0, hc3⟩, ⟨hq0, hq24⟩, ⟨ha0, ha3⟩, ⟨hd0, hd⟩, hleap⟩ := h
  omega

/-! ### Days of a year -/

/-- The month in which a day of a year lies, counted from March on. -/
def monthFromMarch (d : Int) : Int := (5 * d + 2) / 153

/-- Which day of its month a day of a year is. -/
def dayOfMonth (d : Int) : Int := d - (153 * monthFromMarch d + 2) / 5 + 1

/-- The month of the calendar. -/
def calendarMonth (mp : Int) : Int := if mp < 10 then mp + 3 else mp - 9

lemma monthFromMarch_bounds (h : 0 ≤ d ∧ d ≤ 365) :
    0 ≤ monthFromMarch d ∧ monthFromMarch d ≤ 11 := by
  unfold monthFromMarch
  omega

lemma dayOfMonth_pos (d : Int) : 1 ≤ dayOfMonth d := by
  unfold dayOfMonth monthFromMarch
  omega

/-- A month has no more days than it should. -/
lemma dayOfMonth_le (h : 0 ≤ d ∧ d ≤ 365) {y : Int} (hleap : d = 365 → isLeapYear y = true) :
    (dayOfMonth d).toNat ≤ daysInMonth y (calendarMonth (monthFromMarch d)).toNat := by
  obtain ⟨hm0, hm1⟩ := monthFromMarch_bounds h
  have hday : dayOfMonth d = d - (153 * monthFromMarch d + 2) / 5 + 1 := rfl
  have hmonth : 153 * monthFromMarch d ≤ 5 * d + 2 ∧ 5 * d + 2 < 153 * (monthFromMarch d + 1) := by
    unfold monthFromMarch
    omega
  generalize dayOfMonth d = x at hday ⊢
  generalize monthFromMarch d = mp at hday hmonth hm0 hm1 ⊢
  by_cases hfebruary : mp = 11
  · subst hfebruary
    show x.toNat ≤ if isLeapYear y then 29 else 28
    by_cases hlast : d = 365
    · rw [hleap hlast]
      simp only [reduceIte]
      omega
    · split_ifs
      · omega
      · omega
  · interval_cases mp <;> simp [daysInMonth, calendarMonth] <;> omega

/-- The last day of a year that begins in March is that of a leap year. -/
lemma InEra.isLeapYear (h : InEra doe c q a d) (hlast : d = 365) (era : Int) :
    Timestamp.isLeapYear (100 * c + 4 * q + a + era * 400 + 1) = true := by
  obtain ⟨ha, hq⟩ := h.leap hlast
  obtain ⟨hq0, hq24⟩ := h.group
  subst ha
  simp only [Timestamp.isLeapYear, Bool.and_eq_true, Bool.or_eq_true, decide_eq_true_eq]
  omega

/-! ### Dates -/

/-- The date of a day of an era. -/
def dateInEra (era y d : Int) : Int × Nat × Nat :=
  let m := calendarMonth (monthFromMarch d)
  (y + era * 400 + (if m ≤ 2 then 1 else 0), m.toNat, (dayOfMonth d).toNat)

lemma dateOfDays_eq (h : InEra doe c q a d) (hdays : days + 719468 = era * 146097 + doe) :
    dateOfDays days = dateInEra era (100 * c + 4 * q + a) d := by
  have hera : (days + 719468).fdiv 146097 = era := by
    obtain ⟨hdoe, hc, hq, ha, hd, -⟩ := h
    rw [Int.fdiv_eq_ediv_of_nonneg _ (by omega)]
    omega
  have hdoe : days + 719468 - era * 146097 = doe := by omega
  have hday : doe - (365 * (100 * c + 4 * q + a) + (100 * c + 4 * q + a) / 4 -
      (100 * c + 4 * q + a) / 100) = d := by
    rw [h.days_eq]
    omega
  simp only [dateOfDays, hera, hdoe, h.year_eq, hday]
  rfl

/-- Every day lies in some era. -/
lemma exists_era (days : Int) :
    ∃ era doe c q a d, InEra doe c q a d ∧ days + 719468 = era * 146097 + doe := by
  have hday : 0 ≤ (days + 719468) % 146097 ∧ (days + 719468) % 146097 < 146097 := by omega
  obtain ⟨c, q, a, d, h⟩ := exists_inEra hday.1 hday.2
  exact ⟨(days + 719468) / 146097, _, c, q, a, d, h, by omega⟩

/-- The days of a date in an era. -/
lemma daysOfDate_dateInEra (h : InEra doe c q a d) (era : Int) :
    daysOfDate (dateInEra era (100 * c + 4 * q + a) d).1
        (dateInEra era (100 * c + 4 * q + a) d).2.1 (dateInEra era (100 * c + 4 * q + a) d).2.2 =
      era * 146097 + doe - 719468 := by
  have hdays := h.days_eq
  obtain ⟨hdoe, hc, hq, ha, hd, -⟩ := h
  obtain ⟨hm0, hm1⟩ := monthFromMarch_bounds hd
  have hpos := dayOfMonth_pos d
  have hday : dayOfMonth d = d - (153 * monthFromMarch d + 2) / 5 + 1 := rfl
  generalize hy : 100 * c + 4 * q + a = y at hdays ⊢
  have hera : (y + era * 400).fdiv 400 = era := by
    rw [Int.fdiv_eq_ediv_of_nonneg _ (by omega)]
    omega
  simp only [daysOfDate, dateInEra, calendarMonth]
  -- January and February belong to the year that began in March
  by_cases hmp : monthFromMarch d < 10
  · have hmonth : ¬(monthFromMarch d + 3).toNat ≤ 2 := by omega
    have hyear : ¬monthFromMarch d + 3 ≤ 2 := by omega
    simp only [if_pos hmp, if_neg hmonth, if_neg hyear, Int.add_zero, hera]
    omega
  · have hmonth : (monthFromMarch d - 9).toNat ≤ 2 := by omega
    have hyear : monthFromMarch d - 9 ≤ 2 := by omega
    simp only [if_neg hmp, if_pos hmonth, if_pos hyear, Int.add_sub_cancel, hera]
    omega

/-- The date of a number of days makes that number again. -/
theorem daysOfDate_dateOfDays (days : Int) :
    daysOfDate (dateOfDays days).1 (dateOfDays days).2.1 (dateOfDays days).2.2 = days := by
  obtain ⟨era, doe, c, q, a, d, h, hdays⟩ := exists_era days
  rw [dateOfDays_eq h hdays, daysOfDate_dateInEra h]
  omega

/-- What holds of a month and a day of a year. -/
structure IsDate (y : Int) (m d : Nat) : Prop where
  month : 1 ≤ m ∧ m ≤ 12
  day : 1 ≤ d ∧ d ≤ daysInMonth y m

/-- The date of a number of days is one of the calendar. -/
theorem isDate_dateOfDays (days : Int) :
    IsDate (dateOfDays days).1 (dateOfDays days).2.1 (dateOfDays days).2.2 := by
  obtain ⟨era, doe, c, q, a, d, h, hdays⟩ := exists_era days
  rw [dateOfDays_eq h hdays]
  obtain ⟨hm0, hm1⟩ := monthFromMarch_bounds h.day
  have hpos := dayOfMonth_pos d
  refine ⟨?_, ?_, dayOfMonth_le h.day fun hlast => ?_⟩
  · simp only [dateInEra, calendarMonth]
    split_ifs
    · omega
    · omega
  · simp only [dateInEra]
    omega
  · -- the last day of the year lies in February
    subst hlast
    exact h.isLeapYear rfl era

end PackageStaging.Timestamp
