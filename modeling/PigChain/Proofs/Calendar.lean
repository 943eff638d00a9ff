import PigChain.DateTime.Basic

/-!
# Days and dates

The date of a day is a date of the calendar, and the day of that date is the day. An era of the calendar has four
hundred years and 146097 days. Within it a day is found by its century, its cycle of four years, the year of the cycle
and the day of the year, where years start in March: then a leap day is the last day of its year, and every year but the
last of a cycle has 365 days.
-/

namespace PigChain.DateTime

/-- Century, cycle of four years, year of the cycle and day of the year of a day within its era. A year has a day 365
only if it ends its cycle, and if the cycle ends its century, only at the end of the era. -/
structure EraDay (c q r k : Int) : Prop where
  century : 0 ≤ c ∧ c ≤ 3
  cycle : 0 ≤ q ∧ q ≤ 24
  year : 0 ≤ r ∧ r ≤ 3
  day : 0 ≤ k ∧ k ≤ 365
  leap : k = 365 → r = 3 ∧ (q = 24 → c = 3)

variable {c q r k : Int}

theorem exists_eraDay {doe : Int} (hlow : 0 ≤ doe) (hhigh : doe < 146097) :
    ∃ c q r k, EraDay c q r k ∧ doe = 36524 * c + 1461 * q + 365 * r + k := by
  obtain ⟨c, hc, hday⟩ : ∃ c, (0 ≤ c ∧ c ≤ 3) ∧ 0 ≤ doe - 36524 * c ∧ doe - 36524 * c ≤ 36524 ∧
      (doe - 36524 * c = 36524 → c = 3) :=
    ⟨min 3 (doe / 36524), by omega, by omega⟩
  obtain ⟨q, hq, hday⟩ : ∃ q, (0 ≤ q ∧ q ≤ 24) ∧ 0 ≤ doe - 36524 * c - 1461 * q ∧
      doe - 36524 * c - 1461 * q ≤ 1460 :=
    ⟨(doe - 36524 * c) / 1461, by omega, by omega⟩
  obtain ⟨r, hr, hday⟩ : ∃ r, (0 ≤ r ∧ r ≤ 3) ∧ 0 ≤ doe - 36524 * c - 1461 * q - 365 * r ∧
      doe - 36524 * c - 1461 * q - 365 * r ≤ 365 ∧ (doe - 36524 * c - 1461 * q - 365 * r = 365 → r = 3) :=
    ⟨min 3 ((doe - 36524 * c - 1461 * q) / 365), by omega, by omega⟩
  exact ⟨c, q, r, _, ⟨hc, hq, hr, ⟨hday.1, hday.2.1⟩, fun h => ⟨hday.2.2 h, by omega⟩⟩, by omega⟩

namespace EraDay

theorem bounds (h : EraDay c q r k) :
    0 ≤ 36524 * c + 1461 * q + 365 * r + k ∧ 36524 * c + 1461 * q + 365 * r + k < 146097 := by
  obtain ⟨⟨hc₁, hc₂⟩, ⟨hq₁, hq₂⟩, ⟨hr₁, hr₂⟩, ⟨hk₁, hk₂⟩, hleap⟩ := h
  omega

/-- The days of the years before this one. -/
theorem before (h : EraDay c q r k) :
    365 * (100 * c + 4 * q + r) + (100 * c + 4 * q + r) / 4 - (100 * c + 4 * q + r) / 100 =
      36524 * c + 1461 * q + 365 * r := by
  obtain ⟨-, ⟨hq₁, hq₂⟩, ⟨hr₁, hr₂⟩, -, -⟩ := h
  have hcycles : (100 * c + 4 * q + r) / 4 = 25 * c + q := by omega
  have hcenturies : (100 * c + 4 * q + r) / 100 = c := by omega
  omega

/-- The year is found by one division. What the divisions before it take away is the leap days: one for each cycle of
1460 days, but none for each century, and again one for the era. -/
theorem yearOfEra (h : EraDay c q r k) {doe : Int} (hdoe : 36524 * c + 1461 * q + 365 * r + k = doe) :
    (doe - doe / 1460 + doe / 36524 - doe / 146096) / 365 = 100 * c + 4 * q + r := by
  obtain ⟨⟨hc₁, hc₂⟩, ⟨hq₁, hq₂⟩, ⟨hr₁, hr₂⟩, ⟨hk₁, hk₂⟩, hleap⟩ := h
  have hcentury : doe / 36524 - doe / 146096 = c := by
    by_cases hlast : doe = 146096
    · omega
    · have hlow : 36524 * c ≤ doe := by omega
      have hhigh : doe < 36524 * c + 36524 := by omega
      omega
  have hcycle : doe / 1460 = 25 * c + q ∧ k ≤ 364 ∨ doe / 1460 = 25 * c + q + 1 ∧ 1 ≤ k := by omega
  omega

end EraDay

/-! ### Months -/

/-- The month of a day of the year, counted from March. -/
def monthOfDay (k : Int) : Int := (5 * k + 2) / 153

theorem monthOfDay_bounds (h : 0 ≤ k ∧ k ≤ 365) : 0 ≤ monthOfDay k ∧ monthOfDay k ≤ 11 := by
  unfold monthOfDay
  omega

theorem monthLength_le (year month : Int) : monthLength year month ≤ 31 := by
  unfold monthLength
  repeat' split
  all_goals decide

theorem isLeapYear_of_last {era : Int} (h : EraDay c q r 365) :
    isLeapYear (100 * c + 4 * q + r + era * 400 + 1) = true := by
  obtain ⟨⟨hc₁, hc₂⟩, ⟨hq₁, hq₂⟩, -, -, hleap⟩ := h
  obtain ⟨rfl, hlast⟩ := hleap rfl
  simp only [isLeapYear, Bool.and_eq_true, Bool.or_eq_true, decide_eq_true_eq]
  omega

theorem day_le_monthLength {year : Int} (hk : 0 ≤ k ∧ k ≤ 365) (hleap : k = 365 → isLeapYear year = true) :
    k - (153 * monthOfDay k + 2) / 5 + 1 ≤
      monthLength year (if monthOfDay k < 10 then monthOfDay k + 3 else monthOfDay k - 9) := by
  have hmonth : monthOfDay k = (5 * k + 2) / 153 := rfl
  have hbounds := monthOfDay_bounds hk
  generalize monthOfDay k = m at hmonth hbounds ⊢
  unfold monthLength
  -- January and February end the year; only the last of them has a length of its own.
  have hm : m < 10 ∨ m = 10 ∨ m = 11 := by omega
  rcases hm with hm | rfl | rfl
  · rw [if_pos hm, if_neg (by omega)]
    split <;> omega
  · simp only [show ¬((10 : Int) < 10) by decide, if_false]
    rw [if_neg (by decide), if_neg (by decide)]
    omega
  · simp only [show ¬((11 : Int) < 10) by decide, if_false]
    rw [if_pos (by decide)]
    by_cases hlast : k = 365
    · rw [hleap hlast, if_pos rfl]
      omega
    · split <;> omega

/-! ### Dates -/

theorem dateOfDay_eq {era : Int} (h : EraDay c q r k) :
    dateOfDay (era * 146097 + (36524 * c + 1461 * q + 365 * r + k) - 719468) =
      (100 * c + 4 * q + r + era * 400 + (if monthOfDay k < 10 then 0 else 1),
        if monthOfDay k < 10 then monthOfDay k + 3 else monthOfDay k - 9,
        k - (153 * monthOfDay k + 2) / 5 + 1) := by
  have hbounds := h.bounds
  have hyear := h.yearOfEra rfl
  have hbefore := h.before
  have hk : 36524 * c + 1461 * q + 365 * r + k - (36524 * c + 1461 * q + 365 * r) = k := by omega
  generalize 36524 * c + 1461 * q + 365 * r + k = doe at hbounds hyear hk ⊢
  generalize 36524 * c + 1461 * q + 365 * r = before at hbefore hk
  have hera : (era * 146097 + doe - 719468 + 719468) / 146097 = era := by omega
  have hday : era * 146097 + doe - 719468 + 719468 - era * 146097 = doe := by omega
  unfold dateOfDay
  simp only
  rw [hera, hday, hyear, hbefore, hk]
  have hmonth := monthOfDay_bounds h.day
  unfold monthOfDay at *
  by_cases hm : (5 * k + 2) / 153 < 10
  · simp only [if_pos hm, Prod.mk.injEq, and_true]
    rw [if_neg (by omega)]
    omega
  · simp only [if_neg hm, Prod.mk.injEq, and_true]
    rw [if_pos (by omega)]

theorem dayOfDate_eq {era : Int} (h : EraDay c q r k) :
    dayOfDate (100 * c + 4 * q + r + era * 400 + (if monthOfDay k < 10 then 0 else 1))
        (if monthOfDay k < 10 then monthOfDay k + 3 else monthOfDay k - 9) (k - (153 * monthOfDay k + 2) / 5 + 1) =
      era * 146097 + (36524 * c + 1461 * q + 365 * r + k) - 719468 := by
  have hbounds := monthOfDay_bounds h.day
  have hbefore := h.before
  have hyoe : 0 ≤ 100 * c + 4 * q + r ∧ 100 * c + 4 * q + r < 400 := by
    obtain ⟨⟨hc₁, hc₂⟩, ⟨hq₁, hq₂⟩, ⟨hr₁, hr₂⟩, -, -⟩ := h
    omega
  generalize monthOfDay k = m at hbounds ⊢
  generalize 36524 * c + 1461 * q + 365 * r = before at hbefore ⊢
  generalize 100 * c + 4 * q + r = yoe at hbefore hyoe ⊢
  have hera : (yoe + era * 400) / 400 = era := by omega
  unfold dayOfDate
  by_cases hm : m < 10
  · simp only [if_pos hm]
    rw [if_neg (by omega), if_pos (by omega), Int.add_zero, hera]
    omega
  · simp only [if_neg hm]
    rw [if_pos (by omega), if_neg (by omega), Int.add_sub_cancel, hera]
    omega

/-- The date of a day is a date of the calendar, and its day is that day. -/
theorem dateOfDay_spec (day : Int) : ∃ year month dayOfMonth, dateOfDay day = (year, month, dayOfMonth) ∧
    (1 ≤ month ∧ month ≤ 12) ∧ (1 ≤ dayOfMonth ∧ dayOfMonth ≤ monthLength year month) ∧
    dayOfDate year month dayOfMonth = day := by
  have hlow : 0 ≤ (day + 719468) % 146097 := by omega
  have hhigh : (day + 719468) % 146097 < 146097 := by omega
  obtain ⟨c, q, r, k, h, hdoe⟩ := exists_eraDay hlow hhigh
  have hday : day = (day + 719468) / 146097 * 146097 + (36524 * c + 1461 * q + 365 * r + k) - 719468 := by omega
  generalize (day + 719468) / 146097 = era at hday
  have hmonth := monthOfDay_bounds h.day
  refine ⟨_, _, _, by rw [hday, dateOfDay_eq h], ?_, ⟨?_, ?_⟩, by rw [hday, dayOfDate_eq h]⟩
  · split <;> omega
  · have hk := h.day
    unfold monthOfDay
    omega
  · refine day_le_monthLength h.day fun hlast => ?_
    subst hlast
    exact isLeapYear_of_last h

/-- Years of four digits are far from the ends of the calendar. -/
theorem dayOfDate_bounds {year month day : Int} (hyear : 0 ≤ year ∧ year < 10000) (hmonth : 1 ≤ month ∧ month ≤ 12)
    (hday : 1 ≤ day ∧ day ≤ 31) : -1000000 ≤ dayOfDate year month day ∧ dayOfDate year month day ≤ 4000000 := by
  unfold dayOfDate
  simp only
  split <;> split <;> omega

theorem inRange_iff {day : Int} : inRange day = true ↔ -96465292 ≤ day ∧ day ≤ 95026236 := by
  have hfirst : firstDay = -96465292 := rfl
  have hlast : lastDay = 95026236 := rfl
  simp [inRange, hfirst, hlast]

end PigChain.DateTime
