import Mathlib.Tactic.IntervalCases
import Mathlib.Tactic.SplitIfs
import RunMetrics.Calendar

/-!
Dates and days. Counting days is an increasing numbering of the dates that the calendar has, without gaps:
each day has a date, the later of two dates has the greater day, and the day after has the next date.
-/

set_option autoImplicit false

namespace RunMetrics.Calendar

/-- Days from 1 March of year 0 to 1 March of a year. -/
def daysToYear (year : Int) : Int := 365 * year + year / 4 - year / 100 + year / 400

/-- Days from 1 March to the first of a month, months being counted from March. -/
def daysToMonth (month : Nat) : Nat := (153 * month + 2) / 5

/-- The number of a month that is counted from March. -/
def monthFromMarch (month : Nat) : Nat := if month < 10 then month + 3 else month - 9

theorem daysInMonth_bounds (year : Int) (month : Nat) :
    28 ≤ daysInMonth year month ∧ daysInMonth year month ≤ 31 := by
  simp only [daysInMonth]
  split_ifs <;> omega

/-- From one March to the next there are eleven months and a February. -/
theorem daysToYear_add_one (year : Int) :
    daysToYear (year + 1) = daysToYear year + daysToMonth 11 + daysInMonth (year + 1) 2 := by
  simp only [daysToYear, daysToMonth, daysInMonth, isLeapYear, decide_eq_true_eq, ↓reduceIte]
  split <;> omega

theorem daysToYear_le {y z : Int} (ordered : y ≤ z) : daysToYear y ≤ daysToYear z := by
  simp only [daysToYear]
  omega

theorem daysToMonth_le {m n : Nat} (ordered : m ≤ n) : daysToMonth m ≤ daysToMonth n := by
  simp only [daysToMonth]
  omega

theorem daysToMonth_add_one (year : Int) {month : Nat} (early : month < 11) :
    daysToMonth (month + 1) = daysToMonth month + daysInMonth year (monthFromMarch month) := by
  interval_cases month <;> rfl

namespace Date

instance (d : Date) : Decidable d.Valid := inferInstanceAs (Decidable (_ ∧ _ ∧ _ ∧ _))

/-- The year that the date is in if years begin in March. -/
def marchYear (d : Date) : Int := if d.month ≤ 2 then d.year - 1 else d.year

/-- The month, counted from March. -/
def marchMonth (d : Date) : Nat := (d.month + 9) % 12

theorem marchMonth_le (d : Date) : d.marchMonth ≤ 11 := by
  simp only [marchMonth]
  omega

theorem toDays_eq {d : Date} (valid : d.Valid) :
    d.toDays = daysToYear d.marchYear + daysToMonth d.marchMonth + d.day - 1 - epochDay := by
  have day := valid.2.2.1
  simp only [toDays, marchYear, marchMonth, daysToYear, daysToMonth]
  split <;> omega

/-! ### The order of dates -/

/-- Earlier: by year, then by month, then by day. -/
def Before (d e : Date) : Prop :=
  d.year < e.year ∨ d.year = e.year ∧ (d.month < e.month ∨ d.month = e.month ∧ d.day < e.day)

theorem before_or_eq_or_before (d e : Date) : d.Before e ∨ d = e ∨ e.Before d := by
  cases d
  cases e
  simp only [Before, mk.injEq]
  omega

/-- It makes no difference to the order if years begin in March. -/
theorem Before.march {d e : Date} (first : d.Valid) (second : e.Valid) (before : d.Before e) :
    d.marchYear < e.marchYear ∨ d.marchYear = e.marchYear ∧
      (d.marchMonth < e.marchMonth ∨ d.marchMonth = e.marchMonth ∧ d.day < e.day) := by
  obtain ⟨firstLow, firstHigh, -⟩ := first
  obtain ⟨secondLow, secondHigh, -⟩ := second
  simp only [Before, marchYear, marchMonth] at *
  split <;> split <;> omega

theorem Valid.monthFromMarch_marchMonth {d : Date} (valid : d.Valid) :
    monthFromMarch d.marchMonth = d.month := by
  obtain ⟨low, high, -⟩ := valid
  rw [monthFromMarch, marchMonth]
  split_ifs <;> omega

/-- A date is in its month, -/
theorem Valid.day_le_month {d : Date} (valid : d.Valid) (early : d.marchMonth < 11) :
    daysToMonth d.marchMonth + d.day ≤ daysToMonth (d.marchMonth + 1) := by
  rw [daysToMonth_add_one d.year early, valid.monthFromMarch_marchMonth]
  exact Nat.add_le_add_left valid.2.2.2 _

/-- and in its year. -/
theorem Valid.day_le_year {d : Date} (valid : d.Valid) :
    daysToYear d.marchYear + daysToMonth d.marchMonth + d.day ≤ daysToYear (d.marchYear + 1) := by
  rw [daysToYear_add_one]
  rcases Nat.lt_or_ge d.marchMonth 11 with early | late
  · have inMonth := valid.day_le_month early
    have earlier : daysToMonth (d.marchMonth + 1) ≤ daysToMonth 11 := daysToMonth_le early
    omega
  · have last : d.marchMonth = 11 := Nat.le_antisymm d.marchMonth_le late
    have february : d.month = 2 := by
      rw [← valid.monthFromMarch_marchMonth, last]
      rfl
    have year : d.marchYear + 1 = d.year := by
      simp only [marchYear, february]
      omega
    have inMonth := valid.2.2.2
    rw [february] at inMonth
    rw [last, year]
    omega

theorem toDays_lt_of_before {d e : Date} (first : d.Valid) (second : e.Valid)
    (before : d.Before e) : d.toDays < e.toDays := by
  have positive := second.2.2.1
  rw [toDays_eq first, toDays_eq second]
  rcases before.march first second with year | ⟨year, month | ⟨month, day⟩⟩
  · have inYear := first.day_le_year
    have later : daysToYear (d.marchYear + 1) ≤ daysToYear e.marchYear := daysToYear_le year
    omega
  · have inMonth := first.day_le_month (Nat.lt_of_lt_of_le month e.marchMonth_le)
    have later : daysToMonth (d.marchMonth + 1) ≤ daysToMonth e.marchMonth := daysToMonth_le month
    rw [year]
    omega
  · rw [year, month]
    omega

theorem toDays_lt_iff {d e : Date} (first : d.Valid) (second : e.Valid) :
    d.toDays < e.toDays ↔ d.Before e := by
  refine ⟨fun less => ?_, toDays_lt_of_before first second⟩
  rcases before_or_eq_or_before d e with before | rfl | after
  · exact before
  · exact absurd less (Int.lt_irrefl _)
  · exact absurd less (Int.lt_asymm (toDays_lt_of_before second first after))

theorem eq_of_toDays_eq {d e : Date} (first : d.Valid) (second : e.Valid)
    (same : d.toDays = e.toDays) : d = e := by
  rcases before_or_eq_or_before d e with before | equal | after
  · exact absurd same (Int.ne_of_lt (toDays_lt_of_before first second before))
  · exact equal
  · exact absurd same (Int.ne_of_gt (toDays_lt_of_before second first after))

/-! ### The date of a day -/

/-- The date so many days after 1 March of a year. -/
def ofYearDay (year : Int) (inYear : Nat) : Date :=
  let month := (5 * inYear + 2) / 153
  ⟨if monthFromMarch month ≤ 2 then year + 1 else year, monthFromMarch month,
    inYear - daysToMonth month + 1⟩

theorem daysToYear_cycle (cycle year : Int) :
    daysToYear (400 * cycle + year) = 146097 * cycle + daysToYear year := by
  simp only [daysToYear]
  omega

theorem daysToYear_parts {century leapCycle year : Nat} (centuryLe : century ≤ 3)
    (leapCycleLe : leapCycle ≤ 24) (yearLe : year ≤ 3) :
    daysToYear (100 * century + 4 * leapCycle + year : Nat) =
      36524 * century + 1461 * leapCycle + 365 * year := by
  have quarter : (100 * century + 4 * leapCycle + year) / 4 = 25 * century + leapCycle := by omega
  have hundredth : (100 * century + 4 * leapCycle + year) / 100 = century := by omega
  have cycle : (100 * century + 4 * leapCycle + year) / 400 = 0 := by omega
  simp only [daysToYear]
  omega

/-- Centuries, leap cycles and years are taken off a cycle of 400 years one after the other. What is
left is in one year: where centuries and years are capped, that is the leap day. -/
theorem year_of_inCycle {inCycle : Nat} (inside : inCycle < 146097) :
    let century := min (inCycle / 36524) 3
    let inCentury := inCycle - 36524 * century
    let leapCycle := inCentury / 1461
    let inLeapCycle := inCentury % 1461
    let yearInLeapCycle := min (inLeapCycle / 365) 3
    let year : Nat := 100 * century + 4 * leapCycle + yearInLeapCycle
    daysToYear year + (inLeapCycle - 365 * yearInLeapCycle : Nat) = inCycle ∧
      inCycle < daysToYear (year + 1) := by
  intro century inCentury leapCycle inLeapCycle yearInLeapCycle year
  have centuryLe : century ≤ 3 := Nat.min_le_right _ _
  have inCenturyLe : inCentury ≤ 36524 ∧ (century < 3 → inCentury < 36524) := by omega
  have leapCycleLe : leapCycle ≤ 24 := by omega
  have yearLe : yearInLeapCycle ≤ 3 := Nat.min_le_right _ _
  have inLeapCycleLt : yearInLeapCycle < 3 → inLeapCycle < 365 * (yearInLeapCycle + 1) := by omega
  have parts : inCycle = 36524 * century + 1461 * leapCycle + inLeapCycle := by omega
  refine ⟨?_, ?_⟩
  · rw [daysToYear_parts centuryLe leapCycleLe yearLe]
    omega
  -- The next year is in the same leap cycle, or begins the next one, or the next century or cycle.
  · rcases Nat.lt_or_ge yearInLeapCycle 3 with early | last
    · have next := daysToYear_parts centuryLe leapCycleLe early
      have same : (year + 1 : Int) = (100 * century + 4 * leapCycle + (yearInLeapCycle + 1) : Nat) := by
        omega
      rw [same, next]
      omega
    · rcases Nat.lt_or_ge leapCycle 24 with early | late
      · have next := daysToYear_parts centuryLe early (Nat.zero_le 3)
        have same : (year + 1 : Int) = (100 * century + 4 * (leapCycle + 1) + 0 : Nat) := by omega
        rw [same, next]
        omega
      · have same : (year + 1 : Int) = 100 * (century + 1) := by omega
        rw [same, daysToYear]
        omega

/-- The year of a day and the place in it. -/
theorem ofDays_eq (days : Int) :
    ∃ (year : Int) (inYear : Nat), Date.ofDays days = ofYearDay year inYear ∧
      daysToYear year + inYear = days + epochDay ∧
      days + epochDay < daysToYear (year + 1) := by
  have inside : ((days + epochDay) % 146097).toNat < 146097 := by omega
  obtain ⟨place, before⟩ := year_of_inCycle inside
  refine ⟨400 * ((days + epochDay) / 146097) + _, _, rfl, ?_, ?_⟩
  · rw [daysToYear_cycle]
    omega
  · rw [Int.add_assoc, daysToYear_cycle]
    omega

theorem month_of_inYear (inYear : Nat) :
    daysToMonth ((5 * inYear + 2) / 153) ≤ inYear ∧
      inYear < daysToMonth ((5 * inYear + 2) / 153 + 1) := by
  simp only [daysToMonth]
  omega

theorem marchMonth_ofYearDay (year : Int) {inYear : Nat} (inside : inYear ≤ 365) :
    (ofYearDay year inYear).marchMonth = (5 * inYear + 2) / 153 := by
  simp only [ofYearDay, marchMonth, monthFromMarch]
  split_ifs <;> omega

theorem marchYear_ofYearDay (year : Int) (inYear : Nat) :
    (ofYearDay year inYear).marchYear = year := by
  simp only [ofYearDay, marchYear]
  split_ifs <;> omega

theorem inYear_le {year : Int} {inYear : Nat}
    (inside : daysToYear year + inYear < daysToYear (year + 1)) : inYear ≤ 365 := by
  have february : daysInMonth (year + 1) 2 ≤ 29 := by
    simp only [daysInMonth]
    split_ifs <;> omega
  rw [daysToYear_add_one, daysToMonth] at inside
  omega

theorem valid_ofYearDay {year : Int} {inYear : Nat}
    (inside : daysToYear year + inYear < daysToYear (year + 1)) : (ofYearDay year inYear).Valid := by
  have bound := inYear_le inside
  obtain ⟨begun, notOver⟩ := month_of_inYear inYear
  simp only [ofYearDay, Valid]
  generalize counted : (5 * inYear + 2) / 153 = month at *
  have monthLe : month ≤ 11 := by omega
  refine ⟨?_, ?_, Nat.le_add_left 1 _, ?_⟩
  · simp only [monthFromMarch]
    split <;> omega
  · simp only [monthFromMarch]
    split <;> omega
  · rcases Nat.lt_or_ge month 11 with early | late
    · generalize (if monthFromMarch month ≤ 2 then year + 1 else year) = dated
      rw [daysToMonth_add_one dated early] at notOver
      omega
    · obtain rfl : month = 11 := Nat.le_antisymm monthLe late
      have february : monthFromMarch 11 = 2 := rfl
      rw [daysToYear_add_one] at inside
      rw [february, if_pos (Nat.le_refl 2)]
      omega

theorem toDays_ofYearDay {year : Int} {inYear : Nat}
    (inside : daysToYear year + inYear < daysToYear (year + 1)) :
    (ofYearDay year inYear).toDays = daysToYear year + inYear - epochDay := by
  have begun := (month_of_inYear inYear).1
  rw [toDays_eq (valid_ofYearDay inside), marchYear_ofYearDay,
    marchMonth_ofYearDay year (inYear_le inside)]
  simp only [ofYearDay]
  omega

theorem valid_ofDays (days : Int) : (ofDays days).Valid := by
  obtain ⟨year, inYear, same, place, inside⟩ := ofDays_eq days
  rw [same]
  exact valid_ofYearDay (place ▸ inside)

theorem toDays_ofDays (days : Int) : (ofDays days).toDays = days := by
  obtain ⟨year, inYear, same, place, inside⟩ := ofDays_eq days
  rw [same, toDays_ofYearDay (place ▸ inside), place]
  omega

/-! ### From one day to the next -/

/-- The day after: in the same month, or the first of the next month or year. -/
def next (d : Date) : Date :=
  if d.day < daysInMonth d.year d.month then { d with day := d.day + 1 }
  else if d.month < 12 then ⟨d.year, d.month + 1, 1⟩
  else ⟨d.year + 1, 1, 1⟩

theorem Valid.next {d : Date} (valid : d.Valid) : d.next.Valid := by
  obtain ⟨low, high, positive, -⟩ := valid
  have some_day (year : Int) (month : Nat) : 1 ≤ daysInMonth year month :=
    Nat.le_trans (by decide) (daysInMonth_bounds year month).1
  simp only [Date.next]
  split
  · rename_i inMonth
    exact ⟨low, high, Nat.le_add_left 1 _, inMonth⟩
  · split
    · rename_i inYear
      exact ⟨Nat.le_add_left 1 _, inYear, Nat.le_refl 1, some_day _ _⟩
    · exact ⟨Nat.le_refl 1, Nat.le_add_left 1 11, Nat.le_refl 1, some_day _ _⟩

theorem before_next (d : Date) : d.Before d.next := by
  simp only [Date.next, Before]
  split
  · simp
  · split <;> simp

/-- No date is between a day and the day after. -/
theorem next_eq_or_before {d e : Date} (valid : e.Valid) (before : d.Before e) :
    d.next = e ∨ d.next.Before e := by
  obtain ⟨low, high, positive, inMonth⟩ := valid
  have day : d.year = e.year → d.month = e.month → e.day ≤ daysInMonth d.year d.month := by
    intro sameYear sameMonth
    rw [sameYear, sameMonth]
    exact inMonth
  obtain ⟨year, month, last⟩ := e
  dsimp only at low high positive day
  by_cases early : d.day < daysInMonth d.year d.month
  · simp only [Date.next, early, ↓reduceIte, Before, mk.injEq] at before ⊢
    omega
  · by_cases inYear : d.month < 12
    · simp only [Date.next, early, inYear, ↓reduceIte, Before, mk.injEq] at before ⊢
      omega
    · simp only [Date.next, early, inYear, ↓reduceIte, Before, mk.injEq] at before ⊢
      omega

/-- Days follow each other as their dates do. -/
theorem ofDays_add_one (days : Int) : ofDays (days + 1) = (ofDays days).next := by
  have here := valid_ofDays days
  have there := valid_ofDays (days + 1)
  have later : (ofDays days).Before (ofDays (days + 1)) := by
    rw [← toDays_lt_iff here there, toDays_ofDays, toDays_ofDays]
    omega
  rcases next_eq_or_before there later with same | between
  · exact same.symm
  · have first := toDays_lt_of_before here here.next (before_next _)
    have second := toDays_lt_of_before here.next there between
    rw [toDays_ofDays] at first second
    omega

theorem toDays_next {d : Date} (valid : d.Valid) : d.next.toDays = d.toDays + 1 := by
  have same : ofDays d.toDays = d :=
    eq_of_toDays_eq (valid_ofDays _) valid (toDays_ofDays _)
  rw [← toDays_ofDays (d.toDays + 1), ofDays_add_one, same]

end Date

end RunMetrics.Calendar
