import Mathlib.Order.Monotone.Basic
import Mathlib.Algebra.Order.Group.Unbundled.Int
import Mathlib.Algebra.Order.SuccPred
import Mathlib.Order.SuccPred.Archimedean
import Mathlib.Tactic.IntervalCases
import Mathlib.Data.Int.ConditionallyCompleteOrder

/-! The calendar of Go's `time` package in UTC, which is the Gregorian one, extended to all years. Days are counted from
    1 January of year 1, and minutes from the Unix epoch. -/

namespace Golang

/-! ### Days -/

def isLeap (year : Int) : Bool := year % 4 = 0 && (year % 100 ≠ 0 || year % 400 = 0)

/-- The days before 1 January of a year. -/
def daysBeforeYear (year : Int) : Int := 365 * (year - 1) + (year - 1) / 4 - (year - 1) / 100 + (year - 1) / 400

/-- The days of a year before the month, January being 0. -/
def daysBeforeMonth (leap : Bool) (month : Int) : Int :=
  let days := if month ≤ 0 then 0 else if month = 1 then 31 else if month = 2 then 59 else if month = 3 then 90
    else if month = 4 then 120 else if month = 5 then 151 else if month = 6 then 181 else if month = 7 then 212
    else if month = 8 then 243 else if month = 9 then 273 else if month = 10 then 304
      else if month = 11 then 334 else 365
  if leap ∧ 2 ≤ month then days + 1 else days

/-- The first day of a month, counting months from January of year 0. -/
def monthStart (k : Int) : Int := daysBeforeYear (k / 12) + daysBeforeMonth (isLeap (k / 12)) (k % 12)

/-- The day of `time.Date`: a month beyond the year is one of a later year, a day beyond the month one of a
later month. -/
def dayNumber (year month day : Int) : Int := monthStart (12 * year + (month - 1)) + (day - 1)

/-- The year of a day, by its cycles of 400, 100, 4 years and one year. -/
def yearOf (n : Int) : Int :=
  let century := min (n % 146097 / 36524) 3
  let inCentury := n % 146097 - 36524 * century
  400 * (n / 146097) + 100 * century + 4 * (inCentury / 1461) + min (inCentury % 1461 / 365) 3 + 1

/-- The last of the months `0 .. m` that starts by the day `inYear` of the year. -/
def monthUpTo (leap : Bool) (inYear : Int) : Nat → Int
  | 0 => 0
  | m + 1 => if daysBeforeMonth leap (m + 1) ≤ inYear then m + 1 else monthUpTo leap inYear m

/-- The month of the day, counted as in `monthStart`. -/
def monthIndex (n : Int) : Int := 12 * yearOf n + monthUpTo (isLeap (yearOf n)) (n - daysBeforeYear (yearOf n)) 11

theorem daysBeforeYear_succ (y : Int) : daysBeforeYear (y + 1) = daysBeforeYear y + 365 +
    if isLeap y then 1 else 0 := by
  simp only [daysBeforeYear, isLeap, Bool.and_eq_true, Bool.or_eq_true, decide_eq_true_eq]
  split <;> omega

/-- The cycles of a day: of 400, 100, 4 years, one year, and the day in the year. -/
theorem exists_cycles (n : Int) : ∃ a c q v w, n = 146097 * a + 36524 * c + 1461 * q + 365 * v + w ∧
    yearOf n = 400 * a + 100 * c + 4 * q + v + 1 ∧ (0 ≤ c ∧ c ≤ 3) ∧ (0 ≤ q ∧ q ≤ 24) ∧ (0 ≤ v ∧ v ≤ 3) ∧ 0 ≤ w ∧
    (w < 365 ∨ w = 365 ∧ v = 3 ∧ (q < 24 ∨ c = 3)) := by
  have century : ∃ c, c = min (n % 146097 / 36524) 3 ∧ (0 ≤ c ∧ c ≤ 3) ∧ 0 ≤ n % 146097 - 36524 * c ∧
      (n % 146097 - 36524 * c < 36524 ∨ c = 3 ∧ n % 146097 - 36524 * c < 36525) :=
        ⟨_, rfl, by omega, by omega, by omega⟩
  obtain ⟨c, hc, boundC, low, high⟩ := century
  have fourth : ∃ q s, q = (n % 146097 - 36524 * c) / 1461 ∧ s = (n % 146097 - 36524 * c) % 1461 ∧ (0 ≤ q ∧ q ≤ 24) ∧
      (0 ≤ s ∧ s < 1461) ∧ n % 146097 - 36524 * c = 1461 * q + s := ⟨_, _, rfl, rfl, by omega, by omega, by omega⟩
  obtain ⟨q, s, hq, hs, boundQ, boundS, whole⟩ := fourth
  have single : ∃ v w, v = min (s / 365) 3 ∧ (0 ≤ v ∧ v ≤ 3) ∧ 0 ≤ w ∧ (w < 365 ∨ w = 365 ∧ v = 3) ∧ s = 365 * v + w :=
    ⟨_, s - 365 * min (s / 365) 3, rfl, by omega, by omega, by omega, by omega⟩
  obtain ⟨v, w, hv, boundV, boundW, last, rfl⟩ := single
  refine ⟨n / 146097, c, q, v, w, by omega, ?_, boundC, boundQ, boundV, boundW, by omega⟩
  simp only [yearOf, ← hc, ← hq, ← hs, ← hv]

/-- A day lies in its year. -/
theorem yearOf_spec (n : Int) : daysBeforeYear (yearOf n) ≤ n ∧ n < daysBeforeYear (yearOf n + 1) := by
  obtain ⟨a, c, q, v, w, day, year, hc, hq, hv, hw, last⟩ := exists_cycles n
  have quarter : (400 * a + 100 * c + 4 * q + v) / 4 = 100 * a + 25 * c + q := by omega
  have hundredth : (400 * a + 100 * c + 4 * q + v) / 100 = 4 * a + c := by omega
  have cycles : (400 * a + 100 * c + 4 * q + v) / 400 = a := by omega
  have first : daysBeforeYear (yearOf n) = 146097 * a + 36524 * c + 1461 * q + 365 * v := by
    rw [year, daysBeforeYear, Int.add_sub_cancel, quarter, hundredth, cycles]
    omega
  refine ⟨by omega, ?_⟩
  rw [daysBeforeYear_succ, first]
  rcases last with inCommon | ⟨inLeap, third, often⟩
  · split <;> omega
  · have leap : isLeap (yearOf n) = true := by
      clear * - year third often hq
      subst third
      simp only [isLeap, year, Bool.and_eq_true, Bool.or_eq_true, decide_eq_true_eq]
      refine ⟨by omega, ?_⟩
      by_cases early : q < 24
      · have rest : (400 * a + 100 * c + 4 * q + 3 + 1) % 100 = 4 * q + 4 := by omega
        exact Or.inl (by omega)
      · obtain ⟨rfl, rfl⟩ : q = 24 ∧ c = 3 := by omega
        exact Or.inr (by omega)
    rw [if_pos leap]
    clear * - day inLeap
    omega

/-- The months of a year, and the first month after it. -/
theorem monthStart_eq (year : Int) {month : Int} (h : 0 ≤ month ∧ month ≤ 12) :
    monthStart (12 * year + month) = daysBeforeYear year + daysBeforeMonth (isLeap year) month := by
  rcases (by omega : month = 12 ∨ month < 12) with rfl | inYear
  · have year' : (12 * year + 12) / 12 = year + 1 := by omega
    have month' : (12 * year + 12) % 12 = 0 := by omega
    have next := daysBeforeYear_succ year
    rw [monthStart, year', month', next]
    cases isLeap year <;> simp [daysBeforeMonth, Int.add_assoc]
  · have year' : (12 * year + month) / 12 = year := by omega
    have month' : (12 * year + month) % 12 = month := by omega
    rw [monthStart, year', month']

theorem monthStart_lt_succ (k : Int) : monthStart k < monthStart (k + 1) := by
  obtain ⟨y, m, hm, rfl⟩ : ∃ y m, (0 ≤ m ∧ m < 12) ∧ k = 12 * y + m := ⟨k / 12, k % 12, by omega, by omega⟩
  rw [Int.add_assoc, monthStart_eq y ⟨hm.1, hm.2.le⟩, monthStart_eq y (by omega)]
  obtain ⟨low, high⟩ := hm
  interval_cases m <;> cases isLeap y <;> simp [daysBeforeMonth]

theorem monthStart_strictMono : StrictMono monthStart := strictMono_int_of_lt_succ monthStart_lt_succ

theorem monthUpTo_spec {leap : Bool} {inYear : Int} (low : 0 ≤ inYear) :
    ∀ {m : Nat}, inYear < daysBeforeMonth leap (m + 1) → (0 ≤ monthUpTo leap inYear m ∧ monthUpTo leap inYear m ≤ m) ∧
      daysBeforeMonth leap (monthUpTo leap inYear m) ≤ inYear ∧
      inYear < daysBeforeMonth leap (monthUpTo leap inYear m + 1)
  | 0, high => by
    have january : daysBeforeMonth leap 0 = 0 := by cases leap <;> rfl
    exact ⟨⟨le_rfl, le_rfl⟩, january.trans_le low, high⟩
  | m + 1, high => by
    rw [monthUpTo]
    split
    · rename_i reached
      exact ⟨by omega, reached, high⟩
    · rename_i before
      obtain ⟨bounds, spec⟩ := monthUpTo_spec low (m := m) (not_le.mp before)
      exact ⟨by omega, spec⟩

/-- A day lies in its month, and that in its year. -/
theorem monthIndex_spec (n : Int) : (monthStart (monthIndex n) ≤ n ∧ n < monthStart (monthIndex n + 1)) ∧
    monthIndex n / 12 = yearOf n := by
  obtain ⟨first, last⟩ := yearOf_spec n
  have year : n - daysBeforeYear (yearOf n) < daysBeforeMonth (isLeap (yearOf n)) (11 + 1) := by
    rw [daysBeforeYear_succ] at last
    cases hl : isLeap (yearOf n) <;> simp [hl] at last <;> simp [daysBeforeMonth] <;> omega
  obtain ⟨bounds, low, high⟩ := monthUpTo_spec (m := 11) (by omega) year
  rw [monthIndex, Int.add_assoc, monthStart_eq _ (by omega), monthStart_eq _ (by omega)]
  omega

/-- The month of a day is the one it lies in. -/
theorem monthIndex_eq {n k : Int} (h : monthStart k ≤ n ∧ n < monthStart (k + 1)) : monthIndex n = k := by
  obtain ⟨⟨first, last⟩, -⟩ := monthIndex_spec n
  have below : monthIndex n < k + 1 := monthStart_strictMono.lt_iff_lt.mp (first.trans_lt h.2)
  have above : k < monthIndex n + 1 := monthStart_strictMono.lt_iff_lt.mp (h.1.trans_lt last)
  omega

/-! ### Minutes -/

/-- 1 January 1970 -/
def unixDay : Int := 719162

/-- The day of a minute. -/
def dayOf (c : Int) : Int := c / 1440 + unixDay

/-- `Year()` -/
def yearAt (c : Int) : Int := yearOf (dayOf c)

/-- `Month()` -/
def monthAt (c : Int) : Int := monthIndex (dayOf c) % 12 + 1

/-- `Day()` -/
def dayAt (c : Int) : Int := dayOf c - monthStart (monthIndex (dayOf c)) + 1

/-- `Weekday()`, Sunday being 0 -/
def weekdayAt (c : Int) : Int := (dayOf c + 1) % 7

/-- `Hour()` -/
def hourAt (c : Int) : Int := c % 1440 / 60

/-- `Minute()` -/
def minuteAt (c : Int) : Int := c % 60

/-- `time.Date(year, month, day, hour, minute, 0, 0, time.UTC)` -/
def dateAt (year month day hour minute : Int) : Int := (dayNumber year month day - unixDay) * 1440 + 60 * hour + minute

/-- `AddDate(years, 0, 0)` -/
def addYears (c years : Int) : Int := dateAt (yearAt c + years) (monthAt c) (dayAt c) (hourAt c) (minuteAt c)

variable {c c' : Int}

theorem monthIndex_dayOf (c : Int) : monthIndex (dayOf c) = 12 * yearAt c + (monthAt c - 1) := by
  rw [yearAt, monthAt, ← (monthIndex_spec _).2]
  omega

/-- Some years later the date is that of the minute, moved by the days of the years between. -/
theorem addYears_eq (c years : Int) :
    addYears c years = c + (monthStart (monthIndex (dayOf c) + 12 * years) - monthStart
      (monthIndex (dayOf c))) * 1440 := by
  have index : 12 * (yearAt c + years) + (monthAt c - 1) = monthIndex (dayOf c) + 12 * years := by
    rw [monthIndex_dayOf]
    omega
  rw [addYears, dateAt, dayNumber, index, dayAt, hourAt, minuteAt]
  simp only [dayOf]
  omega

theorem lt_addYears (c : Int) {years : Int} (h : 0 < years) : c < addYears c years := by
  have later := monthStart_strictMono (show monthIndex (dayOf c) < monthIndex (dayOf c) + 12 * years by omega)
  rw [addYears_eq]
  omega

/-- The first minute of the next month. -/
theorem nextMonth_eq : dateAt (yearAt c) (monthAt c + 1) 1 0 0 =
    (monthStart (monthIndex (dayOf c) + 1) - unixDay) * 1440 := by
  have index : 12 * yearAt c + (monthAt c + 1 - 1) = monthIndex (dayOf c) + 1 := by
    rw [monthIndex_dayOf]
    omega
  rw [dateAt, dayNumber, index]
  omega

/-- The first minute of the next day. -/
theorem nextDay_eq : dateAt (yearAt c) (monthAt c) (dayAt c + 1) 0 0 = (c / 1440 + 1) * 1440 := by
  rw [dateAt, dayNumber, ← monthIndex_dayOf, dayAt, dayOf]
  omega

theorem lt_nextMonth : c < dateAt (yearAt c) (monthAt c + 1) 1 0 0 := by
  have month := (monthIndex_spec (dayOf c)).1.2
  rw [nextMonth_eq]
  simp only [dayOf] at month ⊢
  omega

theorem monthAt_eq (h : c ≤ c') (before : c' < dateAt (yearAt c) (monthAt c + 1) 1 0 0) : monthAt c' = monthAt c := by
  have month := (monthIndex_spec (dayOf c)).1
  rw [nextMonth_eq] at before
  have same : monthIndex (dayOf c') = monthIndex (dayOf c) := by
    refine monthIndex_eq ⟨month.1.trans ?_, ?_⟩
    · simp only [dayOf]
      omega
    · simp only [dayOf] at month before ⊢
      omega
  rw [monthAt, monthAt, same]

theorem lt_nextDay : c < dateAt (yearAt c) (monthAt c) (dayAt c + 1) 0 0 := by
  rw [nextDay_eq]
  omega

theorem dayOf_eq (h : c ≤ c') (before : c' < dateAt (yearAt c) (monthAt c) (dayAt c + 1) 0 0) : dayOf c' = dayOf c := by
  rw [nextDay_eq] at before
  simp only [dayOf]
  omega

end Golang
