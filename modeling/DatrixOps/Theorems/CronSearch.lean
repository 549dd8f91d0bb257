import Mathlib.Order.Bounds.Defs
import DatrixOps.Collector.Cron

/-! The search of nextCronRun (snapshot.go) against a scan of every minute. Skipping a month, a day or an hour
    passes over minutes of that month, day or hour only, so no match is passed over. -/

namespace DatrixOps
namespace CronSearch
open Golang Cron

/-- The month, day, hour and minute satisfy the schedule. -/
def Matches (parsed : CronSchedule) (c : Int) : Prop :=
  monthAt c ∈ parsed.months ∧ parsed.dayMatches c = true ∧ hourAt c ∈ parsed.hours ∧ minuteAt c ∈ parsed.minutes

instance (parsed : CronSchedule) (c : Int) : Decidable (Matches parsed c) := inferInstanceAs (Decidable (_ ∧ _))

/-- The minutes after an instant, up to and including one calendar year later. -/
def Window (t : Int) : Set Int := Set.Icc (minuteAfter t) (addYears (minuteAfter t) 1)

/-- How the loop goes on from a minute that does not match. -/
inductive Jumps (parsed : CronSchedule) (c : Int) : Int → Prop
  | month (other : monthAt c ∉ parsed.months) : Jumps parsed c (nextMonth c)
  | day (month : monthAt c ∈ parsed.months) (other : parsed.dayMatches c = false) : Jumps parsed c (nextDay c)
  | hour (month : monthAt c ∈ parsed.months) (day : parsed.dayMatches c = true) (other : hourAt c ∉ parsed.hours) :
      Jumps parsed c (nextHour c)
  | minute (month : monthAt c ∈ parsed.months) (day : parsed.dayMatches c = true) (hour : hourAt c ∈ parsed.hours)
      (other : minuteAt c ∉ parsed.minutes) : Jumps parsed c (c + 1)

variable {parsed : CronSchedule} {c c' next limit t : Int}

/-! ### What a jump passes over -/

theorem hourAt_eq (h : c ≤ c') (before : c' < nextHour c) : hourAt c' = hourAt c := by
  simp only [nextHour] at before
  simp only [hourAt]
  omega

theorem dayMatches_eq (h : dayOf c' = dayOf c) : parsed.dayMatches c' = parsed.dayMatches c := by
  have day : dayAt c' = dayAt c := by rw [dayAt, dayAt, h]
  have weekday : weekdayAt c' = weekdayAt c := by rw [weekdayAt, weekdayAt, h]
  rw [CronSchedule.dayMatches, CronSchedule.dayMatches, day, weekday]

theorem Jumps.later (h : Jumps parsed c next) : c < next := by
  cases h with
  | month => exact lt_nextMonth
  | day => exact lt_nextDay
  | hour => exact lt_nextHour c
  | minute => exact lt_add_one c

theorem Jumps.passes (h : Jumps parsed c next) (from_ : c ≤ c') (before : c' < next) : ¬Matches parsed c' := by
  rintro ⟨month, day, hour, minute⟩
  cases h with
  | month other => exact other (monthAt_eq from_ before ▸ month)
  | day _ other =>
    rw [dayMatches_eq (dayOf_eq from_ before), other] at day
    cases day
  | hour _ _ other => exact other (hourAt_eq from_ before ▸ hour)
  | minute _ _ _ other =>
    obtain rfl : c' = c := by omega
    exact other minute

theorem jumps_or_matches (parsed : CronSchedule) (c : Int) : (∃ next, Jumps parsed c next) ∨ Matches parsed c := by
  by_cases month : monthAt c ∈ parsed.months
  · cases day : parsed.dayMatches c with
    | false => exact Or.inl ⟨_, .day month day⟩
    | true =>
      by_cases hour : hourAt c ∈ parsed.hours
      · by_cases minute : minuteAt c ∈ parsed.minutes
        · exact Or.inr ⟨month, day, hour, minute⟩
        · exact Or.inl ⟨_, .minute month day hour minute⟩
      · exact Or.inl ⟨_, .hour month day hour⟩
  · exact Or.inl ⟨_, .month month⟩

/-! ### The loop -/

theorem search_of_jumps (within : c ≤ limit) (h : Jumps parsed c next) :
    search parsed limit c = search parsed limit next := by
  rw [search, if_pos within]
  cases h with
  | month other => rw [if_pos other]
  | day month other => rw [if_neg (not_not.mpr month), if_pos other]
  | hour month day other => rw [if_neg (not_not.mpr month), if_neg (by simp [day]), if_pos other]
  | minute month day hour other =>
    rw [if_neg (not_not.mpr month), if_neg (by simp [day]), if_neg (not_not.mpr hour), if_neg other]

theorem search_of_matches (within : c ≤ limit) (h : Matches parsed c) : search parsed limit c = some c := by
  obtain ⟨month, day, hour, minute⟩ := h
  rw [search, if_pos within, if_neg (not_not.mpr month), if_neg (by simp [day]), if_neg (not_not.mpr hour),
    if_pos minute]

theorem search_of_lt (beyond : limit < c) : search parsed limit c = none := by
  rw [search, if_neg (not_le.mpr beyond)]

/-- The loop returns the first match between its cursor and its limit, if there is one. -/
theorem search_spec (parsed : CronSchedule) (limit cursor : Int) :
    (∃ r, search parsed limit cursor = some r ∧ IsLeast {c | c ∈ Set.Icc cursor limit ∧ Matches parsed c} r) ∨
      search parsed limit cursor = none ∧ ∀ c ∈ Set.Icc cursor limit, ¬Matches parsed c := by
  induction hn : (limit + 1 - cursor).toNat using Nat.strong_induction_on generalizing cursor with
  | _ n ih =>
    by_cases within : cursor ≤ limit
    · rcases jumps_or_matches parsed cursor with ⟨next, jump⟩ | found
      · have later := jump.later
        rw [search_of_jumps within jump]
        rcases ih _ (by omega) next rfl with ⟨r, hr, least⟩ | ⟨hr, none_⟩
        · refine Or.inl ⟨r, hr, ⟨⟨later.le.trans least.1.1.1, least.1.1.2⟩, least.1.2⟩, fun c hc => ?_⟩
          rcases lt_or_ge c next with before | after
          · exact absurd hc.2 (jump.passes hc.1.1 before)
          · exact least.2 ⟨⟨after, hc.1.2⟩, hc.2⟩
        · refine Or.inr ⟨hr, fun c hc => ?_⟩
          rcases lt_or_ge c next with before | after
          · exact jump.passes hc.1 before
          · exact none_ c ⟨after, hc.2⟩
      · exact Or.inl ⟨cursor, search_of_matches within found, ⟨⟨le_rfl, within⟩, found⟩, fun c hc => hc.1.1⟩
    · refine Or.inr ⟨search_of_lt (not_le.mp within), fun c hc => ?_⟩
      exact absurd (hc.1.trans hc.2) within

/-- nextCronRun returns the earliest minute of the window that matches and nothing exactly where the window
    has none; and from every minute its loop goes on to a later one, passing over no match. -/
theorem nextCronRun_first {schedule : List Char} (accepted : parseCronSchedule schedule = some parsed) (t : Int) :
    (∀ r, nextCronRun schedule t = some r ↔ IsLeast {c | c ∈ Window t ∧ Matches parsed c} r) ∧
    (nextCronRun schedule t = none ↔ ∀ c ∈ Window t, ¬Matches parsed c) ∧
    ∀ limit c next, c ≤ limit → Jumps parsed c next →
      search parsed limit c = search parsed limit next ∧ c < next ∧ ∀ c', c ≤ c' → c' < next → ¬Matches parsed c' := by
  have run : nextCronRun schedule t = search parsed (addYears (minuteAfter t) 1) (minuteAfter t) := by
    rw [nextCronRun, accepted]
    rfl
  rw [run]
  refine ⟨?_, ?_, fun limit c next within jump => ⟨search_of_jumps within jump, jump.later, fun c' => jump.passes⟩⟩
  · intro r
    rcases search_spec parsed (addYears (minuteAfter t) 1) (minuteAfter t) with ⟨r', hr, least⟩ | ⟨hr, none_⟩
    · rw [hr, Option.some_inj]
      exact ⟨fun same => same ▸ least, fun other => least.unique other⟩
    · rw [hr]
      exact iff_of_false (by simp) fun least => none_ r least.1.1 least.1.2
  · rcases search_spec parsed (addYears (minuteAfter t) 1) (minuteAfter t) with ⟨r, hr, least⟩ | ⟨hr, none_⟩
    · rw [hr]
      exact iff_of_false (by simp) fun none_ => none_ r least.1.1 least.1.2
    · exact iff_of_true hr none_

theorem nextCronRun_first_hourly : ∃ parsed, parseCronSchedule "@hourly".toList = some parsed ∧
    (nextCronRun "@hourly".toList 0 = none ↔ ∀ c ∈ Window 0, ¬Matches parsed c) := by
  obtain ⟨parsed, accepted⟩ := Option.isSome_iff_exists.mp
    (show (parseCronSchedule "@hourly".toList).isSome = true by decide +kernel)
  exact ⟨parsed, accepted, (nextCronRun_first accepted 0).2.1⟩

end CronSearch
end DatrixOps
