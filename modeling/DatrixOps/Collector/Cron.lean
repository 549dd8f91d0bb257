import Mathlib.Tactic.Ring
import DatrixOps.Golang.Strings
import DatrixOps.Golang.Calendar

/-! The cron jobs of a host as the agent lists them: the lines of a crontab, the schedule of each, and when it
    runs next. Minutes and instants are counted from the Unix epoch, an instant in nanoseconds. -/

namespace DatrixOps
namespace Cron
open Golang

/-! ### Schedules -/

structure CronSchedule where
  minutes : List Int
  hours : List Int
  daysOfMonth : List Int
  months : List Int
  daysOfWeek : List Int
  dayOfMonthWildcard : Bool
  dayOfWeekWildcard : Bool
  deriving DecidableEq, Repr

def CronSchedule.dayMatches (schedule : CronSchedule) (c : Int) : Bool :=
  if !schedule.dayOfMonthWildcard && !schedule.dayOfWeekWildcard then
    dayAt c ∈ schedule.daysOfMonth || weekdayAt c ∈ schedule.daysOfWeek
  else dayAt c ∈ schedule.daysOfMonth && weekdayAt c ∈ schedule.daysOfWeek

/-- A sum in 64 bits. -/
def int64 (n : Int) : Int := (n + 2 ^ 63) % 2 ^ 64 - 2 ^ 63

/-- `for value := start; value <= end; value += step`, the sum being one of 64 bits. No field of a schedule has it go on
    for as long as the rounds that are looked at here. -/
def rangeValues (start end_ step : Int) : List Int :=
  ((List.range 128).map fun i : Nat => int64 (start + (i : Int) * step)).takeWhile (· ≤ end_)

section
variable {start end_ step : Int}

/-- The round that ends the loop, when the sums stay below the largest number. -/
theorem round_of_short (first : 0 ≤ start) (last : end_ ≤ 59) (order : start ≤ end_) (pos : 0 < step)
    (short : step < 2 ^ 63 - 59) :
    ∃ k : Nat, k < 128 ∧ (k : Int) = (end_ - start) / step + 1 ∧
      (∀ i : Nat, i ≤ k → int64 (start + i * step) = start + i * step) ∧
      (∀ i : Nat, i < k → start + i * step ≤ end_) ∧ end_ < start + k * step := by
  obtain ⟨k, hk⟩ : ∃ k : Nat, (k : Int) = (end_ - start) / step + 1 :=
    ⟨((end_ - start) / step + 1).toNat,
      Int.toNat_of_nonneg (Int.add_nonneg (Int.ediv_nonneg (by omega) pos.le) (by decide))⟩
  have few : (end_ - start) / step ≤ end_ - start := Int.ediv_le_self _ (by omega)
  have low : (end_ - start) / step * step ≤ end_ - start := Int.ediv_mul_le _ pos.ne'
  have high : end_ - start < ((end_ - start) / step + 1) * step := Int.lt_ediv_add_one_mul_self _ pos
  have bound (i : Nat) (hi : i < k) : start + i * step ≤ end_ := by
    have steps : (i : Int) * step ≤ (end_ - start) / step * step := Int.mul_le_mul_of_nonneg_right (by omega) pos.le
    omega
  refine ⟨k, by omega, hk, fun i hi => ?_, bound, by rw [hk]; omega⟩
  have nonneg := Int.mul_nonneg (Int.natCast_nonneg i) pos.le
  have fits : (i : Int) * step ≤ (end_ - start) / step * step + step := by
    have steps : (i : Int) * step ≤ ((end_ - start) / step + 1) * step :=
      Int.mul_le_mul_of_nonneg_right (by omega) pos.le
    rwa [Int.add_mul, Int.one_mul] at steps
  unfold int64
  omega

/-- The rounds that are looked at are enough. -/
theorem rangeValues_ends (first : 0 ≤ start) (last : end_ ≤ 59) (order : start ≤ end_) (pos : 0 < step)
    (fits : step < 2 ^ 63) :
    ∃ i : Nat, i < 128 ∧ end_ < int64 (start + i * step) := by
  by_cases short : step < 2 ^ 63 - 59
  · obtain ⟨k, hk, -, value, -, above⟩ := round_of_short first last order pos short
    exact ⟨k, hk, by rw [value k le_rfl]; exact above⟩
  · -- the sum passes the largest number every other round, and comes back lower each time
    obtain ⟨k, rfl⟩ : ∃ k, step = 2 ^ 63 - k := ⟨2 ^ 63 - step, by omega⟩
    obtain ⟨q, hq⟩ : ∃ q, q = (start + k) / (2 * k) := ⟨_, rfl⟩
    have low : q * (2 * k) ≤ start + k := hq ▸ Int.ediv_mul_le _ (by omega)
    have high : start + k < (q + 1) * (2 * k) := hq ▸ Int.lt_ediv_add_one_mul_self _ (by omega)
    have nonneg : 0 ≤ q := hq ▸ Int.ediv_nonneg (by omega) (by omega)
    have few : q ≤ 59 := by
      have half : q * 2 ≤ q * (2 * k) := Int.mul_le_mul_of_nonneg_left (by omega) nonneg
      omega
    obtain ⟨i, rfl⟩ := Int.eq_ofNat_of_zero_le nonneg
    refine ⟨2 * i + 1, by omega, ?_⟩
    have rounds : ((2 * i + 1 : Nat) : Int) * (2 ^ 63 - k) = i * 2 ^ 64 + 2 ^ 63 - (i * (2 * k) + k) := by
      push_cast
      ring
    have twice : ((i : Int) + 1) * (2 * k) = i * (2 * k) + 2 * k := by ring
    rw [rounds]
    unfold int64
    omega

end

/-- The base of a part and its step. -/
def splitStep (part : List Char) : Option (List Char × Int) :=
  if '/' ∈ part then
    match split '/' part with
    | [base, text] => do
      let step ← atoi text
      if 0 < step then some (base, step) else none
    | _ => none
  else some (part, 1)

def baseBounds (minValue maxValue : Int) (base : List Char) : Option (Int × Int) :=
  if base = ['*'] then some (minValue, maxValue)
  else if '-' ∈ base then
    match split '-' base with
    | [first, last] => do some (← atoi first, ← atoi last)
    | _ => none
  else (atoi base).map fun value => (value, value)

/-- One part of a field, between its commas. -/
def parseCronPart (minValue maxValue : Int) (part : List Char) : Option (List Int) := do
  let part := trimSpace part
  if part = [] then none
  else
    let (base, step) ← splitStep part
    let (start, end_) ← baseBounds minValue maxValue base
    if start < minValue ∨ end_ > maxValue ∨ start > end_ then none
    else some (rangeValues start end_ step)

/-- The values of a field, and whether it is a lone star. -/
def parseCronField (field : List Char) (minValue maxValue : Int) : Option (List Int × Bool) := do
  let parts ← (split ',' field).mapM (parseCronPart minValue maxValue)
  guard (parts.flatten ≠ [])
  some (parts.flatten, decide (trimSpace field = ['*']))

/-- The schedule that a name stands for. -/
def expandMacro (schedule : List Char) : List Char :=
  let name := trimSpace schedule
  if name = "@hourly".toList then "0 * * * *".toList
  else if name = "@daily".toList ∨ name = "@midnight".toList then "0 0 * * *".toList
  else if name = "@weekly".toList then "0 0 * * 0".toList
  else if name = "@monthly".toList then "0 0 1 * *".toList
  else if name = "@yearly".toList ∨ name = "@annually".toList then "0 0 1 1 *".toList
  else schedule

def parseCronSchedule (schedule : List Char) : Option CronSchedule :=
  match fields (expandMacro schedule) with
  | [minute, hour, dayOfMonth, month, dayOfWeek] => do
    let (minutes, _) ← parseCronField minute 0 59
    let (hours, _) ← parseCronField hour 0 23
    let (daysOfMonth, dayOfMonthWildcard) ← parseCronField dayOfMonth 1 31
    let (months, _) ← parseCronField month 1 12
    let (dayNumbers, dayOfWeekWildcard) ← parseCronField dayOfWeek 0 7
    some {
      minutes := minutes, hours := hours, daysOfMonth := daysOfMonth, months := months
      daysOfWeek := dayNumbers.map fun day => if day = 7 then 0 else day
      dayOfMonthWildcard := dayOfMonthWildcard, dayOfWeekWildcard := dayOfWeekWildcard }
  | _ => none

/-! ### The next run -/

/-- The first minute of the next month. -/
def nextMonth (c : Int) : Int := dateAt (yearAt c) (monthAt c + 1) 1 0 0

/-- The first minute of the next day. -/
def nextDay (c : Int) : Int := dateAt (yearAt c) (monthAt c) (dayAt c + 1) 0 0

/-- `Add(time.Hour).Truncate(time.Hour)` -/
def nextHour (c : Int) : Int := (c + 60) / 60 * 60

theorem lt_nextHour (c : Int) : c < nextHour c := by
  unfold nextHour
  omega

/-- The loop of nextCronRun. -/
def search (parsed : CronSchedule) (limit cursor : Int) : Option Int :=
  if cursor ≤ limit then
    if monthAt cursor ∉ parsed.months then search parsed limit (nextMonth cursor)
    else if parsed.dayMatches cursor = false then search parsed limit (nextDay cursor)
    else if hourAt cursor ∉ parsed.hours then search parsed limit (nextHour cursor)
    else if minuteAt cursor ∈ parsed.minutes then some cursor
    else search parsed limit (cursor + 1)
  else none
termination_by (limit + 1 - cursor).toNat
decreasing_by
  · have later : cursor < nextMonth cursor := lt_nextMonth
    omega
  · have later : cursor < nextDay cursor := lt_nextDay
    omega
  · have later := lt_nextHour cursor
    omega
  · omega

/-- The first minute after an instant. -/
def minuteAfter (after : Int) : Int := after / 60000000000 + 1

def nextCronRun (schedule : List Char) (after : Int) : Option Int := do
  let parsed ← parseCronSchedule schedule
  search parsed (addYears (minuteAfter after) 1) (minuteAfter after)

/-! ### Crontabs -/

structure CronJob where
  id : List Char
  source : List Char
  owner : List Char
  schedule : List Char
  command : List Char
  enabled : Bool
  nextRunAt : Option Int
  deriving DecidableEq

/-- `strings.Join(words, " ")` -/
def joinWords (words : List (List Char)) : List Char := [' '].intercalate words

section
-- `fmt.Sprintf("%x", sha256.Sum256(..))` of a text
variable (hexDigest : List Char → List Char)

/-- A line of a crontab, at the instant its job is listed. -/
def parseCronLine (source defaultOwner : List Char) (systemFormat : Bool) (now : Int) (rawLine : List Char) :
    Option CronJob :=
  let line := trimSpace rawLine
  if line = [] ∨ ['#'] <+: line ∨ '=' ∈ line.takeWhile (· ≠ ' ') then none
  else
    let words := fields line
    let scheduleFields := if ['@'] <+: line then 1 else 5
    if words.length < scheduleFields then none
    else
      let commandIndex := if systemFormat then scheduleFields + 1 else scheduleFields
      let owner := if systemFormat then words.getD scheduleFields defaultOwner else defaultOwner
      if words.length ≤ commandIndex then none
      else
        let schedule := joinWords (words.take scheduleFields)
        let command := joinWords (words.drop commandIndex)
        some {
          id := hexDigest (source ++ '\x00' :: owner ++ '\x00' :: schedule ++ '\x00' :: command)
          source := source, owner := owner, schedule := schedule, command := command, enabled := true
          nextRunAt := nextCronRun schedule now }

/-- The jobs of a crontab. `clock` says when each line is read. -/
def parseCronFile (content source defaultOwner : List Char) (systemFormat : Bool) (clock : Nat → Int) : List CronJob :=
  (split '\n' content).zipIdx.filterMap fun (rawLine, n) =>
    parseCronLine hexDigest source defaultOwner systemFormat (clock n) rawLine

end

end Cron
end DatrixOps
