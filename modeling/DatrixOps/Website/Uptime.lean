import DatrixOps.Golang.Calendar
import DatrixOps.Golang.Math
import DatrixOps.Golang.Strings
import DatrixOps.Website.Rollup

/-! The uptime summary of a user's websites: a bar for each day, and the mean. Days are counted from 1 January
of year 1. -/

namespace DatrixOps
namespace Uptime
open Golang Postgres

attribute [local instance] Arithmetic.binary64

/-- A row of `websites`, as far as the summary goes. -/
structure Website where
  id : Uuid
  name : String
  url : String
  status : String
  createdAt : Time
  deriving DecidableEq

inductive BarStatus where
  | rolledUp (status : RollupStatus)
  | noData
  deriving DecidableEq

structure UptimeDayBar where
  date : Int
  status : BarStatus
  uptimePct : ℚ
  downtimeSeconds : Int
  avgLatencyMs : ℚ
  incidentTitle : String
  deriving DecidableEq

structure UptimeSummaryItem where
  id : Uuid
  name : String
  url : String
  currentStatus : String
  overallUptimePct : ℚ
  days : List UptimeDayBar
  deriving DecidableEq

structure UptimeSummaryResponse where
  startDate : Int
  endDate : Int
  daysCount : Nat
  items : List UptimeSummaryItem

/-! ### The range -/

/-- `time.Parse("2006-01-02", s)` -/
def parseDate (s : List Char) : Option Int :=
  match s with
  | [y₁, y₂, y₃, y₄, '-', m₁, m₂, '-', d₁, d₂] => do
    let year ← digits [y₁, y₂, y₃, y₄]
    let month ← digits [m₁, m₂]
    let day ← digits [d₁, d₂]
    guard (1 ≤ month ∧ month ≤ 12 ∧ 1 ≤ day ∧ dayNumber year month day < dayNumber year (month + 1) 1)
    return dayNumber year month day
  | _ => none

def daysOf (days : Int) : Nat := if days ≤ 0 then 90 else if 365 < days then 365 else days.toNat

/-- The day of an instant in UTC. -/
def utcDay (t : Time) : Int := currentDate t + unixDay

/-- The last day: the one asked for, or today. The first day there is stands for none. -/
def endDay (now : Time) (endDate : List Char) : Int := ((parseDate endDate).filter (· ≠ 0)).getD (utcDay now)

def startDay (now : Time) (days : Int) (endDate : List Char) : Int := endDay now endDate - (daysOf days - 1)

/-! ### The rows -/

/-- What the two queries come to: the websites of the user, newest first, and the rows of roll-ups that
    arrive, or an error. That the connection breaks down after some rows goes unnoticed. -/
structure Answers where
  websites : Except String (List Website)
  arrived : Except String (RollupKey → Bool)

/-- A row as it is scanned. -/
def scanned (r : DailyUptimeRollup) : DailyUptimeRollup :=
  { r with uptimePct := rounded r.uptimePct, avgLatencyMs := rounded r.avgLatencyMs }

section
variable (rows : RollupKey → Option DailyUptimeRollup) (answers : Answers)

/-- The row of a key, if it arrives. -/
def readRow (arrived : RollupKey → Bool) (key : RollupKey) : Option DailyUptimeRollup :=
  if arrived key then (rows key).map scanned else none

/-- GetUptimeRollups, by id and day. The database has no day before 1 January of year 1. -/
def getUptimeRollups (entityType : String) (entityIds : List Uuid) (startDate endDate : Int) :
    Except String (Uuid → Int → Option DailyUptimeRollup) :=
  if entityIds = [] then .ok fun _ _ => none
  else if startDate < 0 then .error "date/time field value out of range"
  else answers.arrived.map fun arrived entityId date =>
    if entityId ∈ entityIds ∧ startDate ≤ date ∧ date ≤ endDate then
      readRow rows arrived ⟨entityType, entityId, date - unixDay⟩ else none

end

/-! ### One website -/

def recordedBar (date : Int) (r : DailyUptimeRollup) : UptimeDayBar :=
  ⟨date, .rolledUp r.status, r.uptimePct, r.downtimeSeconds, r.avgLatencyMs, r.incidentTitle.getD ""⟩

def noDataBar (date : Int) : UptimeDayBar := ⟨date, .noData, 100, 0, 0, ""⟩

def operationalBar (date : Int) : UptimeDayBar := ⟨date, .rolledUp .operational, 100, 0, 45, ""⟩

/-- The loop's variables: the bars, the sum and the number of the days that are scored. -/
structure Scores where
  dayBars : List UptimeDayBar := []
  totalUptimeSum : ℚ := 0
  scoredDays : Nat := 0

/-- One round of the loop over the days. -/
def scoreDay (rollups : Int → Option DailyUptimeRollup) (createdDate : Int) (scores : Scores)
    (curDate : Int) : Scores :=
  match rollups curDate with
  | some r => ⟨scores.dayBars ++ [recordedBar curDate r], rounded (scores.totalUptimeSum + r.uptimePct),
    scores.scoredDays + 1⟩
  | none =>
    if curDate < createdDate then { scores with dayBars := scores.dayBars ++ [noDataBar curDate] }
    else ⟨scores.dayBars ++ [operationalBar curDate], rounded (scores.totalUptimeSum + 100), scores.scoredDays + 1⟩

/-- The days of a range. -/
def range (start : Int) (days : Nat) : List Int := (List.range days).map fun d : Nat => start + (d : Int)

def overallPct (scores : Scores) : ℚ :=
  if 0 < scores.scoredDays then
    rounded (mathRound (rounded (rounded (scores.totalUptimeSum / ofInt scores.scoredDays) * 100)) / 100)
  else 100

/-- The item of a website, which was created on a day as the server's own zone has it. -/
def summaryItem (w : Website) (rollups : Int → Option DailyUptimeRollup) (createdDate start : Int) (days : Nat) :
    UptimeSummaryItem :=
  let scores := (range start days).foldl (scoreDay rollups createdDate) {}
  ⟨w.id, w.name, w.url, w.status, overallPct scores, scores.dayBars⟩

def getUptimeSummary (now : Time) (localDay : Time → Int) (rows : RollupKey → Option DailyUptimeRollup)
    (answers : Answers)
    (days : Int) (endDate : List Char) : Except String UptimeSummaryResponse := do
  let start := startDay now days endDate
  let websites ← answers.websites
  let rollupsByEntity ← getUptimeRollups rows answers "website" (websites.map (·.id)) start (endDay now endDate)
  return {
    startDate := start
    endDate := endDay now endDate
    daysCount := daysOf days
    items := websites.map fun w => summaryItem w (rollupsByEntity w.id) (localDay w.createdAt) start (daysOf days) }

end Uptime
end DatrixOps
