import Mathlib.Algebra.BigOperators.Group.Multiset.Basic
import Mathlib.Data.Multiset.Count
import DatrixOps.Postgres.Numeric
import DatrixOps.Postgres.ReadCommitted
import DatrixOps.Server.Rows

/-! The daily roll-up of a website's checks, kept by one upsert a check, and the backfill that computes it
    from the checks recorded. -/

namespace DatrixOps
open Postgres Prog

inductive RollupStatus where
  | operational | degraded | outage
  deriving DecidableEq

/-- The unique key of `daily_uptime_rollups`. -/
structure RollupKey where
  entityType : String
  entityId : Uuid
  date : Int
  deriving DecidableEq

structure DailyUptimeRollup where
  uptimePct : ℚ
  downtimeSeconds : Int
  totalChecks : Int
  failedChecks : Int
  avgLatencyMs : ℚ
  status : RollupStatus
  incidentTitle : Option String
  deriving DecidableEq

/-- The arguments of UpsertTodayRollup. -/
structure UptimeCheck where
  entityType : String
  entityId : Uuid
  status : String
  latencyMs : Int
  failureKind : Option String

namespace DailyUptimeRollup

/-- The row as its columns take it, or an error. -/
def stored (r : DailyUptimeRollup) : Option DailyUptimeRollup := do
  let uptimePct ← numeric 5 2 r.uptimePct
  let downtimeSeconds ← int4 r.downtimeSeconds
  let totalChecks ← int4 r.totalChecks
  let failedChecks ← int4 r.failedChecks
  let avgLatencyMs ← numeric 7 2 r.avgLatencyMs
  let incidentTitle ← nullable (varchar 255) r.incidentTitle
  return ⟨uptimePct, downtimeSeconds, totalChecks, failedChecks, avgLatencyMs, r.status, incidentTitle⟩

/-- `VALUES` -/
def first (c : UptimeCheck) : DailyUptimeRollup where
  uptimePct := if c.status = "UP" then 100 else 0
  downtimeSeconds := if c.status = "UP" then 0 else 60
  totalChecks := 1
  failedChecks := if c.status = "UP" then 0 else 1
  avgLatencyMs := c.latencyMs
  status := if c.status = "UP" then .operational else .outage
  incidentTitle := c.failureKind

/-- `DO UPDATE SET` -/
def merged (r excluded : DailyUptimeRollup) (c : UptimeCheck) : DailyUptimeRollup :=
  let totalChecks := r.totalChecks + 1
  let failedChecks := r.failedChecks + if excluded.status = .outage then 1 else 0
  { uptimePct := roundTo 2 (((totalChecks - failedChecks : Int) : ℚ) / totalChecks * 100)
    downtimeSeconds := r.downtimeSeconds + if excluded.status = .outage then 60 else 0
    totalChecks := totalChecks
    failedChecks := failedChecks
    avgLatencyMs := roundTo 2 ((r.avgLatencyMs * r.totalChecks + c.latencyMs) / totalChecks)
    status :=
      if failedChecks = 0 then .operational
      else if ((totalChecks - failedChecks : Int) : ℚ) / totalChecks ≥ 95 / 100 then .degraded
      else .outage
    incidentTitle := c.failureKind.or r.incidentTitle }

end DailyUptimeRollup

/-- What the statement leaves of the row of the day, if there is one before; nothing is an error. -/
def upsertTodayRollup (c : UptimeCheck) (row : Option DailyUptimeRollup) : Option DailyUptimeRollup := do
  let excluded ← (DailyUptimeRollup.first c).stored
  match row with
  | none => some excluded
  | some r => (r.merged excluded c).stored

/-- `CURRENT_DATE` -/
def currentDate (now : Time) : Int := now / (24 * hour)

def UptimeCheck.key (c : UptimeCheck) (now : Time) : RollupKey := ⟨c.entityType, c.entityId, currentDate now⟩

def rollups : Table DailyUptimeRollup DailyUptimeRollup := .whole DailyUptimeRollup

/-- UpsertTodayRollup, which answers whether it failed. -/
def serveRollup (c : UptimeCheck) : Prog RollupKey DailyUptimeRollup Empty Empty Bool :=
  .start fun now => upsert rollups (c.key now) (upsertTodayRollup c) fun
    | some _ => .commit (.answer true)
    | none => .rollback (.answer false)

/-! ### Backfill -/

/-- A row of the backfill, its incident title apart. -/
structure BackfillRow where
  uptimePct : ℚ
  downtimeSeconds : Int
  totalChecks : Int
  failedChecks : Int
  avgLatencyMs : ℚ
  status : RollupStatus

/-- The row that the backfill of migration 029 selects for the checks of a website on a day. -/
def backfill (checks : Multiset UptimeCheck) : BackfillRow :=
  let up := checks.countP fun c => c.status = "UP"
  let failed := checks.countP fun c => c.status ≠ "UP"
  { uptimePct := roundTo 2 ((up : ℚ) / checks.card * 100)
    downtimeSeconds := failed * 60
    totalChecks := checks.card
    failedChecks := failed
    avgLatencyMs := roundTo 2 ((checks.map fun c => (c.latencyMs : ℚ)).sum / checks.card)
    status :=
      if failed = 0 then .operational
      else if (up : ℚ) / checks.card ≥ 95 / 100 then .degraded
      else .outage }

end DatrixOps
