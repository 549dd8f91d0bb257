import Mathlib.Data.List.Sort
import DatrixOps.Golang.Math
import DatrixOps.Postgres.Prog

/-! The availability of a server over the last 30 days, from the gaps between its metrics and its last heartbeat. -/

namespace DatrixOps
namespace Availability
open Postgres Golang

attribute [local instance] Arithmetic.binary64

/-- A row of `servers` as the list of servers has it, as far as the availability goes. -/
structure Server where
  status : String
  createdAt : Time
  lastSeenAt : Option Time

def minutes (n : Int) : Int := n * 60 * 1000000

def days (n : Int) : Int := n * 24 * 60 * 60 * 1000000

/-- `Duration.Seconds` and `EXTRACT(EPOCH FROM interval)` -/
def seconds (d : Int) : ℚ := d / 1000000

/-- The conversion of a number to int64, towards zero. -/
def int64 (x : ℚ) : Int := if x < 0 then ⌈x⌉ else ⌊x⌋

/-- `LAG(created_at) OVER (ORDER BY created_at)`, of rows in this order. -/
def lag (rows : List Time) : List (Time × Option Time) := rows.zip (none :: rows.map some)

/-- What the query answers for the times of a server's metrics. -/
def downtimeSeconds (now : Time) (metrics : List Time) : ℚ :=
  let sub := lag ((metrics.filter fun createdAt => now - days 30 ≤ createdAt).insertionSort (· ≤ ·))
  (sub.filterMap fun (createdAt, prevTime) => prevTime.bind fun prev =>
    if minutes 2 < createdAt - prev then some (seconds (createdAt - prev)) else none).sum

section
variable (srv : Server) (now : Time)

def windowDuration : Int := if now - srv.createdAt < days 30 then now - srv.createdAt else days 30

def windowSeconds : Int := max 60 (int64 (seconds (windowDuration srv now)))

def isOffline : Bool := srv.status = "offline" || srv.lastSeenAt.any (· < now - minutes 1)

/-- What is added for a server that is offline. -/
def ongoingSeconds : Int :=
  if isOffline srv now then
    match srv.lastSeenAt with
    | some lastSeen => max 0 (int64 (seconds (now - lastSeen)))
    | none => 0
  else 0

/-- The percentage of the window and the seconds down, from what the query answers, if it does. -/
def calculateSingleServerAvailability30d (answer : Option ℚ) : ℚ × Int :=
  let totalDowntime := max 0 (min (int64 (answer.getD 0) + ongoingSeconds srv now) (windowSeconds srv now))
  let uptimeSeconds := max 0 (windowSeconds srv now - totalDowntime)
  let availPct := rounded (rounded (ofInt uptimeSeconds / ofInt (windowSeconds srv now)) * 100)
  (max 0 (min (round1 availPct) 100), totalDowntime)

/-- An uptime of 0.55 percent comes out below it. -/
example : (calculateSingleServerAvailability30d ⟨"online", 0, none⟩ (days 40) (some 2577744)).1 = 1 / 2 := by
    decide +kernel

end

end Availability
end DatrixOps
