import DatrixOps.Server.Availability
import DatrixOps.Server.Rows

/-! RetentionJob bounds high-volume operational tables. It deletes what is older than some days in small
    batches; which of the old rows a batch finds is up to the database. -/

namespace DatrixOps
namespace Retention
open Postgres Availability

/-- The tables that `run` goes through, by the column whose time counts. -/
inductive Table where
  | serverMetrics | websiteChecks | dailyUptimeRollups | dashboardNotifications | terminalSessions |
    networkTargetResults
  deriving DecidableEq

/-- The days that `run` keeps of a table. -/
def daysOf (metricsDays operationalDays : Int) : Table → Int
  | .serverMetrics | .websiteChecks | .networkTargetResults => metricsDays
  | .dashboardNotifications | .terminalSessions => operationalDays
  | .dailyUptimeRollups => 365

/-- The order in which a statement finds the rows of a table. -/
structure Scan (α : Type) where
  order : List α → List α
  perm : ∀ rows, (order rows).Perm rows

/-- What the others write before a statement of the job, and how that goes. -/
structure Turn (α : Type) where
  elapsed : Nat
  inserted : List α
  scan : Scan α
  fails : Bool

/-- A table with all that was ever written to it; `done` once a batch has not been full. -/
structure Cleanup (α : Type) where
  now : Time
  rows : List α
  written : List α
  done : Bool

section
variable {α : Type}

/-- `DELETE .. WHERE ctid IN (SELECT ctid .. LIMIT n)`, of the rows in the order in which they are found. -/
def strike (expired : α → Bool) : Nat → List α → List α
  | 0, rows => rows
  | _ + 1, [] => []
  | n + 1, row :: rows => if expired row then strike expired n rows else row :: strike expired (n + 1) rows

variable (column : α → Time) (kept : Int)

/-- deleteBatches with so many batches left. The process may end before any of them. -/
def deleteBatches : Nat → Cleanup α → List (Turn α) → Cleanup α
  | 0, c, _ => c
  | _ + 1, c, [] => c
  | batches + 1, c, turn :: turns =>
    let now := c.now + turn.elapsed
    let found := turn.scan.order (c.rows ++ turn.inserted)
    let written := c.written ++ turn.inserted
    if turn.fails then ⟨now, found, written, false⟩
    else
      let left := strike (fun row => column row < now - days kept) 5000 found
      if found.length - left.length < 5000 then ⟨now, left, written, true⟩
      else deleteBatches batches ⟨now, left, written, false⟩ turns

/-- What `run` makes of a table. -/
def run (metricsDays operationalDays : Int) (table : Table) (now : Time) (rows : List α)
    (turns : List (Turn α)) : Cleanup α :=
  deleteBatches column (daysOf metricsDays operationalDays table) 20 ⟨now, rows, rows, false⟩ turns

end

/-- A row of `server_metrics`, as far as the availability goes. -/
structure Metric where
  serverId : Uuid
  createdAt : Time
  deriving DecidableEq

/-- The times of the metrics of a server. -/
def metricsOf (serverId : Uuid) (rows : List Metric) : List Time :=
  (rows.filter (·.serverId = serverId)).map (·.createdAt)

/-! ### What a batch strikes -/

section
variable {α : Type} {expired : α → Bool}

theorem strike_length (expired : α → Bool) (n : Nat) (rows : List α) :
    (strike expired n rows).length + min n (rows.countP expired) = rows.length := by
  induction rows generalizing n with
  | nil => cases n <;> rfl
  | cons row rows ih =>
    cases n with
    | zero => simp [strike]
    | succ n =>
      rw [strike]
      by_cases old : expired row = true
      · rw [if_pos old, List.countP_cons_of_pos old, List.length_cons]
        have := ih n
        omega
      · rw [if_neg old, List.countP_cons_of_neg old, List.length_cons, List.length_cons]
        have := ih (n + 1)
        omega

/-- What has not expired stays. -/
theorem strike_filter {keep : α → Bool} (young : ∀ row, keep row = true → expired row = false) (n : Nat)
    (rows : List α) :
    (strike expired n rows).filter keep = rows.filter keep := by
  induction rows generalizing n with
  | nil => cases n <;> rfl
  | cons row rows ih =>
    cases n with
    | zero => rfl
    | succ n =>
      rw [strike]
      by_cases old : expired row = true
      · have gone : ¬keep row = true := fun kept => by
          rw [young row kept] at old
          cases old
        rw [if_pos old, List.filter_cons_of_neg gone, ih]
      · rw [if_neg old, List.filter_cons, List.filter_cons, ih]

/-- A batch that is not full has struck all. -/
theorem strike_short {n : Nat} {rows : List α} (short : rows.length - (strike expired n rows).length < n) :
    ∀ row ∈ strike expired n rows, expired row = false := by
  have length := strike_length expired n rows
  have few : rows.countP expired < n := by omega
  clear short length
  induction rows generalizing n with
  | nil =>
    cases n with
    | zero => exact absurd few (Nat.not_lt_zero _)
    | succ n => exact fun _ mem => absurd mem List.not_mem_nil
  | cons row rows ih =>
    cases n with
    | zero => exact absurd few (Nat.not_lt_zero _)
    | succ n =>
      rw [strike]
      by_cases old : expired row = true
      · rw [if_pos old]
        rw [List.countP_cons_of_pos old] at few
        exact ih (Nat.lt_of_succ_lt_succ few)
      · rw [if_neg old]
        rw [List.countP_cons_of_neg old] at few
        intro other mem
        rcases List.mem_cons.mp mem with rfl | later
        · exact eq_false_of_ne_true old
        · exact ih few other later

end

end Retention
end DatrixOps
