import Mathlib.Data.List.Sort
import DatrixOps.Diagnostics.Report
import DatrixOps.Server.Rows

/-! The measurements of a network target for its chart. -/

namespace DatrixOps
namespace TargetHistory
open Postgres Golang Diagnostics

/-- A row of `network_target_results`, as it is stored. -/
structure StoredResult extends NetworkTargetResult where
  id : Uuid
  measuredAt : Time

section
variable (now : Time) (start end_ : Option Time)

/-- The range asked for, `none` being the zero time. -/
def rangeStart : Time := start.getD (now - 24 * 60 * 60 * 1000000)

def rangeEnd : Time := end_.getD now

def rowLimit (limit : Int) : Nat := if limit ≤ 0 ∨ 500 < limit then 150 else limit.toNat

/-- The rows of the query, before they are ordered. -/
def selected (rows : List StoredResult) (targetId : String) : List StoredResult :=
  rows.filter fun r => r.targetId = targetId && rangeStart now start ≤ r.measuredAt && r.measuredAt ≤ rangeEnd now end_

/-- GetNetworkTargetHistory returns time-series measurements for a target within a date range, limited for
    chart performance. Results measured at one time keep the order in which the rows are found, which may be
    any. -/
def getNetworkTargetHistory (rows : List StoredResult) (targetId : String) (limit : Int) : List StoredResult :=
  ((selected now start end_ rows targetId).insertionSort fun r r' => r.measuredAt ≤ r'.measuredAt).take (rowLimit limit)

end

end TargetHistory
end DatrixOps
