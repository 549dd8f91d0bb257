import DatrixOps.Diagnostics.Report
import DatrixOps.Golang.Pool

/-! The periodic job that probes the network targets of all servers, from the point where it has read them. -/

namespace DatrixOps
namespace Diagnostics
open Golang

def maxConcurrent : Nat := 10

/-- A network in which nothing answers. -/
instance : Inhabited Network where
  default :=
    { beforePing := .error "i/o timeout", byPing := .error "i/o timeout", beforeDial := .error "i/o timeout"
      ping := .notStarted, dials := fun _ => .error "i/o timeout" }

namespace NetworkTargetJob

variable [Arithmetic]

/-- A goroutine probes its target and appends the result. -/
def probe (isCloudDeployment : Bool) (target : NetworkTarget) (net : Network) : NetworkTargetResult :=
  (probeSingleTarget isCloudDeployment net target).2

/-- The loop of NetworkTargetJob.run: the `break` of its `ctx.Done()` branch leaves the `select` alone, and the
    target is started without a slot. -/
def run (isCloudDeployment : Bool) : Machine (Pool NetworkTarget NetworkTargetResult) (Pool.Event Network) :=
  Pool.machine maxConcurrent .startAnyway (probe isCloudDeployment)

/-- What NetworkTargetJob.run saves at its end. -/
def saved (p : Pool NetworkTarget NetworkTargetResult) : List NetworkTargetResult :=
  match p.loop with
  | .finished => p.results
  | _ => []

end NetworkTargetJob

namespace WebsiteJob
variable {Website Answer Check : Type}

def maxConcurrentChecks : Nat := 10

/-- The loop of WebsiteJob.run, which waits and returns when its context has expired. `checkWebsite` is what a
    goroutine makes of the answer of its website. -/
def run (checkWebsite : Website → Answer → Check) : Machine (Pool Website Check) (Pool.Event Answer) :=
  Pool.machine maxConcurrentChecks .stop checkWebsite

end WebsiteJob

end Diagnostics
end DatrixOps
