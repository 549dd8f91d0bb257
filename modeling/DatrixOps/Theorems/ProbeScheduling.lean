import DatrixOps.Diagnostics.TargetJob

/-! The job that probes the targets ends, within its bound of probes at a time, as long as its context does not
    expire while there are targets left. -/

namespace DatrixOps
namespace ProbeScheduling
open Golang Diagnostics

attribute [local instance] Arithmetic.binary64

variable {flag : Bool}

/-- At most ten probes run, a receive from the semaphore follows a send for the same target, and once the
    probes have returned the job can finish. -/
def Sound (flag : Bool) (p : Pool NetworkTarget NetworkTargetResult) : Prop :=
  Pool.Good maxConcurrent .startAnyway (NetworkTargetJob.probe flag) p

/-- The `select` does not take its `ctx.Done()` branch. -/
def DoneNotTaken (flag : Bool) (p : Pool NetworkTarget NetworkTargetResult) (e : Pool.Event Network) : Prop :=
  e = .onDone → Pool.step maxConcurrent .startAnyway (NetworkTargetJob.probe flag) p e = none

/-- A run is sound in all its states, and in those the returning probes lead to, exactly when its loop takes the
    `ctx.Done()` branch for no target. -/
theorem sound_iff_doneNotTaken (targets : List NetworkTarget) (events : List (Pool.Event Network)) :
    (NetworkTargetJob.run flag).Always (fun p => ∀ returns, Pool.Returns returns →
      Sound flag ((NetworkTargetJob.run flag).exec p returns))
        (Pool.init targets) events ↔
      (NetworkTargetJob.run flag).Each (DoneNotTaken flag) (Pool.init targets) events := by
  have careful := Pool.good_iff_careful .startAnyway (NetworkTargetJob.probe flag)
    (by decide : 0 < maxConcurrent) targets events
  refine careful.trans ⟨fun each => ?_, fun each => ?_⟩
  · exact each.imp (I := fun _ => True) (fun _ _ _ _ => trivial) (fun _ _ _ h => h rfl) trivial
  · exact each.imp (I := fun _ => True) (fun _ _ _ _ => trivial) (fun _ _ _ h _ => h) trivial

/-- The sibling job for websites is sound in every run. -/
theorem websites_sound {Website Answer Check : Type} [Inhabited Answer] {checkWebsite : Website → Answer → Check}
    (websites : List Website)
    (events : List (Pool.Event Answer)) :
    (WebsiteJob.run checkWebsite).Always (Pool.Good WebsiteJob.maxConcurrentChecks .stop checkWebsite)
    (Pool.init websites) events := by
  have each : (WebsiteJob.run checkWebsite).Each (Pool.Careful WebsiteJob.maxConcurrentChecks .stop checkWebsite)
      (Pool.init websites) events := by
    generalize (Pool.init websites : Pool Website Check) = p
    induction events generalizing p with
    | nil => trivial
    | cons e events ih => exact ⟨nofun, ih _⟩
  exact ((Pool.good_iff_careful _ _ (by decide) websites events).mpr each).mono fun p good => good [] nofun

/-- A target that is probed by TCP. -/
def oneTarget : NetworkTarget where
  id := "target"
  host := "203.0.113.7".toList
  port := 443
  tag := "edge".toList
  probeMethod := tcp
  probesPerRun := 5
  alertLatencyWarningMs := none
  alertLatencyCriticalMs := none
  alertLossCriticalPct := none
  enabled := true
  isGateway := false

/-- The context expires before the only target is taken; its probe returns, and the job never ends. -/
theorem expired_before_target : ¬(NetworkTargetJob.run false).Always (Sound false) (Pool.init [oneTarget])
    [.expire, .onDone, .start, .exhausted, .returned 0 default] := by
  intro sound
  have good : Sound false _ := sound.last
  have doomed := (Pool.inv_init (β := NetworkTargetResult) maxConcurrent [oneTarget]).doom rfl
  have run : (NetworkTargetJob.run false).exec (Pool.init [oneTarget]) [.expire, .onDone, .start, .exhausted,
    .returned 0 default] =
      (NetworkTargetJob.run false).exec {
        (Pool.init [oneTarget] : Pool NetworkTarget NetworkTargetResult) with loop := .starting oneTarget false [] }
        [.expire, .start, .exhausted, .returned 0 default] := rfl
  rw [run] at good
  refine (doomed.exec _).never (good.finishes fun w member => ?_)
  rw [List.mem_singleton.mp member]
  exact nofun

end ProbeScheduling
end DatrixOps
