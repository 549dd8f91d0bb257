import Mathlib.Data.List.DropRight
import DatrixOps.Machine
import DatrixOps.Website.Check

/-! When a website is stored as down, and since when: the two columns say what the checks since the last
successful one found. -/

namespace DatrixOps
namespace WebsiteDown
open WebsiteCheck

/-- The checks of a website, each of the row that the one before has stored. -/
def checking : Machine WebsiteCheck.Website Check := ⟨checkWebsite⟩

/-- The failing checks after the last successful one. -/
def currentRun (checks : List Check) : List WebsiteProbeResult :=
  (checks.map probeWebsite).rtakeWhile (·.status = .down)

/-- The website is down exactly while its downtime has a start, which is the time of the first failing check
    of the current run; and a check fails where no attempt succeeds. -/
structure Tracked (w : WebsiteCheck.Website) (checks : List Check) : Prop where
  set : w.status = "DOWN" ↔ w.downStartedAt.isSome = true
  start : w.downStartedAt = (currentRun checks).head?.map fun first => timestamptz first.checkedAt
  found : ∀ check ∈ checks, (probeWebsite check).status = .down ↔ check.Fails

variable {w : WebsiteCheck.Website} {checks : List Check} {check : Check}

theorem previousStatus_of_down (h : w.status = "DOWN") : w.previousStatus = "DOWN".toList := by
  rw [WebsiteCheck.Website.previousStatus, h]
  decide

/-- While the website is up no start is stored, whatever its status is called. -/
theorem Tracked.start_eq_none (h : Tracked w checks) (up : w.previousStatus ≠ "DOWN".toList) :
    w.downStartedAt = none := by
  have notDown : w.status ≠ "DOWN" := fun down => up (previousStatus_of_down down)
  cases stored : w.downStartedAt with
  | none => rfl
  | some started => exact absurd (h.set.mpr (by rw [stored]; rfl)) notDown

theorem currentRun_up (up : (probeWebsite check).status = .up) : currentRun (checks ++ [check]) = [] := by
  rw [currentRun, List.map_append, List.map_singleton, List.rtakeWhile_concat_neg _ _ _ (by simp [up])]

theorem currentRun_down (down : (probeWebsite check).status = .down) :
    currentRun (checks ++ [check]) = currentRun checks ++ [probeWebsite check] := by
  rw [currentRun, List.map_append, List.map_singleton, List.rtakeWhile_concat_pos _ _ _ (by simp [down])]
  rfl

/-- The start after a successful check. -/
theorem downStartedAt_up (h : Tracked w checks) (up : (probeWebsite check).status = .up) :
    downStartedAt w (probeWebsite check) = none := by
  rw [downStartedAt, up]
  dsimp only
  split
  · rfl
  · rename_i notDown
    exact h.start_eq_none notDown

/-- The start after a failing check: the stored one, or this check's time. -/
theorem downStartedAt_down (h : Tracked w checks) (down : (probeWebsite check).status = .down) :
    downStartedAt w (probeWebsite check) = w.downStartedAt.or (some (probeWebsite check).checkedAt) := by
  rw [downStartedAt, down]
  dsimp only
  split
  · rename_i notDown
    rw [h.start_eq_none notDown, Option.none_or]
  · rfl

/-- One check keeps track. -/
theorem checkWebsite_tracked (h : Tracked w checks) (check : Check) :
    Tracked (checkWebsite w check) (checks ++ [check]) := by
  have stored : (checkWebsite w check).downStartedAt = (downStartedAt w (probeWebsite check)).map timestamptz := rfl
  have status : (checkWebsite w check).status = (probeWebsite check).status.text := rfl
  cases outcome : (probeWebsite check).status with
  | up =>
    rw [downStartedAt_up h outcome] at stored
    rw [outcome] at status
    refine ⟨?_, ?_, fun check' _ => probeWebsite_down check'⟩
    · rw [status, stored]
      decide
    · rw [stored, currentRun_up outcome]
      rfl
  | down =>
    rw [downStartedAt_down h outcome, h.start] at stored
    rw [outcome] at status
    refine ⟨?_, ?_, fun check' _ => probeWebsite_down check'⟩
    · rw [status, stored]
      cases (currentRun checks).head? <;> simp [CheckStatus.text]
    · rw [stored, currentRun_down outcome]
      cases currentRun checks with
      | nil => rfl
      | cons first rest => exact congrArg some (timestamptz_timestamptz first.checkedAt)

/-- From a row that is not down and has no start, every sequence of checks keeps track. -/
theorem down_tracked (w : WebsiteCheck.Website) (notDown : w.status ≠ "DOWN") (noStart : w.downStartedAt = none)
    (checks : List Check) :
    Tracked (checking.exec w checks) checks := by
  induction checks using List.reverseRecOn with
  | nil => exact ⟨by simp [Machine.exec, notDown, noStart], noStart, fun check mem => absurd mem List.not_mem_nil⟩
  | append_singleton checks check ih =>
    rw [Machine.exec, List.foldl_append]
    exact checkWebsite_tracked ih check

/-- A website that was never checked. -/
def unchecked : WebsiteCheck.Website := ⟨"unknown", none, none, none, none, none, none⟩

/-- A check that times out. -/
def timeoutAt (startedAt : Instant) : Check := ⟨.failed "timeout", startedAt, none, startedAt⟩

theorem down_tracked_timeouts :
    Tracked (checking.exec unchecked [timeoutAt 60000, timeoutAt 120000]) [timeoutAt 60000, timeoutAt 120000] :=
  down_tracked unchecked (by decide) rfl [timeoutAt 60000, timeoutAt 120000]

end WebsiteDown
end DatrixOps
