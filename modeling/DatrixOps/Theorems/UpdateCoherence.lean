import DatrixOps.Machine
import DatrixOps.Scheduler.UpdateJob
import DatrixOps.Theorems.VersionOrder

/-! The published status of updates. Its flag about the agent is set by a check and cleared by none, so that a
    check that finds an agent version not above the configured one leaves it wrong. -/

namespace DatrixOps
namespace UpdateCoherence
open Scheduler

section
variable (cfg : Scheduler.Config)

/-- The update job as a machine. -/
def checks : Machine UpdateStatus Check := ⟨Scheduler.run cfg⟩

/-- The flags say what the versions do. -/
structure Coherent (status : UpdateStatus) : Prop where
  server : status.updateAvailable = true ↔ compareSemVer status.latestVersion (currentServerVersion cfg) = .gt
  agent : status.agentUpdateAvailable = true ↔ compareSemVer status.latestAgentVersion (currentAgentVersion cfg) = .gt

/-- While the flag is set, the check finds a greater agent version, or none. -/
def Ahead (status : UpdateStatus) (check : Check) : Prop :=
  status.agentUpdateAvailable = true → fetchRemoteAgentVersion check.agent ≠ "" →
    compareSemVer (fetchRemoteAgentVersion check.agent) (currentAgentVersion cfg) = .gt

end

variable {cfg : Scheduler.Config} {status : UpdateStatus} {latest : String}

theorem compareSemVer_self : compareSemVer latest latest = .eq := Std.ReflCmp.compare_self

theorem newUpdateJob_coherent (now : Postgres.Time) : Coherent cfg (Scheduler.newUpdateJob cfg now) where
  server := by simp [Scheduler.newUpdateJob, compareSemVer_self]
  agent := by simp [Scheduler.newUpdateJob, compareSemVer_self]

/-! ### One check -/

theorem publishServer_coherent (h : Coherent cfg status) : Coherent cfg (publishServer cfg latest status) := by
  unfold publishServer
  split
  · exact h
  · exact ⟨decide_eq_true_iff, h.agent⟩

theorem publishAgent_coherent_iff (h : Coherent cfg status) : Coherent cfg (publishAgent cfg latest status) ↔
    (status.agentUpdateAvailable = true → latest ≠ "" → compareSemVer latest (currentAgentVersion cfg) = .gt) := by
  unfold publishAgent
  split
  · rename_i none_
    exact ⟨fun _ _ some_ => absurd none_ some_, fun _ => h⟩
  · rename_i some_
    constructor
    · rintro ⟨-, agent⟩ set _
      exact agent.mp (decide_eq_true (Or.inr set))
    · intro ahead
      refine ⟨h.server, decide_eq_true_iff.trans ⟨?_, Or.inl⟩⟩
      rintro (greater | set)
      · exact greater
      · exact ahead set some_

/-- A check keeps the status coherent exactly when it does not have to clear the flag. -/
theorem run_coherent_iff {check : Check} (h : Coherent cfg status) :
    Coherent cfg (Scheduler.run cfg status check) ↔ Ahead cfg status check := by
  have started : Coherent cfg { status with lastCheckedAt := check.now } := ⟨h.server, h.agent⟩
  rw [Scheduler.run, publishAgent_coherent_iff (publishServer_coherent started),
    publishServer_agentUpdateAvailable, Ahead]

/-- The status is coherent all along exactly the sequences of checks in which, once the flag is set, no check
    finds an agent version that is not greater than the configured one. -/
theorem status_coherent_iff (cfg : Scheduler.Config) (now : Postgres.Time) (sequence : List Check) :
    (checks cfg).Always (Coherent cfg) (Scheduler.newUpdateJob cfg now) sequence ↔
      (checks cfg).Each (Ahead cfg) (Scheduler.newUpdateJob cfg now) sequence :=
  Machine.always_iff_each (fun _ => id) (fun _ _ h => (run_coherent_iff h).mpr) (fun _ _ h => (run_coherent_iff h).mp)
    (newUpdateJob_coherent now)

/-- Where `version.txt` alone answers. -/
def found (versionFile : String) : Check := ⟨0, none, none, ⟨none, some versionFile, none⟩⟩

/-- The release of a version that is withdrawn leaves its flag. -/
theorem withdrawn_flagged :
    let cfg : Scheduler.Config := ⟨"1.0.0", "", "self-hosted", "community"⟩
    let status := (checks cfg).exec (Scheduler.newUpdateJob cfg 0) [found "1.1.0", found "1.0.0"]
    status.latestAgentVersion = "1.0.0" ∧ status.agentUpdateAvailable = true ∧ ¬Coherent cfg status := by
  have published : ((checks ⟨"1.0.0", "", "self-hosted", "community"⟩).exec
    (Scheduler.newUpdateJob ⟨"1.0.0", "", "self-hosted", "community"⟩ 0)
      [found "1.1.0", found "1.0.0"]).latestAgentVersion = "1.0.0" ∧
      ((checks ⟨"1.0.0", "", "self-hosted", "community"⟩).exec
        (Scheduler.newUpdateJob ⟨"1.0.0", "", "self-hosted", "community"⟩ 0)
        [found "1.1.0", found "1.0.0"]).agentUpdateAvailable = true := by decide +kernel
  refine ⟨published.1, published.2, fun coherent => ?_⟩
  have greater := coherent.agent.mp published.2
  rw [published.1] at greater
  exact absurd greater (by decide +kernel)

end UpdateCoherence
end DatrixOps
