import DatrixOps.Alert.System
import DatrixOps.Server.Uninstall

/-! Which servers the alert worker evaluates, in the states of the uninstall state machine. The query asks
    for `active`, so it leaves out the servers whose uninstall has failed along with those whose uninstall is
    in progress. -/

namespace DatrixOps
namespace AlertCoverage
open Postgres

/-- An enrolled, bootstrapped server of the rule's owner in the rule's scope. -/
def Watched (rule : AlertRule) (s : Server) : Prop :=
  s.userId = rule.userId ∧ s.enrolledAt.isSome = true ∧ s.bootstrapCompletedAt.isSome = true ∧ rule.inScope s.id = true

/-- The rule's query selects exactly the servers it watches that no uninstall is in progress for. -/
def Covered (rule : AlertRule) (db : Db) : Prop :=
  ∀ s ∈ db.servers, rule.selects s = true ↔ Watched rule s ∧ s.deleting = false

/-- No uninstall of a server the rule watches has failed. -/
def NoneFailed (rule : AlertRule) (db : Db) : Prop := ∀ s ∈ db.servers, Watched rule s → s.deletionStatus ≠ .failed

instance (rule : AlertRule) : DecidablePred (Watched rule) := fun _ => inferInstanceAs (Decidable (_ ∧ _))

instance (rule : AlertRule) : DecidablePred (Covered rule) := fun db =>
  inferInstanceAs (Decidable (∀ s ∈ db.servers, _ ↔ _))

theorem selects_iff {rule : AlertRule} {s : Server} :
    rule.selects s = true ↔ Watched rule s ∧ s.deletionStatus = .active := by
  simp only [AlertRule.selects, Watched, Bool.and_eq_true, decide_eq_true_eq]
  tauto

theorem covered_iff {rule : AlertRule} {db : Db} : Covered rule db ↔ NoneFailed rule db := by
  have each : ∀ s : Server, (rule.selects s = true ↔ Watched rule s ∧ s.deleting = false) ↔
      (Watched rule s → s.deletionStatus ≠ .failed) := by
    intro s
    rw [selects_iff]
    cases hs : s.deletionStatus <;> simp [Server.deleting, hs]
  exact forall₂_congr fun s _ => each s

/-- The rule covers its servers in every state of a run exactly when no uninstall of one is ever failed. -/
theorem always_covered_iff (p : Platform) (rule : AlertRule) (db : Db) (run : List Op) :
    (uninstallMachine p).Always (Covered rule) db run ↔ (uninstallMachine p).Always (NoneFailed rule) db run :=
  ⟨Machine.Always.mono fun _ => covered_iff.mp, Machine.Always.mono fun _ => covered_iff.mpr⟩

/-! ### A server whose uninstall fails -/

/-- A rule on the CPU of all of user 7's servers. -/
def cpuRule : AlertRule where
  id := 4
  userId := 7
  name := "cpu"
  metric := "cpu"
  operator := ">"
  threshold := 90
  durationMinutes := 5
  repeatIntervalMinutes := 0
  targetName := none
  serverId := none
  enabled := true

/-- The agent does not claim the uninstall in time, the sweep fails it, and then the agent is back. -/
def failedUninstall : List Op :=
  [.requestAgentUninstall 1 7 [] "token-hash" 100, .tick 900000000, .expireStaleAgentUninstalls 7,
    .markOnline ⟨"agent-token", "1.4.2", [("os_family", "linux")], ""⟩]

/-- The server is then no longer evaluated. -/
theorem uncovered_after_failedUninstall :
    let db := (uninstallMachine plainPlatform).exec ⟨0, [linuxServer], []⟩ failedUninstall
    ¬Covered cpuRule db ∧ ∃ s ∈ db.servers, Watched cpuRule s ∧ s.deleting = false ∧ cpuRule.selects s = false := by
  decide

end AlertCoverage
end DatrixOps
