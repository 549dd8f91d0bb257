import DatrixOps.Theorems.QueueGates

/-! While a server is being uninstalled its agent is handed the uninstall task and no other, in every run in which no
    task is queued for a server that is, or in an open request is being, marked for deletion. -/

namespace DatrixOps
namespace Exclusivity
open Postgres Prog Lifecycle

/-- The task is the uninstall task that the request `e` queued. -/
def Queued (e : Commit Request Uuid Row Dispatch) (t : ServerTask) : Prop :=
  t.type = .agentUninstall ∧ ∃ c, e.tx.changes t.id = some c ∧ c.fresh = true

/-- A pending deletion bars every task but the one that it queues. -/
def uninstallGate : Gate where
  shut := Server.deleting
  bars _ := true
  shuts k
    | .requestAgentUninstall id .. => id = k
    | _ => false
  own := Queued
  bars_eq _ _ := rfl
  own_eq hid htype queued := ⟨htype.trans queued.1, hid ▸ queued.2⟩

/-- From the commit of a request for the uninstall of a server until its row is neither pending nor
    uninstalling, the tasks of the server that heartbeats claim are the one that the request queued. -/
def OnlyUninstall (log : List (Commit Request Uuid Row Dispatch)) : Prop :=
  ∀ later e earlier, log = later ++ e :: earlier → ∀ d ∈ e.tx.events, ∀ e₀,
    uninstallGate.shutBy d.task.serverId earlier = some e₀ → Queued e₀ d.task

variable {p : Platform} {i : Nat} {id k : Uuid} {tx : Tx Uuid Row Dispatch} {w : World Request Uuid Row Dispatch}

section Request
variable {userId : Uuid} {payload : Jsonb} {hash : String} {now : Time}

/-- The task queued, the request commits: what waits for the server's agent is that task. -/
theorem holds_queue (good : (uninstallGate.contract p).Good w) (h : uninstallGate.Sweeping id [] tx w) :
    (Prog.insert (fun taskId => some (.task (uninstallTask now id userId payload taskId)))
      (fun r => r.task?.any fun t => (uninstallTask now id userId payload 0).conflicts t) fun
      | some _ => .commit (.answer .accepted)
      | none => .rollback (.answer .refused) : Handler).Holds (uninstallGate.contract p) i
        (.requestAgentUninstall id userId payload hash) (some tx) w := by
  refine Contract.always good h (fun w w' _ h move => h.move move) fun w good h =>
    ⟨Gate.rolledBack, fun k r hr _ unseen _ => ?_⟩
  obtain rfl := Option.some.inj hr
  refine Contract.always good (J := fun w =>
    uninstallGate.Marked id (tx.create k (.task (uninstallTask now id userId payload k))) →
      Remaining (uninstallGate.Waits id) [] tx w) (fun marked => h.2 marked.of_create)
    (fun w w' _ h move marked => Gate.remaining_others (h marked) marked move)
      fun w good remaining base ok _ admitted => ?_
  refine ⟨good.2.commit base ok admitted fun k₁ c shuts hc shut k' t hr hid pending barred => ?_, Gate.answered⟩
  obtain rfl : id = k₁ := of_decide_eq_true shuts
  by_cases hk : k' = k
  · subst hk
    rw [World.rows_commit_of_changes Tx.changes_create] at hr
    cases hr
    exact ⟨rfl, _, Tx.changes_create, rfl⟩
  · exact absurd ⟨t, rfl, hid, pending, barred⟩
      (Gate.not_waits h.1 (remaining ⟨c, hc, shut⟩) (Tx.changes_create_of_ne hk) hr)

theorem holds_requestAgentUninstall (good : (uninstallGate.contract p).Good w) :
    (requestAgentUninstall p id userId payload hash).Holds (uninstallGate.contract p) i
      (.requestAgentUninstall id userId payload hash) none w := by
  refine Gate.always good fun w good now => Gate.always good fun w good snapshot _ _ => ?_
  refine Gate.holds_servers id good (fun _ _ _ hc => by cases hc) fun found tx w good swept => ?_
  dsimp only
  split
  · exact Gate.rolledBack
  · split
    · exact Gate.rolledBack
    · refine Gate.always good fun w good snapshot _ _ => Gate.holds_servers _ good swept fun _ tx w good swept => ?_
      refine Gate.holds_sweep (fun t => ?_) (fun t => ?_) good swept fun _ tx w good h => holds_queue good h
      · simp [expireQueued, uninstallGate]
      · simp [expireQueued, ServerTask.finish]

end Request

/-! ### Runs -/

theorem uninstall_exclusive {rows₀ : Uuid → Option Row} {s : State Request Uuid Row Dispatch Bool Response}
    (valid : ∀ k r, rows₀ k = some r → (spec p).row k r) (h : ReachableBy (serve p) uninstallGate.Clear rows₀ s) :
    OnlyUninstall s.log := by
  have kept : uninstallGate.Kept s.log := by
    refine Gate.kept (fun i q k w shuts good => ?_) valid h
    cases q with
    | requestAgentUninstall id userId payload hash => exact holds_requestAgentUninstall good
    | _ => cases shuts
  exact fun later e earlier hlog d hd e₀ on => kept later e earlier hlog d hd rfl e₀ on

/-- One server with its agent. -/
def oneServer : List (Uuid × Row) := [(1, .server linuxServer)]

theorem oneServer_valid {k : Uuid} {r : Row} (h : oneServer.lookup k = some r) : (spec p).row k r := by
  simp only [oneServer, List.lookup_cons, List.lookup_nil] at h
  split at h
  · rename_i hk
    obtain rfl := Option.some.inj h
    exact (beq_iff_eq.mp hk).symm
  · cases h

/-- Session `i` serves a heartbeat that only claims. -/
def claiming (i : Nat) : List (Move Request Uuid Bool) :=
  .arrive i (.heartbeat ⟨"agent-token", "", [], ""⟩ ⟨"", "", []⟩) :: List.replicate 4 (.next i) ++
    [.reply i true, .reply i true, .reply i false] ++ List.replicate 8 (.next i)

/-- Session `i` asks for its uninstall, up to the commit. -/
def requesting (i : Nat) : List (Move Request Uuid Bool) :=
  .arrive i (.requestAgentUninstall 1 7 [] "token") :: List.replicate 6 (.next i) ++ [.insert i 100, .next i]

/-- Server 1 is being uninstalled when its agent asks for its tasks. -/
def uninstalling : List (Move Request Uuid Bool) := requesting 1 ++ claiming 2

/-- A restart is asked for before the uninstall, and queued after the uninstall's task has been claimed. -/
def overtaken : List (Move Request Uuid Bool) :=
  .arrive 0 (.createTask 7 1 ⟨.agentRestart, [], "", 0⟩) :: List.replicate 7 (.next 0) ++ [.reply 0 true, .next 0] ++
    requesting 1 ++ claiming 2 ++ [.insert 0 101, .next 0] ++ claiming 3

/-- For examples: during an uninstall of its server, the last commit handed out a task of type `type`. -/
def handed (type : TaskType) (s : Listed Request Uuid Row Dispatch Bool Response) : Bool :=
  match s.log with
  | [] => false
  | e :: earlier => e.tx.events.any fun d => d.task.type = type && (uninstallGate.shutBy d.task.serverId earlier).isSome

theorem handed_of_check {type : TaskType} {s : Listed Request Uuid Row Dispatch Bool Response}
    (h : handed type s = true) :
    ∃ e earlier d e₀, s.state.log = e :: earlier ∧ d ∈ e.tx.events ∧ d.task.type = type ∧
      uninstallGate.shutBy d.task.serverId earlier = some e₀ := by
  unfold handed at h
  split at h
  · cases h
  · rename_i e earlier hlog
    obtain ⟨d, hd, h⟩ := List.any_eq_true.mp h
    simp only [Bool.and_eq_true, decide_eq_true_eq, Option.isSome_iff_exists] at h
    obtain ⟨htype, e₀, on⟩ := h
    exact ⟨e, earlier, d, e₀, hlog, hd, htype, on⟩

theorem uninstall_exclusive_uninstalling :
    ∃ s, ReachableBy (serve plainPlatform) uninstallGate.Clear (fun k => oneServer.lookup k) s ∧
    (∃ e earlier d e₀, s.log = e :: earlier ∧ d ∈ e.tx.events ∧ d.task.type = .agentUninstall ∧
      uninstallGate.shutBy d.task.serverId earlier = some e₀) ∧ OnlyUninstall s.log := by
  obtain ⟨s, reached, h⟩ :=
    Listed.reachableBy_of_check (serve plainPlatform) 0 oneServer uninstalling uninstallGate.Clear uninstallGate.clear
    (fun _ _ h step _ => Gate.clear_of_check (fun _ _ => oneServer_valid) h step) (handed .agentUninstall)
    (by decide +kernel)
  exact ⟨s.state, reached, handed_of_check h, uninstall_exclusive (fun _ _ => oneServer_valid) reached⟩

/-- The uninstall is requested between a creator's check of the server and its insert: the agent is handed the
restart. -/
theorem restarted_during_uninstall : ¬∀ p rows₀ (s : State Request Uuid Row Dispatch Bool Response),
    (∀ k r, rows₀ k = some r → (spec p).row k r) → Reachable (serve p) rows₀ s → OnlyUninstall s.log := by
  intro claimed
  obtain ⟨s, reachable, h⟩ := Listed.reachable_of_check (serve plainPlatform) 0 oneServer overtaken
    (handed .agentRestart)
    (by decide +kernel)
  obtain ⟨e, earlier, d, e₀, hlog, hd, restart, on⟩ := handed_of_check h
  obtain ⟨uninstall, -⟩ := claimed plainPlatform _ s.state (fun _ _ =>
    oneServer_valid) reachable [] e earlier hlog d hd e₀ on
  cases restart.symm.trans uninstall

end Exclusivity
end DatrixOps
