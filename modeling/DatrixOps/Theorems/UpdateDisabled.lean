import DatrixOps.Server.AgentUpdate
import DatrixOps.Theorems.QueueGates

/-! Automatic updates of a server that are disabled stay so, in every run in which none is queued for a server that has
    them disabled, or that an open request is disabling them for. -/

namespace DatrixOps
namespace AutoUpdate
open Postgres Prog Lifecycle

/-- An update that was queued by a heartbeat. -/
def automatic (t : ServerTask) : Bool := t.type = .agentUpdate && t.payload.text "trigger" = some "automatic"

/-- The update policy bars automatic updates while it is off. -/
def policyGate : Gate where
  shut s := !s.autoUpdateAgent
  bars := automatic
  shuts k
    | .setAgentAutoUpdate id _ false => id = k
    | _ => false
  own _ _ := False
  bars_eq htype hpayload := by rw [automatic, automatic, htype, hpayload]
  own_eq _ _ h := h

/-- Along the allowed runs: once a server's automatic updates are disabled, and as long as no commit enables them, a
    heartbeat that starts afterwards is handed none. -/
def DisablingEffective (p : Platform) (allowed : State Request Uuid Row Dispatch Bool Response →
    State Request Uuid Row Dispatch Bool Response → Prop) (rows₀ : Uuid → Option Row) : Prop :=
  ∀ s s', ReachableBy (serve p) allowed rows₀ s →
    Relation.ReflTransGen (fun s s' => Step (serve p) s s' ∧ allowed s s') s s' →
    ∀ k, policyGate.shutBy k s.log ≠ none → ∀ later e between, s'.log = later ++ e :: (between ++ s.log) →
      (∀ e' ∈ between, ∀ c, e'.tx.changes k = some c → policyGate.shutIn c.new = true) → s.sessions e.session = none →
        ∀ d ∈ e.tx.events, d.task.serverId = k → automatic d.task = false

variable {p : Platform} {i : Nat} {id userId : Uuid} {w : World Request Uuid Row Dispatch}

theorem holds_setAgentAutoUpdate (good : (policyGate.contract p).Good w) :
    (setAgentAutoUpdate id userId false).Holds (policyGate.contract p) i
    (.setAgentAutoUpdate id userId false) none w := by
  refine Gate.always good fun w good now => Gate.always good fun w good snapshot _ _ => ?_
  refine Gate.holds_servers id good (fun _ _ _ hc => by cases hc) fun found tx w good swept => ?_
  dsimp only
  split
  · exact Gate.rolledBack
  · rw [if_neg Bool.false_ne_true]
    refine Gate.holds_sweep (fun t => ?_) (fun t => ?_) good swept fun _ tx w good h => ?_
    · simp [expireAutomaticUpdates, policyGate, automatic, and_assoc, and_comm, and_left_comm]
    · simp [expireAutomaticUpdates, ServerTask.finish]
    · refine Contract.always good h (fun w w' _ h move => h.move move) fun w good h base ok _ admitted => ?_
      refine ⟨good.2.commit base ok admitted fun k c shuts hc shut k' t hr hid pending barred => ?_, Gate.answered⟩
      obtain rfl : id = k := of_decide_eq_true shuts
      exact Gate.not_waits h.1 (h.2 ⟨c, hc, shut⟩) rfl hr ⟨t, rfl, hid, pending, barred⟩

theorem disabling_effective {rows₀ : Uuid → Option Row} (valid : ∀ k r, rows₀ k = some r → (spec p).row k r) :
    DisablingEffective p policyGate.Clear rows₀ := by
  intro s s' reached run k off later e between hlog stays _ d hd hid
  have reached' : ReachableBy (serve p) policyGate.Clear rows₀ s' := by
    obtain ⟨now, used, hu, before⟩ := reached
    exact ⟨now, used, hu, before.trans run⟩
  have kept : policyGate.Kept s'.log := by
    refine Gate.kept (fun i q k w shuts good => ?_) valid reached'
    cases q with
    | setAgentAutoUpdate id userId enabled =>
      cases enabled with
      | false => exact holds_setAgentAutoUpdate good
      | true => cases shuts
    | _ => cases shuts
  obtain ⟨e₀, on⟩ := Option.ne_none_iff_exists'.mp (Gate.shutBy_append off between stays)
  by_contra barred
  exact kept later e (between ++ s.log) hlog d hd (Bool.not_eq_false _ ▸ barred) e₀ (hid ▸ on)

/-! ### Two runs -/

/-- Server 1, updated automatically. -/
def followedServer : List (Uuid × Row) := [(1, .server { linuxServer with autoUpdateAgent := true })]

theorem followedServer_valid {k : Uuid} {r : Row} (h : followedServer.lookup k = some r) : (spec p).row k r := by
  simp only [followedServer, List.lookup_cons, List.lookup_nil] at h
  split at h
  · rename_i hk
    obtain rfl := Option.some.inj h
    exact (beq_iff_eq.mp hk).symm
  · cases h

/-- The release that is wanted. -/
def release : AgentRelease := (AgentApi.newHandler "1.4.0" "https://releases.example" "default").release ""

/-- Session `i` serves a heartbeat of version 1.3.0 up to the insert of its automatic update. -/
def queueing (i : Nat) : List (Move Request Uuid Bool) :=
  .arrive i (.heartbeat ⟨"agent-token", "1.3.0", [], ""⟩ release) :: List.replicate 4 (.next i) ++ [.reply i false] ++
    List.replicate 2 (.next i)

/-- Session `i` turns automatic updates off. -/
def disabling (i : Nat) : List (Move Request Uuid Bool) :=
  .arrive i (.setAgentAutoUpdate 1 7 false) :: List.replicate 6 (.next i)

/-- Session `i` serves a heartbeat that only claims. -/
def claiming (i : Nat) : List (Move Request Uuid Bool) :=
  .arrive i (.heartbeat ⟨"agent-token", "", [], ""⟩ release) :: List.replicate 4 (.next i) ++
    [.reply i true, .reply i true, .reply i false] ++ List.replicate 7 (.next i)

/-- For examples: the update policy of server 1 has been switched off, and session 2 is not yet served. -/
def switchedOff (s : Listed Request Uuid Row Dispatch Bool Response) : Bool :=
  s.log.length = 2 && (policyGate.shutBy 1 s.log).isSome && (s.sessions.lookup 2).isNone

theorem disabling_effective_followedServer :
    DisablingEffective plainPlatform policyGate.Clear (fun k => followedServer.lookup k) ∧
    ∃ s, ReachableBy (serve plainPlatform) policyGate.Clear (fun k => followedServer.lookup k) s ∧
    policyGate.shutBy 1 s.log ≠ none ∧
      s.sessions 2 = none := by
  refine ⟨disabling_effective fun _ _ => followedServer_valid, ?_⟩
  obtain ⟨s, reached, off⟩ := Listed.reachableBy_of_check (serve plainPlatform) 0 followedServer
    (queueing 0 ++ disabling 1)
    policyGate.Clear policyGate.clear (fun _ _ h step _ =>
      Gate.clear_of_check (fun _ _ => followedServer_valid) h step) switchedOff
    (by decide +kernel)
  simp only [switchedOff, Bool.and_eq_true, Option.isNone_iff_eq_none] at off
  exact ⟨s.state, reached, Option.isSome_iff_ne_none.mp off.1.2, off.2⟩

/-- For examples: since the second commit the policy of server 1 was left off, and session 2 has claimed an
automatic update. -/
def claimed (s : Listed Request Uuid Row Dispatch Bool Response) : Bool :=
  match s.log with
  | [e, e₁, e₂, _, _] => e.session = 2 && [e₁, e₂].all (fun e' => (e'.tx.changes 1).all fun c =>
    policyGate.shutIn c.new) &&
      e.tx.events.any fun d => d.task.serverId = 1 && automatic d.task
  | _ => false

/-- The policy is switched off between the snapshot of a heartbeat's insert and its commit: the next heartbeat
    claims the update. -/
theorem claimed_after_disabling : ¬∀ p rows₀, (∀ k r, rows₀ k = some r → (spec p).row k r) →
    DisablingEffective p (fun _ _ => True) rows₀ := by
  intro effective
  obtain ⟨s, s', reachable, before, run, after⟩ := Listed.reaches_of_check (serve plainPlatform) 0 followedServer
    (queueing 0 ++ disabling 1) ([.insert 0 100, .next 0] ++ claiming 2) switchedOff claimed (by decide +kernel)
  simp only [switchedOff, Bool.and_eq_true, decide_eq_true_eq, Option.isNone_iff_eq_none] at before
  obtain ⟨⟨two, off⟩, new⟩ := before
  obtain ⟨more, hlog⟩ : s.log <:+ s'.log := log_suffix run
  unfold claimed at after
  split at after
  · rename_i e e₁ e₂ x y hlog'
    have same : more ++ s.log = [e, e₁, e₂] ++ [x, y] := hlog.trans hlog'
    obtain ⟨rfl, -⟩ := List.append_inj' same two
    simp only [Bool.and_eq_true, List.all_eq_true, List.any_eq_true, decide_eq_true_eq, Option.all_eq_true] at after
    obtain ⟨⟨session, stays⟩, d, hd, hid, automatic_⟩ := after
    have none_ := effective plainPlatform _ (fun _ _ => followedServer_valid) s.state s'.state reachable.reachableBy
      (run.lift id fun _ _ step => ⟨step, trivial⟩) 1 (Option.isSome_iff_ne_none.mp off) [] e [e₁, e₂]
      hlog.symm stays (by rw [session]; exact new) d hd hid
    exact absurd automatic_ (Bool.eq_false_iff.mp none_)
  · cases after

end AutoUpdate
end DatrixOps
