import DatrixOps.Postgres.Rules
import DatrixOps.Server.Handlers

/-! What the handlers do to tasks and servers, statement by statement, once for every specification of their commits:
    what each statement keeps true of its transaction, the handlers keep. -/

namespace DatrixOps
open Postgres Prog

namespace Lifecycle

/-- The task is over. -/
def Terminal (s : TaskStatus) : Prop := s ≠ .pending ∧ s ≠ .processing

/-- A status stays, or moves from pending to another, or from processing to a terminal one. -/
def Forward (a b : TaskStatus) : Prop := b = a ∨ a = .pending ∨ (a = .processing ∧ Terminal b)

theorem Forward.trans {a b c : TaskStatus} (h₁ : Forward a b) (h₂ : Forward b c) : Forward a c := by
  rcases h₁ with rfl | rfl | ⟨rfl, hb⟩
  · exact h₂
  · exact Or.inr (Or.inl rfl)
  · rcases h₂ with rfl | rfl | ⟨rfl, -⟩
    · exact Or.inr (Or.inr ⟨rfl, hb⟩)
    · exact absurd rfl hb.1
    · exact absurd rfl hb.2

end Lifecycle

/-- The task `t` further on. -/
structure ServerTask.Advances (t t' : ServerTask) : Prop where
  id : t'.id = t.id
  serverId : t'.serverId = t.serverId
  type : t'.type = t.type
  payload : t'.payload = t.payload
  expiresAt : t'.expiresAt = t.expiresAt
  status : Lifecycle.Forward t.status t'.status

/-- The server `s` with its uninstall token left as it is, or cleared. -/
structure Server.Spares (s s' : Server) : Prop where
  id : s'.id = s.id
  token : (s'.uninstallTokenHash = s.uninstallTokenHash ∧ s'.uninstallTokenExpiresAt = s.uninstallTokenExpiresAt) ∨
    s'.uninstallTokenHash = none

/-- The statements of a call keep `J`, and a transaction that satisfies it may commit, also with a task queued. -/
structure Keeping {Q : Type} (S : Spec Q Uuid Row Dispatch Response) (q : Q)
    (J : Tx Uuid Row Dispatch → Prop) : Prop where
  rowTask : ∀ k t t', t.Advances t' → S.row k (.task t) → S.row k (.task t')
  rowServer : ∀ k s s', s'.id = s.id → S.row k (.server s) → S.row k (.server s')
  rowQueued : ∀ k t, t.id = k → S.row k (.task t)
  empty : ∀ now, J (.empty now)
  task : ∀ tx k base t t', J tx → tx.view k base = some (.task t) → t.Advances t' →
    J (tx.write k base (some (.task t')))
  server : ∀ tx k base s s', J tx → tx.view k base = some (.server s) → S.row k (.server s) → s.Spares s' →
    J (tx.write k base (some (.server s')))
  delete : ∀ tx k base r, J tx → tx.view k base = some r → J (tx.write k base none)
  commit : ∀ past tx, J tx → S.commit q past tx
  queued : ∀ past tx k t, J tx → t.status = .pending → S.commit q past (tx.create k (.task t))
  answer : ∀ past a, (∀ tasks, a = .heartbeat tasks → tasks = []) → S.answer q past a

/-- A program is sound between transactions, whatever its session has committed. -/
def Sound {Q : Type} (S : Spec Q Uuid Row Dispatch Response) (q : Q) (prog : Handler) : Prop :=
  ∀ past, prog.Safe S q past none

namespace Keeping
variable {Q : Type} {S : Spec Q Uuid Row Dispatch Response} {q : Q} {J : Tx Uuid Row Dispatch → Prop}
  {past : List (Tx Uuid Row Dispatch)} {tx : Tx Uuid Row Dispatch} {t : ServerTask} {s : Server}

/-! ### Statements -/

theorem tasks (K : Keeping S q J) {u : List (Uuid × Row) → Update ServerTask}
    {next : List (Uuid × ServerTask) → Handler}
    (hu : ∀ snapshot t, (u snapshot).where_ t = true → t.Advances ((u snapshot).set t)) (hJ : J tx)
    (done : ∀ found tx, J tx → (next found).Safe S q past (some tx)) :
    (update serverTasks u next).Safe S q past (some tx) := by
  refine safe_update (J := fun _ => J) hJ (fun snapshot _ tx k base t hJ _ hv valid hw => ?_) done
  exact ⟨K.rowTask k t _ (hu snapshot t hw) valid, K.task tx k base t _ hJ hv (hu snapshot t hw)⟩

theorem servers (K : Keeping S q J) {u : List (Uuid × Row) → Update Server} {next : List (Uuid × Server) → Handler}
    (hu : ∀ snapshot s, Server.Spares s ((u snapshot).set s)) (hJ : J tx)
    (done : ∀ found tx, J tx → (next found).Safe S q past (some tx)) :
    (update DatrixOps.servers u next).Safe S q past (some tx) := by
  refine safe_update (J := fun _ => J) hJ (fun snapshot _ tx k base s hJ _ hv valid _ => ?_) done
  exact ⟨K.rowServer k s _ (hu snapshot s).id valid, K.server tx k base s _ hJ hv valid (hu snapshot s)⟩

theorem lockServers (K : Keeping S q J) {which : Server → Bool} {next : List (Uuid × Server) → Handler} (hJ : J tx)
    (done : ∀ found tx, J tx → (next found).Safe S q past (some tx)) :
    (selectForUpdate DatrixOps.servers which (fun _ _ => true) false none next).Safe S q past (some tx) :=
  safe_selectForUpdate (J := fun _ => J) hJ
    (fun _ tx k base s hJ _ hv valid _ => K.server tx k base s s hJ hv valid ⟨rfl, Or.inl ⟨rfl, rfl⟩⟩) done

theorem deleteServers (K : Keeping S q J) {ids : List Uuid} {next : Handler} (hJ : J tx)
    (done : ∀ tx, J tx → next.Safe S q past (some tx)) : (DatrixOps.deleteServers ids next).Safe S q past (some tx) :=
  safe_delete hJ (fun tx k base _ hJ hv _ _ => K.delete tx k base _ hJ hv) fun _ hJ =>
    safe_delete hJ (fun tx k base _ hJ hv _ _ => K.delete tx k base _ hJ hv) done

theorem committed (K : Keeping S q J) {next : Handler} (hJ : J tx) (hn : Sound S q next) :
    (Prog.commit next).Safe S q past (some tx) := ⟨K.commit past tx hJ, hn _⟩

/-! ### Calls -/

theorem accepted (K : Keeping S q J) : Sound S q (.answer .accepted) := fun past => K.answer past _ (by simp)

theorem refused (K : Keeping S q J) : Sound S q (.answer .refused) := fun past => K.answer past _ (by simp)

theorem attempt {statement : Handler → Handler} {next : Handler} (hn : Sound S q next)
    (hs : Sound S q next → Sound S q (statement next)) : Sound S q (attempt statement next) := by
  intro past fails
  dsimp only
  split
  · exact hn past
  · exact hs hn past

theorem updateTasks (K : Keeping S q J) {u : Time → Update ServerTask} {next : Handler}
    (hu : ∀ now t, (u now).where_ t = true → t.Advances ((u now).set t)) (hn : Sound S q next) :
    Sound S q (updateTasks u next) := fun _ now =>
  K.tasks (fun _ t => hu now t) (K.empty now) fun _ _ hJ => K.committed hJ hn

/-- What is queued is committed by itself. -/
theorem queue (K : Keeping S q J) {row : Uuid → ServerTask} {conflict : Row → Bool} {next : Handler}
    (hr : ∀ id, (row id).id = id ∧ (row id).status = .pending) (hJ : J tx) (hn : Sound S q next) :
    (Prog.insert (fun id => some (.task (row id))) conflict fun _ => .commit next : Handler).Safe S q past
    (some tx) := by
  refine ⟨K.committed hJ hn, fun k r hk _ => ?_⟩
  obtain rfl := Option.some.inj hk
  exact ⟨K.rowQueued k _ (hr k).1, K.queued past tx k _ hJ (hr k).2, hn _⟩

theorem insertTask (K : Keeping S q J) {row : Time → Uuid → ServerTask} {next : Handler}
    (hr : ∀ now id, (row now id).id = id ∧ (row now id).status = .pending) (hn : Sound S q next) :
    Sound S q (insertTask row next) := fun _ now => K.queue (hr now) (K.empty now) hn

theorem select (K : Keeping S q J) {α : Type} {read : Time → List (Uuid × Row) → α} {next : α → Handler}
    (hn : ∀ a, Sound S q (next a)) : Sound S q (select read next) := fun _ now _ _ _ => K.committed (K.empty now) (hn _)

/-- Ending a task that is not over. -/
theorem finish {now : Time} {status : TaskStatus} {result : Option String}
    (hl : t.status = .pending ∨ (t.status = .processing ∧ Lifecycle.Terminal status)) :
      t.Advances (t.finish now status result) :=
  ⟨rfl, rfl, rfl, rfl, rfl, Or.inr hl⟩

theorem expireStale (K : Keeping S q J) {userId : Uuid} {next : Handler} (hn : Sound S q next) :
    Sound S q (expireStaleAgentUninstalls userId next) := by
  intro past now snapshot sees _
  refine safe_on (J := fun _ => J) (nodup_matching sees.nodup) (K.empty now) (fun _ tx k base t hJ _ hv valid hw => ?_)
    fun ended tx hJ => safe_on (J := fun _ => J) (nodup_matching sees.nodup) hJ
      (fun _ tx k base s hJ _ hv valid _ => ?_)
      fun _ _ hJ => K.servers (fun _ _ => ⟨rfl, Or.inr rfl⟩) hJ fun _ _ hJ => K.committed hJ hn
  · have advances : t.Advances (endStaleUninstall now t) := by
      refine finish ?_
      simp only [expireStaleTasks, staleUninstall, Bool.and_eq_true, Bool.or_eq_true, decide_eq_true_eq] at hw
      rcases hw.2.2 with ⟨h, -⟩ | ⟨h, -⟩
      · exact Or.inl h
      · refine Or.inr ⟨h, ?_⟩
        rw [if_neg (by simp [h])]
        exact ⟨by decide, by decide⟩
    exact ⟨fun t' ht' => Option.some.inj ht' ▸ K.rowTask k t _ advances valid, K.task tx k base t _ hJ hv advances⟩
  · exact ⟨fun s' hs' => Option.some.inj hs' ▸ K.rowServer k s _ rfl valid,
      K.server tx k base s _ hJ hv valid ⟨rfl, Or.inr rfl⟩⟩

theorem getServer (K : Keeping S q J) {id userId : Uuid} {next : Server → Handler} (hn : ∀ s, Sound S q (next s)) :
    Sound S q (getServer id userId next) := by
  refine K.expireStale (K.select fun found => ?_)
  cases found with
  | none => exact K.refused
  | some found => exact hn found.2

theorem expireStaleUpdates (K : Keeping S q J) {serverId : Uuid} {next : Handler} (hn : Sound S q next) :
    Sound S q (expireStaleAgentUpdateTasks serverId next) := by
  refine attempt (attempt hn fun hn => ?_) fun hn => ?_
  · refine K.updateTasks (fun now t hw => finish (Or.inr ?_)) hn
    simp only [timeOutStaleUpdates, Bool.and_eq_true, decide_eq_true_eq] at hw
    exact ⟨hw.1.2, by decide, by decide⟩
  · refine K.updateTasks (fun now t hw => finish (Or.inl ?_)) hn
    simp only [DatrixOps.expireStaleUpdates, Bool.and_eq_true, decide_eq_true_eq] at hw
    exact hw.1.2

theorem reportTaskResult (K : Keeping S q J) {p : Platform} {token : String} {taskId : Uuid} {status : ReportStatus}
    {result : String} : Sound S q (reportTaskResult p token taskId status result) := by
  intro past now
  refine K.tasks (fun snapshot t hw => ?_) (K.empty now) fun found tx hJ => ?_
  · obtain ⟨s, -, hw⟩ := List.any_eq_true.mp hw
    have hst : t.status = .processing := by
      simp only [reportable, Bool.and_eq_true, decide_eq_true_eq] at hw
      exact hw.2.1.2
    refine ⟨rfl, rfl, rfl, rfl, rfl, ?_⟩
    simp only [recordTaskResult]
    split
    · exact Or.inl hst.symm
    · exact Or.inr (Or.inr ⟨hst, by cases status <;> exact ⟨by decide, by decide⟩⟩)
  · cases found with
    | nil => exact K.refused _
    | cons kt _ =>
      dsimp only
      split
      · refine K.servers (fun _ s => ?_) hJ fun _ _ hJ => K.committed hJ K.accepted
        cases status with
        | completed => exact ⟨rfl, Or.inl ⟨rfl, rfl⟩⟩
        | failed => exact ⟨rfl, Or.inr rfl⟩
      · exact K.committed hJ K.accepted

theorem cancelTask (K : Keeping S q J) {userId serverId : Uuid} {taskId : Option Uuid} :
    Sound S q (cancelTask userId serverId taskId) := by
  refine K.getServer fun _ => ?_
  have ends : ∀ t : ServerTask, t.live = true → t.status = .pending ∨
      (t.status = .processing ∧ Lifecycle.Terminal .cancelled) := by
    intro t ht
    simp only [ServerTask.live, Bool.or_eq_true, decide_eq_true_eq] at ht
    rcases ht with h | h
    · exact Or.inl h
    · exact Or.inr ⟨h, by decide, by decide⟩
  cases taskId with
  | some taskId =>
    refine K.updateTasks (fun now t hw => finish (ends t ?_)) K.accepted
    simp only [cancelOne, Bool.and_eq_true] at hw
    exact hw.2
  | none =>
    refine K.updateTasks (fun now t hw => finish (ends t ?_)) K.accepted
    simp only [cancelUpdates, Bool.and_eq_true] at hw
    exact hw.2

theorem createTask (K : Keeping S q J) {userId serverId : Uuid} {req : CreateTaskRequest} :
    Sound S q (createTask userId serverId req) := by
  have queued : Sound S q (DatrixOps.insertTask (fun now => .inserted now serverId req.type req.payload (some userId)
      (nullIfEmpty req.idempotencyKey) req.storedTimeout (24 * hour)) (.answer .accepted)) :=
    K.insertTask (fun _ _ => ⟨rfl, rfl⟩) K.accepted
  unfold DatrixOps.createTask
  split
  · refine K.getServer fun server => ?_
    split
    · exact K.refused
    · intro past allowed
      dsimp only
      split
      · split
        · exact K.expireStaleUpdates queued past
        · exact queued past
      · exact K.refused past
  · exact K.refused

theorem updateAgents (K : Keeping S q J) {userId : Uuid} {payload : Jsonb} :
    ∀ list, Sound S q (updateAgents userId payload list)
  | [] => K.accepted
  | server :: rest => by
    have hrest : Sound S q (DatrixOps.updateAgents userId payload rest) := updateAgents K rest
    unfold DatrixOps.updateAgents
    split
    · exact hrest
    · intro past available
      dsimp only
      split
      · exact K.expireStaleUpdates (K.insertTask (fun _ _ => ⟨rfl, rfl⟩) hrest) past
      · exact hrest past

theorem updateAllAgents (K : Keeping S q J) {userId : Uuid} {payload : Jsonb} :
    Sound S q (updateAllAgents userId payload) :=
  K.expireStale (K.select K.updateAgents)

theorem setAgentAutoUpdate (K : Keeping S q J) {id userId : Uuid} {enabled : Bool} :
    Sound S q (setAgentAutoUpdate id userId enabled) := by
  intro past now
  refine K.servers (fun _ _ => ⟨rfl, Or.inl ⟨rfl, rfl⟩⟩) (K.empty now) fun found tx hJ => ?_
  cases found with
  | nil => exact K.refused _
  | cons _ _ =>
    dsimp only
    split
    · exact K.committed hJ K.accepted
    · refine K.tasks (fun _ t hw => finish (Or.inl ?_)) hJ fun _ _ hJ => K.committed hJ K.accepted
      simp only [expireAutomaticUpdates, Bool.and_eq_true, decide_eq_true_eq] at hw
      exact hw.1.2

theorem removeServers (K : Keeping S q J) {which : Server → Bool} :
    Sound S q (.start fun _ => selectForUpdate DatrixOps.servers which (fun _ _ => true) false none fun found =>
      DatrixOps.deleteServers (found.map fun s => s.2.id) (.commit (.answer .accepted))) :=
  fun _ now => K.lockServers (K.empty now) fun _ _ hJ => K.deleteServers hJ fun _ hJ => K.committed hJ K.accepted

theorem queueAutomaticUpdate (K : Keeping S q J) {release : AgentRelease} {serverId : Uuid} {next : Handler}
    (hn : Sound S q next) :
    Sound S q (queueAutomaticUpdate release serverId next) := by
  intro past now snapshot _ _
  dsimp only
  split
  · exact K.queue (fun _ => ⟨rfl, rfl⟩) (K.empty now) hn
  · exact K.committed (K.empty now) hn

/-- The statements of a heartbeat but the claim. -/
theorem serveTasks (K : Keeping S q J) {req : HeartbeatRequest} {release : AgentRelease} {server : Server}
    (claim : Sound S q (claimTasks server)) : Sound S q (serveTasks req release server) := by
  have expire : Sound S q (DatrixOps.attempt (DatrixOps.updateTasks (expireTasks · server.id)) <|
      DatrixOps.attempt (DatrixOps.updateTasks (timeOutTasks · server.id)) <|
        .ask fun fails => if fails then .answer (.heartbeat []) else claimTasks server) := by
    refine attempt (attempt (fun past fails => ?_) fun hn => ?_) fun hn => ?_
    · dsimp only
      split
      · exact K.answer past _ (by simp)
      · exact claim past
    · refine K.updateTasks (fun now t hw => finish (Or.inr ?_)) hn
      simp only [timeOutTasks, Bool.and_eq_true, decide_eq_true_eq] at hw
      exact ⟨hw.1.2, by decide, by decide⟩
    · refine K.updateTasks (fun now t hw => finish (Or.inl ?_)) hn
      simp only [expireTasks, Bool.and_eq_true, decide_eq_true_eq] at hw
      exact hw.1.2
  have queue : ∀ b : Prop, [Decidable b] → Sound S q
      (if b then DatrixOps.attempt (DatrixOps.queueAutomaticUpdate release server.id) _ else _) := fun b _ => by
    split
    · exact attempt expire K.queueAutomaticUpdate
    · exact expire
  unfold DatrixOps.serveTasks
  dsimp only
  split
  · refine attempt (queue _) fun hn => K.updateTasks (fun now t hw => finish (Or.inr ?_)) hn
    simp only [confirmAgentUpdate, Bool.and_eq_true, decide_eq_true_eq] at hw
    exact ⟨hw.2, by decide, by decide⟩
  · exact queue _

/-- Marking the server online returns it with the token of the request. -/
theorem mark (K : Keeping S q J) {req : HeartbeatRequest} {hash : String} {next : List (Uuid × Server) → Handler}
    (hn : ∀ found, (∀ ks ∈ found, ks.2.ownsToken req.agentToken hash = true) → Sound S q (next found)) :
    Sound S q (.start fun now => update DatrixOps.servers (fun _ => markOnline now req hash) fun marked =>
      .commit (next marked)) := by
  intro past now
  refine safe_update (J := fun found tx => J tx ∧ ∀ ks ∈ found, ks.2.ownsToken req.agentToken hash = true)
    ⟨K.empty now, fun _ h => (by cases h)⟩ ?_ fun found tx hJ => K.committed hJ.1 (hn found hJ.2)
  rintro _ found tx k base s ⟨hJ, hfound⟩ _ hv valid hw
  refine ⟨K.rowServer k s _ rfl valid, K.server tx k base s _ hJ hv valid ⟨rfl, Or.inl ⟨rfl, rfl⟩⟩, fun ks hks => ?_⟩
  rcases List.mem_append.mp hks with hks | hks
  · exact hfound ks hks
  · rw [List.mem_singleton.mp hks]
    exact hw

theorem heartbeat (K : Keeping S q J) {p : Platform} {req : HeartbeatRequest} {release : AgentRelease}
    (claim : ∀ server, server.ownsToken req.agentToken (p.sha256Hex req.agentToken) = true →
      Sound S q (claimTasks server)) :
    Sound S q (heartbeat p req release) := by
  refine K.mark fun found h => ?_
  cases found with
  | cons ks rest => exact K.serveTasks (claim ks.2 (h ks (List.mem_cons_self ..)))
  | nil =>
    intro past selfMonitor
    dsimp only
    split
    · refine K.mark (fun found h => ?_) past
      cases found with
      | cons ks rest => exact K.serveTasks (claim ks.2 (h ks (List.mem_cons_self ..)))
      | nil => exact K.refused
    · exact K.refused past

end Keeping
end DatrixOps
