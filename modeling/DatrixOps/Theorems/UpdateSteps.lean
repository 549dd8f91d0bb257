import DatrixOps.Server.AgentUpdate

/-! What one statement does to the tasks: each stays what it is unless its server is removed, and no statement but the
    heartbeat's confirmation completes an update. -/

namespace DatrixOps
open Postgres

/-- `t` and `t'` are versions of one task. -/
structure ServerTask.Same (t t' : ServerTask) : Prop where
  id : t'.id = t.id
  serverId : t'.serverId = t.serverId
  type : t'.type = t.type
  payload : t'.payload = t.payload
  createdAt : t'.createdAt = t.createdAt

theorem ServerTask.Same.refl (t : ServerTask) : t.Same t := ⟨rfl, rfl, rfl, rfl, rfl⟩

theorem ServerTask.Same.trans {t t' t'' : ServerTask} (h : t.Same t') (h' : t'.Same t'') : t.Same t'' where
  id := h'.id.trans h.id
  serverId := h'.serverId.trans h.serverId
  type := h'.type.trans h.type
  payload := h'.payload.trans h.payload
  createdAt := h'.createdAt.trans h.createdAt

/-- A statement that completes no update but those in `done`, keeps tasks unless it removes their server, and adds no
    server. -/
structure Evolves (done : ServerTask → Prop) (db db' : Db) : Prop where
  completed : ∀ t' ∈ db'.tasks, t'.type = .agentUpdate → t'.status = .completed →
    ∃ t ∈ db.tasks, t.Same t' ∧ (t.status = .completed ∨ done t)
  kept : ∀ t ∈ db.tasks, (∃ t' ∈ db'.tasks, t.Same t') ∨ ∀ s ∈ db'.servers, s.id ≠ t.serverId
  servers : ∀ s' ∈ db'.servers, ∃ s ∈ db.servers, s.id = s'.id

/-- A version that an update leaves: the same task, not completed by it unless in `done`. -/
structure Leaves (done : ServerTask → Prop) (t t' : ServerTask) : Prop where
  same : t.Same t'
  completed : t'.type = .agentUpdate → t'.status = .completed → t.status = .completed ∨ done t

namespace Evolves
variable {p : Platform} {db db' db'' : Db} {done : ServerTask → Prop} {u : Update ServerTask}
  {now : Time} {id : Uuid}

theorem refl : Evolves done db db where
  completed t ht _ hc := ⟨t, ht, .refl t, Or.inl hc⟩
  kept t ht := Or.inl ⟨t, ht, .refl t⟩
  servers s hs := ⟨s, hs, rfl⟩

theorem trans (h : Evolves done db db') (h' : Evolves (fun _ => False) db' db'') : Evolves done db db'' := by
  refine ⟨fun t'' ht'' htype hc => ?_, fun t ht => ?_, fun s'' hs'' => ?_⟩
  · obtain ⟨t', ht', same', hc' | ⟨⟨⟩⟩⟩ := h'.completed t'' ht'' htype hc
    obtain ⟨t, ht, same, hc⟩ := h.completed t' ht' (same'.type.symm.trans htype) hc'
    exact ⟨t, ht, same.trans same', hc⟩
  · have gone : (∀ s ∈ db'.servers, s.id ≠ t.serverId) → ∀ s ∈ db''.servers, s.id ≠ t.serverId := by
      intro gone s hs heq
      obtain ⟨s', hs', hid⟩ := h'.servers s hs
      exact gone s' hs' (hid.trans heq)
    rcases h.kept t ht with ⟨t', ht', same⟩ | none_
    · rcases h'.kept t' ht' with ⟨t'', ht'', same'⟩ | none_
      · exact Or.inl ⟨t'', ht'', same.trans same'⟩
      · exact Or.inr (same.serverId ▸ none_)
    · exact Or.inr (gone none_)
  · obtain ⟨s', hs', hid'⟩ := h'.servers s'' hs''
    obtain ⟨s, hs, hid⟩ := h.servers s' hs'
    exact ⟨s, hs, hid.trans hid'⟩

theorem tasks (hu : ∀ t, u.where_ t = true → Leaves done t (u.set t)) : Evolves done db (db.updateTasks u) := by
  refine ⟨fun t' ht' htype hc => ?_, fun t ht => Or.inl ?_, fun s hs => ⟨s, hs, rfl⟩⟩
  · rcases Update.mem_run_cases ht' with ⟨ht', -⟩ | ⟨t, ht, hw, rfl⟩
    · exact ⟨t', ht', .refl t', Or.inl hc⟩
    · exact ⟨t, ht, (hu t hw).same, (hu t hw).completed htype hc⟩
  · cases hw : u.where_ t with
    | true => exact ⟨u.set t, Update.mem_run_of_where ht hw, (hu t hw).same⟩
    | false => exact ⟨t, Update.mem_run_of_not_where ht hw, .refl t⟩

theorem onServers {u : Update Server} (hu : ∀ s, (u.set s).id = s.id) : Evolves done db (db.updateServers u) := by
  refine ⟨fun t ht _ hc => ⟨t, ht, .refl t, Or.inl hc⟩, fun t ht => Or.inl ⟨t, ht, .refl t⟩, fun s' hs' => ?_⟩
  rcases Update.mem_run_cases hs' with ⟨hs', -⟩ | ⟨s, hs, -, rfl⟩
  · exact ⟨s', hs', rfl⟩
  · exact ⟨s, hs, (hu s).symm⟩

theorem insertTask (row : Uuid → ServerTask) (id : Uuid) (hr : (row id).status = .pending) :
    Evolves done db ((db.insertTask row id).getD db) := by
  unfold Db.insertTask
  split
  · refine ⟨fun t ht _ hc => ?_, fun t ht => Or.inl ⟨t, List.mem_append_left _ ht, .refl t⟩, fun s hs => ⟨s, hs, rfl⟩⟩
    rcases List.mem_append.mp ht with ht | ht
    · exact ⟨t, ht, .refl t, Or.inl hc⟩
    · rw [List.mem_singleton.mp ht, hr] at hc
      cases hc
  · exact refl

/-- A task ended with another status than completed. -/
theorem finish {status : TaskStatus} {result : ServerTask → Option String} {where_ : ServerTask → Bool}
    (h : status ≠ .completed) :
    Evolves done db (db.updateTasks ⟨where_, fun t => t.finish now status (result t)⟩) :=
  tasks fun _ _ => ⟨⟨rfl, rfl, rfl, rfl, rfl⟩, fun _ hc => absurd hc h⟩

theorem recordTaskResult {status : ReportStatus} {result : String} {where_ : ServerTask → Bool} :
    Evolves done db (db.updateTasks ⟨where_, DatrixOps.recordTaskResult now status result⟩) := by
  refine tasks fun t _ => ⟨⟨rfl, rfl, rfl, rfl, rfl⟩, fun htype hc => ?_⟩
  -- an update reported complete stays in processing
  have hupdate : t.type = .agentUpdate := htype
  cases status <;> simp [DatrixOps.recordTaskResult, hupdate, ReportStatus.toTask] at hc

theorem claimTasks {serverId : Uuid} : Evolves done db (db.claimTasks serverId) :=
  tasks fun _ _ => ⟨⟨rfl, rfl, rfl, rfl, rfl⟩, fun _ hc => by cases hc⟩

theorem requestAgentUninstall {userId taskId : Uuid} {payload : Jsonb} {hash : String} :
    Evolves done db (db.requestAgentUninstall p id userId payload hash taskId) := by
  unfold Db.requestAgentUninstall
  split
  · exact refl
  · split
    · exact refl
    · have swept : Evolves done db ((db.updateServers (markDeletionPending db.now id userId hash)).updateTasks
          (expireQueued db.now id)) := (onServers fun _ => rfl).trans (finish (by decide))
      dsimp only
      cases hi : (Db.updateTasks (db.updateServers (markDeletionPending db.now id userId hash))
        (expireQueued db.now id)).insertTask
          (uninstallTask db.now id userId payload) taskId with
      | none => exact refl
      | some db' =>
        have queued := swept.trans (insertTask (uninstallTask db.now id userId payload) taskId rfl)
        rwa [hi] at queued

theorem reportTaskResult {agentToken : String} {taskId : Uuid} {status : ReportStatus} {result : String} :
    Evolves done db (db.reportTaskResult p agentToken taskId status result) := by
  unfold Db.reportTaskResult
  dsimp only
  split
  · exact refl
  · split
    · cases status with
      | completed => exact recordTaskResult.trans (onServers fun _ => rfl)
      | failed => exact recordTaskResult.trans (onServers fun _ => rfl)
    · exact recordTaskResult

theorem confirmUninstall {req : ConfirmUninstallRequest} : Evolves done db (db.confirmUninstall p req) := by
  unfold Db.confirmUninstall
  split
  · cases req.status with
    | completed =>
      refine ⟨fun t ht _ hc => ⟨t, List.mem_of_mem_filter ht, .refl t, Or.inl hc⟩, fun t ht => ?_,
        fun s hs => ⟨s, List.mem_of_mem_filter hs, rfl⟩⟩
      by_cases hid : t.serverId = req.serverId
      · refine Or.inr fun s hs heq => ?_
        have other := of_decide_eq_true (List.mem_filter.mp hs).2
        exact other (heq.trans hid)
      · exact Or.inl ⟨t, List.mem_filter.mpr ⟨ht, decide_eq_true hid⟩, .refl t⟩
    | failed => exact (onServers fun _ => rfl).trans (finish (by decide))
  · exact refl

theorem createTask {serverId userId taskId : Uuid} {req : CreateTaskRequest} :
    Evolves done db (db.createTask serverId userId req taskId) := by
  unfold Db.createTask
  split
  · exact insertTask _ _ rfl
  · exact refl

theorem expireStaleAgentUninstalls {userId : Uuid} : Evolves done db (db.expireStaleAgentUninstalls userId) := by
  have ended : Evolves done db (db.updateTasks (expireStaleTasks db.now (db.serversOf userId))) := by
    refine tasks fun t _ => ⟨⟨rfl, rfl, rfl, rfl, rfl⟩, fun _ hc => ?_⟩
    simp only [expireStaleTasks, endStaleUninstall, ServerTask.finish] at hc
    split at hc <;> cases hc
  exact (ended.trans (onServers fun _ => rfl)).trans (onServers fun _ => rfl)

/-- Every statement but the two that depend on the version reported. -/
theorem step {op : Op} (plain : op.byVersion = false) : Evolves done db (db.step p op) := by
  cases op with
  | tick elapsed =>
    have same : Evolves done db db := refl
    exact ⟨same.completed, same.kept, same.servers⟩
  | requestAgentUninstall => exact requestAgentUninstall
  | markOnline => exact onServers fun _ => rfl
  | confirmAgentUpdate | queueAutomaticUpdate => cases plain
  | claimTasks => exact claimTasks
  | reportTaskResult => exact reportTaskResult
  | confirmUninstall => exact confirmUninstall
  | createTask => exact createTask
  | expireStaleAgentUninstalls => exact expireStaleAgentUninstalls
  | expireTasks | timeOutTasks | cancelTask | cancelUpdates | expireStaleUpdates |
    timeOutStaleUpdates => exact finish (by decide)

theorem queue {b : Beat} {taskId : Uuid} : Evolves done db (db.queue b taskId) := by
  unfold Db.queue
  split
  · unfold Db.queueAutomaticUpdate
    split
    · exact insertTask _ _ rfl
    · exact refl
  · exact refl

theorem setAgentAutoUpdate {userId : Uuid} {enabled : Bool} :
    Evolves done db (db.setAgentAutoUpdate id userId enabled) := by
  unfold Db.setAgentAutoUpdate
  dsimp only
  split
  · split
    · exact onServers fun _ => rfl
    · exact (onServers fun _ => rfl).trans (finish (by decide))
  · exact refl

end Evolves

namespace UpdateEvent
variable {p : Platform} {db : Db}

/-- The updates that a heartbeat completes. -/
def completes : UpdateEvent → ServerTask → Prop
  | .confirm b, t => b.compares .eq = true ∧ t.serverId = b.serverId ∧ t.type = .agentUpdate ∧ t.status = .processing
  | _, _ => False

/-- What one statement of a run does. -/
theorem evolves (e : UpdateEvent) : Evolves e.completes db (e.run p db) := by
  cases e with
  | confirm b =>
    change Evolves _ db (db.confirm b)
    unfold Db.confirm
    split
    · rename_i reports
      refine .tasks fun t hw => ⟨⟨rfl, rfl, rfl, rfl, rfl⟩, fun _ _ => Or.inr ⟨reports, ?_⟩⟩
      simp only [confirmAgentUpdate, Bool.and_eq_true, decide_eq_true_eq] at hw
      exact ⟨hw.1.1, hw.1.2, hw.2⟩
    · exact .refl
  | queue b taskId => exact .queue
  | setAgentAutoUpdate id userId enabled => exact .setAgentAutoUpdate
  | other op plain => exact .step plain

end UpdateEvent
end DatrixOps
