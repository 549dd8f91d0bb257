import DatrixOps.Server.Uninstall

/-! The primary key and the unique index of the tasks, which every statement keeps: at most one update of a
    server is pending or in processing. -/

namespace DatrixOps
open Postgres

/-- The primary key, and `idx_server_tasks_active_agent_update`. -/
structure Indexed (tasks : List ServerTask) : Prop where
  one : ∀ t ∈ tasks, ∀ t' ∈ tasks, t.activeUpdate = true → t'.activeUpdate = true → t.serverId = t'.serverId → t = t'
  distinct : (tasks.map (·.id)).Nodup

/-- A statement that makes no update pending or in processing that was not before. -/
structure Calms (tasks : List ServerTask) (u : Update ServerTask) : Prop where
  id : ∀ t, (u.set t).id = t.id
  serverId : ∀ t, (u.set t).serverId = t.serverId
  active : ∀ t ∈ tasks, u.where_ t = true → (u.set t).activeUpdate = true → t.activeUpdate = true

theorem activeUpdate_iff {t : ServerTask} : t.activeUpdate = true ↔ t.type = .agentUpdate ∧
    (t.status = .pending ∨ t.status = .processing) := by
  simp [ServerTask.activeUpdate, ServerTask.live]

namespace Indexed
variable {tasks : List ServerTask} {u : Update ServerTask} {db : Db} {p : Platform} {now : Time} {id : Uuid}

theorem eq_of_id (h : Indexed tasks) {t t' : ServerTask} (ht : t ∈ tasks) (ht' : t' ∈ tasks)
    (hid : t.id = t'.id) : t = t' :=
  List.inj_on_of_nodup_map h.distinct ht ht' hid

/-- An active update after the statement is one of before. -/
theorem active_run (hu : Calms tasks u) {t : ServerTask} (ht : t ∈ u.run tasks) (ha : t.activeUpdate = true) :
    ∃ old ∈ tasks, u.row old = t ∧ old.activeUpdate = true ∧ old.serverId = t.serverId := by
  obtain ⟨old, hold, rfl⟩ := Update.mem_run.mp ht
  refine ⟨old, hold, rfl, ?_⟩
  cases hw : u.where_ old with
  | true =>
    rw [Update.row_of_where hw] at ha ⊢
    exact ⟨hu.active old hold hw ha, (hu.serverId old).symm⟩
  | false =>
    rw [Update.row_of_not_where hw] at ha ⊢
    exact ⟨ha, rfl⟩

theorem run (h : Indexed tasks) (hu : Calms tasks u) : Indexed (u.run tasks) where
  one t ht t' ht' ha ha' hs := by
    obtain ⟨old, hold, rfl, hact, hserver⟩ := active_run hu ht ha
    obtain ⟨old', hold', rfl, hact', hserver'⟩ := active_run hu ht' ha'
    rw [h.one old hold old' hold' hact hact' (hserver.trans (hs.trans hserver'.symm))]
  distinct := by
    rw [Update.map_run hu.id]
    exact h.distinct

theorem filter (h : Indexed tasks) (p : ServerTask → Bool) : Indexed (tasks.filter p) where
  one t ht t' ht' := h.one t (List.mem_of_mem_filter ht) t' (List.mem_of_mem_filter ht')
  distinct := h.distinct.sublist (List.filter_sublist.map _)

/-- A task is ended. -/
theorem finish {status : TaskStatus} {result : ServerTask → Option String} {where_ : ServerTask → Bool}
    (h : status ≠ .pending ∧ status ≠ .processing) : Calms tasks ⟨where_, fun t => t.finish now status (result t)⟩ where
  id _ := rfl
  serverId _ := rfl
  active t _ _ ha := by simp [ServerTask.activeUpdate, ServerTask.live, ServerTask.finish, h] at ha

theorem insertTask {row : Uuid → ServerTask} (h : Indexed db.tasks) (hid : (row id).id = id) :
    Indexed ((db.insertTask row id).getD db).tasks := by
  unfold Db.insertTask
  split
  · rename_i hfree
    simp only [Bool.and_eq_true, List.all_eq_true, decide_eq_true_eq, Bool.not_eq_true'] at hfree
    have free : ∀ t ∈ db.tasks, t.activeUpdate = true → (row id).activeUpdate = true →
        t.serverId ≠ (row id).serverId := by
      intro t ht ha hrow hserver
      have := (hfree.2 t ht).2
      simp [ServerTask.conflicts, hserver, ha, hrow] at this
    constructor
    · intro t ht t' ht' ha ha' hs
      rcases List.mem_append.mp ht with ht | ht
      · rcases List.mem_append.mp ht' with ht' | ht'
        · exact h.one t ht t' ht' ha ha' hs
        · obtain rfl := List.mem_singleton.mp ht'
          exact absurd hs (free t ht ha ha')
      · obtain rfl := List.mem_singleton.mp ht
        rcases List.mem_append.mp ht' with ht' | ht'
        · exact absurd hs.symm (free t' ht' ha' ha)
        · exact (List.mem_singleton.mp ht').symm
    · simp only [Option.getD_some, List.map_append, List.map_cons, List.map_nil]
      refine List.nodup_append.mpr ⟨h.distinct, List.nodup_singleton _, fun a ha b hb => ?_⟩
      obtain ⟨t, ht, rfl⟩ := List.mem_map.mp ha
      rw [List.mem_singleton.mp hb, hid]
      exact (hfree.2 t ht).1
  · exact h

/-- The tasks claimed were pending. -/
theorem claimTasks {serverId : Uuid} (h : Indexed db.tasks) : Indexed (db.claimTasks serverId).tasks := by
  refine h.run ⟨fun _ => rfl, fun _ => rfl, fun t ht hw ha => ?_⟩
  obtain ⟨claimed, hc, hid⟩ := List.mem_map.mp (of_decide_eq_true hw)
  have hc := List.mem_filter.mp (List.mem_mergeSort.mp (List.mem_of_mem_take hc))
  rw [← h.eq_of_id hc.1 ht hid]
  have pending := hc.2
  simp only [claimable, Bool.and_eq_true, decide_eq_true_eq] at pending
  rw [h.eq_of_id hc.1 ht hid] at pending ⊢
  exact activeUpdate_iff.mpr ⟨(activeUpdate_iff.mp ha).1, Or.inl pending.1.2⟩

theorem recordTaskResult {status : ReportStatus} {result : String} {where_ : ServerTask → Bool}
    (hw : ∀ t, where_ t = true → t.status = .processing) :
      Calms tasks ⟨where_, DatrixOps.recordTaskResult now status result⟩ where
  id _ := rfl
  serverId _ := rfl
  active t _ ht ha := activeUpdate_iff.mpr ⟨(activeUpdate_iff.mp ha).1, Or.inr (hw t ht)⟩

theorem reportTaskResult {token : String} {taskId : Uuid} {status : ReportStatus} {result : String}
    (h : Indexed db.tasks) :
    Indexed (db.reportTaskResult p token taskId status result).tasks := by
  unfold Db.reportTaskResult
  dsimp only
  split
  · exact h
  · have calms : Calms db.tasks ⟨fun t => db.servers.any fun s =>
      s.ownsToken token (p.sha256Hex token) && reportable taskId s.id t,
        DatrixOps.recordTaskResult db.now status result⟩ := recordTaskResult fun t ht => by
      obtain ⟨s, -, hs⟩ := List.any_eq_true.mp ht
      simp only [reportable, Bool.and_eq_true, decide_eq_true_eq] at hs
      exact hs.2.1.2
    have recorded := h.run calms
    split
    · cases status with
      | completed => exact recorded
      | failed => exact recorded
    · exact recorded

theorem requestAgentUninstall {userId taskId : Uuid} {payload : Jsonb} {hash : String} (h : Indexed db.tasks) :
    Indexed (db.requestAgentUninstall p id userId payload hash taskId).tasks := by
  unfold Db.requestAgentUninstall
  split
  · exact h
  · split
    · exact h
    · have swept : Indexed ((db.updateServers (markDeletionPending db.now id userId hash)).updateTasks
          (expireQueued db.now id)).tasks :=
        h.run (finish (by decide))
      have queued := swept.insertTask (show (uninstallTask db.now id userId payload taskId).id = taskId from rfl)
      dsimp only
      cases hi : (Db.updateTasks (db.updateServers (markDeletionPending db.now id userId hash))
        (expireQueued db.now id)).insertTask
          (uninstallTask db.now id userId payload) taskId with
      | none => exact h
      | some db' =>
        rw [hi] at queued
        exact queued

theorem confirmUninstall {req : ConfirmUninstallRequest} (h : Indexed db.tasks) :
    Indexed (db.confirmUninstall p req).tasks := by
  unfold Db.confirmUninstall
  split
  · cases req.status with
    | completed => exact h.filter _
    | failed => exact h.run (finish (by decide))
  · exact h

theorem expireStaleAgentUninstalls {userId : Uuid} (h : Indexed db.tasks) :
    Indexed (db.expireStaleAgentUninstalls userId).tasks := by
  refine h.run ⟨fun _ => rfl, fun _ => rfl, fun t _ _ ha => ?_⟩
  simp only [expireStaleTasks, endStaleUninstall, ServerTask.finish, ServerTask.activeUpdate, ServerTask.live] at ha
  split at ha
  · simp at ha
  · simp at ha

/-- Every statement keeps the index. -/
theorem step (h : Indexed db.tasks) (op : Op) : Indexed (db.step p op).tasks := by
  cases op with
  | tick | markOnline => exact h
  | requestAgentUninstall => exact h.requestAgentUninstall
  | queueAutomaticUpdate serverId payload version taskId =>
    change Indexed (db.queueAutomaticUpdate serverId payload version taskId).tasks
    unfold Db.queueAutomaticUpdate
    split
    · exact h.insertTask rfl
    · exact h
  | claimTasks => exact h.claimTasks
  | reportTaskResult => exact h.reportTaskResult
  | confirmUninstall => exact h.confirmUninstall
  | createTask serverId userId req taskId =>
    change Indexed (db.createTask serverId userId req taskId).tasks
    unfold Db.createTask
    split
    · exact h.insertTask rfl
    · exact h
  | expireStaleAgentUninstalls => exact h.expireStaleAgentUninstalls
  | confirmAgentUpdate | expireTasks | timeOutTasks | cancelTask | cancelUpdates | expireStaleUpdates |
      timeOutStaleUpdates =>
    exact h.run (finish (by decide))

end Indexed
end DatrixOps
