import DatrixOps.Server.Uninstall

/-! When the uninstall state machine leaves a server stuck. A server in `pending` is anchored by a live
    uninstall task, one in `uninstalling` by the expiry of its confirmation token: through these
    anchors ExpireStaleAgentUninstalls finds it. The generic statements on tasks (the heartbeat's
    timeouts, the cancel) can take the first anchor away, and a late success report can skip the
    second. -/

namespace DatrixOps
namespace Uninstall
open Postgres

/-! ### The property -/

/-- What ExpireStaleAgentUninstalls reaches a server by. -/
def AnchoredIn (tasks : List ServerTask) (s : Server) : Prop :=
  (s.deletionStatus = .pending → ∃ t ∈ tasks, t.serverId = s.id ∧ t.activeUninstall = true) ∧
  (s.deletionStatus = .uninstalling → s.uninstallTokenExpiresAt.isSome = true)

/-- Every server is within the reach of the sweep. -/
def Anchored (db : Db) : Prop := ∀ s ∈ db.servers, AnchoredIn db.tasks s

/-- When a live task is over: unclaimed at its expiry, claimed after its timeout. -/
def deadline (t : ServerTask) : Option Time :=
  if t.status = .pending then t.expiresAt else t.startedAt.map (· + t.timeoutSeconds * second)

/-- Every deadline of the user's uninstalls has passed. -/
def DeadlinesPassed (db : Db) (userId : Uuid) : Prop :=
  ∀ s ∈ db.servers, s.userId = userId →
    (∀ at_, s.uninstallTokenExpiresAt = some at_ → at_ ≤ db.now) ∧
    ∀ t ∈ db.tasks, t.serverId = s.id → t.activeUninstall = true → ∀ at_, deadline t = some at_ → at_ ≤ db.now

/-- No server is stuck: each is anchored, and once all deadlines have passed the sweep leaves none of the
    user's servers in an uninstall. -/
def NeverStuck (db : Db) : Prop :=
  Anchored db ∧ ∀ userId later, db.now ≤ later → DeadlinesPassed { db with now := later } userId →
    ∀ s ∈ (Db.expireStaleAgentUninstalls { db with now := later } userId).servers,
      s.userId = userId → s.deleting = false

/-- A statement on tasks spares the live uninstall task of every server whose deletion is pending. -/
def Spares (db : Db) (u : Update ServerTask) : Prop :=
  ∀ s ∈ db.servers, s.deletionStatus = .pending →
    ∀ t ∈ db.tasks, t.serverId = s.id → t.activeUninstall = true → u.where_ t = false

/-- The actions after which no server is stuck: a timeout of the heartbeat or a cancel spares the task of
    a pending uninstall, and an uninstall is reported complete only while its token has an expiry. -/
def Careful (p : Platform) (db : Db) : Op → Prop
  | .expireTasks serverId => Spares db (expireTasks db.now serverId)
  | .timeOutTasks serverId => Spares db (timeOutTasks db.now serverId)
  | .cancelTask taskId serverId => Spares db (cancelOne db.now taskId serverId)
  | .reportTaskResult agentToken taskId .completed _ =>
    ∀ s ∈ db.servers, s.ownsToken agentToken (p.sha256Hex agentToken) = true →
      ∀ t ∈ db.tasks, reportable taskId s.id t = true → t.type = .agentUninstall →
        ∀ s' ∈ db.servers, s'.id = s.id → s'.uninstallTokenExpiresAt.isSome = true
  | _ => True

/-- Ordinary servers: none is being deleted, and no uninstall task is live. -/
structure Ordinary (db : Db) : Prop where
  active : ∀ s ∈ db.servers, s.deletionStatus = .active
  idle : ∀ t ∈ db.tasks, t.activeUninstall = false
  distinct : (db.tasks.map (·.id)).Nodup

/-! ### The invariant -/

/-- A live task has the deadline of its status. -/
def Timed (t : ServerTask) : Prop :=
  (t.status = .pending → t.expiresAt.isSome = true) ∧ (t.status = .processing → t.startedAt.isSome = true)

/-- The uninstall tasks that are live: one a server, each with a deadline. -/
structure TasksInv (tasks : List ServerTask) : Prop where
  /-- the unique index on live uninstall tasks -/
  one : ∀ t ∈ tasks, ∀ t' ∈ tasks, t.activeUninstall = true → t'.activeUninstall = true →
    t.serverId = t'.serverId → t = t'
  timed : ∀ t ∈ tasks, t.activeUninstall = true → Timed t
  distinct : (tasks.map (·.id)).Nodup

/-- What is kept: servers are anchored, and so are tasks in time. -/
structure Inv (db : Db) : Prop where
  anchored : Anchored db
  tasks : TasksInv db.tasks

theorem Ordinary.inv {db : Db} (h : Ordinary db) : Inv db where
  anchored s hs := by
    unfold AnchoredIn
    rw [h.active s hs]
    exact ⟨by simp, by simp⟩
  tasks :=
    { one := fun t ht _ _ hl => by rw [h.idle t ht] at hl; cases hl
      timed := fun t ht hl => by rw [h.idle t ht] at hl; cases hl
      distinct := h.distinct }

theorem activeUninstall_iff {t : ServerTask} :
    t.activeUninstall = true ↔ t.type = .agentUninstall ∧ (t.status = .pending ∨ t.status = .processing) := by
  simp [ServerTask.activeUninstall, ServerTask.live]

/-- The sweep frees every server that is anchored, once its deadlines have passed. -/
theorem Inv.sweep {db : Db} (h : Inv db) {userId : Uuid} (passed : DeadlinesPassed db userId) :
    ∀ s ∈ (db.expireStaleAgentUninstalls userId).servers, s.userId = userId → s.deleting = false := by
  intro s hs hu
  simp only [Db.expireStaleAgentUninstalls, Db.updateServers, Db.updateTasks] at hs
  rcases Update.mem_run_cases hs with ⟨hs, hno⟩ | ⟨old, -, -, rfl⟩
  · rcases Update.mem_run_cases hs with ⟨hs, hnot⟩ | ⟨old, -, -, rfl⟩
    · -- neither statement matched: the anchor of `s` would have made one of them match
      have hids : s.id ∈ db.serversOf userId :=
        List.mem_map.mpr ⟨s, List.mem_filter.mpr ⟨hs, by simpa using hu⟩, rfl⟩
      by_contra hdel
      simp only [Server.deleting, Bool.not_eq_false, Bool.or_eq_true, decide_eq_true_eq] at hdel
      rcases hdel with hp | hp
      · obtain ⟨t, ht, hts, hact⟩ := (h.anchored s hs).1 hp
        have stale : staleUninstall db.now t = true := by
          obtain ⟨htype, hst⟩ := activeUninstall_iff.mp hact
          have hd := (passed s hs hu).2 t ht hts hact
          rcases hst with hst | hst
          · obtain ⟨at_, hat⟩ := Option.isSome_iff_exists.mp ((h.tasks.timed t ht hact).1 hst)
            have := hd at_ (by simp [deadline, hst, hat])
            simp [staleUninstall, htype, hst, ServerTask.overdue, hat, this]
          · obtain ⟨at_, hat⟩ := Option.isSome_iff_exists.mp ((h.tasks.timed t ht hact).2 hst)
            have := hd (at_ + t.timeoutSeconds * second) (by simp [deadline, hst, hat])
            simp [staleUninstall, htype, hst, ServerTask.overran, hat, this]
        have : s.id ∈ ((expireStaleTasks db.now (db.serversOf userId)).returning db.tasks).map (·.serverId) := by
          refine List.mem_map.mpr ⟨endStaleUninstall db.now t, Update.mem_returning.mpr ⟨t, ht, ?_, rfl⟩, hts⟩
          simp [expireStaleTasks, hts, hids, stale]
        simp only [failStaleServers, decide_eq_false_iff_not] at hnot
        exact hnot this
      · obtain ⟨at_, hat⟩ := Option.isSome_iff_exists.mp ((h.anchored s hs).2 hp)
        have := (passed s hs hu).1 at_ hat
        simp [expireConfirmations, hu, hp, hat, this] at hno
    · rfl
  · rfl

theorem Inv.neverStuck {db : Db} (h : Inv db) : NeverStuck db := by
  refine ⟨h.anchored, fun userId later _ passed => ?_⟩
  have later_ : Inv { db with now := later } := ⟨h.anchored, h.tasks⟩
  exact later_.sweep passed

/-! ### Statements on tasks -/

/-- A statement that ends what it matches, or does not concern uninstalls. -/
structure Ends (u : Update ServerTask) : Prop where
  id : ∀ t, (u.set t).id = t.id
  serverId : ∀ t, (u.set t).serverId = t.serverId
  ends : ∀ t, (u.set t).activeUninstall = false

theorem ends_finish {where_ : ServerTask → Bool} {now : Time} {status : TaskStatus}
    {result : ServerTask → Option String} (h : status ≠ .pending ∧ status ≠ .processing) :
    Ends ⟨where_, fun t => t.finish now status (result t)⟩ where
  id _ := rfl
  serverId _ := rfl
  ends t := by simp [ServerTask.activeUninstall, ServerTask.live, ServerTask.finish, h]

theorem ends_endStaleUninstall {where_ : ServerTask → Bool} {now : Time} :
    Ends ⟨where_, endStaleUninstall now⟩ where
  id _ := rfl
  serverId _ := rfl
  ends t := by
    simp only [endStaleUninstall, ServerTask.activeUninstall, ServerTask.live, ServerTask.finish]
    split <;> simp

theorem ends_recordTaskResult {where_ : ServerTask → Bool} {now : Time} {status : ReportStatus} {result : String} :
    Ends ⟨where_, recordTaskResult now status result⟩ where
  id _ := rfl
  serverId _ := rfl
  ends t := by
    by_cases hw : t.type = .agentUpdate ∧ status = .completed
    · simp [recordTaskResult, ServerTask.activeUninstall, hw.1]
    · cases status <;> simp_all [recordTaskResult, ServerTask.activeUninstall, ServerTask.live, ReportStatus.toTask]

section
variable {tasks : List ServerTask} {u : Update ServerTask} {db : Db} {s : Server} {t : ServerTask}

/-- A live uninstall task after a statement that ends tasks was there before and was not matched. -/
theorem Ends.active (hu : Ends u) (ht : t ∈ u.run tasks) (hact : t.activeUninstall = true) :
    t ∈ tasks ∧ u.where_ t = false := by
  rcases Update.mem_run_cases ht with h | ⟨old, -, -, rfl⟩
  · exact h
  · rw [hu.ends old] at hact
    cases hact

theorem TasksInv.ends (h : TasksInv tasks) (hu : Ends u) : TasksInv (u.run tasks) where
  one t ht t' ht' hact hact' := h.one t (hu.active ht hact).1 t' (hu.active ht' hact').1 hact hact'
  timed t ht hact := h.timed t (hu.active ht hact).1 hact
  distinct := by
    rw [Update.map_run hu.id]
    exact h.distinct

theorem TasksInv.filter (h : TasksInv tasks) (p : ServerTask → Bool) : TasksInv (tasks.filter p) where
  one t ht t' ht' := h.one t (List.mem_of_mem_filter ht) t' (List.mem_of_mem_filter ht')
  timed t ht := h.timed t (List.mem_of_mem_filter ht)
  distinct := h.distinct.sublist (List.filter_sublist.map _)

/-- A pending server keeps its anchor exactly when its live uninstall task is spared. -/
theorem anchoredIn_run_iff (h : TasksInv tasks) (hu : Ends u) (hs : AnchoredIn tasks s) :
    AnchoredIn (u.run tasks) s ↔
      (s.deletionStatus = .pending → ∀ t ∈ tasks, t.serverId = s.id → t.activeUninstall = true →
        u.where_ t = false) := by
  constructor
  · intro hrun hp t ht hts hact
    obtain ⟨t', ht', hts', hact'⟩ := hrun.1 hp
    obtain ⟨hmem, hno⟩ := hu.active ht' hact'
    rwa [h.one t ht t' hmem hact hact' (hts.trans hts'.symm)]
  · intro hspare
    refine ⟨fun hp => ?_, hs.2⟩
    obtain ⟨t, ht, hts, hact⟩ := hs.1 hp
    exact ⟨t, Update.mem_run_of_not_where ht (hspare hp t ht hts hact), hts, hact⟩

theorem anchored_updateTasks_iff (h : Inv db) (hu : Ends u) : Anchored (db.updateTasks u) ↔ Spares db u :=
  forall₂_congr fun s hs => anchoredIn_run_iff h.tasks hu (h.anchored s hs)

theorem Inv.updateTasks (h : Inv db) (hu : Ends u) (spares : Spares db u) : Inv (db.updateTasks u) :=
  ⟨(anchored_updateTasks_iff h hu).mpr spares, h.tasks.ends hu⟩

/-- A statement on tasks of another type spares every uninstall task. -/
theorem spares_of_type (h : ∀ t, u.where_ t = true → t.type ≠ .agentUninstall) : Spares db u := by
  intro s _ _ t _ _ hact
  cases hw : u.where_ t with
  | false => rfl
  | true => exact absurd (activeUninstall_iff.mp hact).1 (h t hw)

/-- Claiming keeps a live task live, and gives it its start. -/
theorem Inv.startTasks (h : Inv db) (claimed : List Uuid) (hc : ∀ t ∈ db.tasks, t.id ∈ claimed → t.status = .pending) :
    Inv (db.updateTasks (startTasks db.now claimed)) := by
  have hact : ∀ t ∈ db.tasks, ((DatrixOps.startTasks db.now claimed).row t).activeUninstall = t.activeUninstall := by
    intro t ht
    by_cases hm : t.id ∈ claimed
    · simp [Update.row, DatrixOps.startTasks, ServerTask.activeUninstall, ServerTask.live, hm, hc t ht hm]
    · simp [Update.row, DatrixOps.startTasks, hm]
  have hserver : ∀ t, ((DatrixOps.startTasks db.now claimed).row t).serverId = t.serverId := by
    intro t
    unfold Update.row
    split <;> rfl
  refine ⟨fun s hs => ⟨fun hp => ?_, (h.anchored s hs).2⟩, ?_, ?_, ?_⟩
  · obtain ⟨t, ht, hts, ha⟩ := (h.anchored s hs).1 hp
    exact ⟨_, Update.mem_run.mpr ⟨t, ht, rfl⟩, (hserver t).trans hts, (hact t ht).trans ha⟩
  · intro t ht t' ht' ha ha' hs
    obtain ⟨o, ho, rfl⟩ := Update.mem_run.mp ht
    obtain ⟨o', ho', rfl⟩ := Update.mem_run.mp ht'
    rw [hact o ho] at ha
    rw [hact o' ho'] at ha'
    rw [hserver, hserver] at hs
    rw [h.tasks.one o ho o' ho' ha ha' hs]
  · intro t ht ha
    obtain ⟨o, ho, rfl⟩ := Update.mem_run.mp ht
    rw [hact o ho] at ha
    by_cases hm : o.id ∈ claimed
    · simp [Timed, Update.row, DatrixOps.startTasks, hm]
    · simpa [Update.row, DatrixOps.startTasks, hm] using h.tasks.timed o ho ha
  · rw [Db.updateTasks, Update.map_run fun _ => rfl]
    exact h.tasks.distinct

/-! ### Statements on servers, and inserts -/

theorem Inv.updateServers {u : Update Server} (h : Inv db)
    (hu : ∀ s ∈ db.servers, u.where_ s = true → AnchoredIn db.tasks (u.set s)) : Inv (db.updateServers u) := by
  refine ⟨fun s hs => ?_, h.tasks⟩
  rcases Update.mem_run_cases hs with ⟨hs, -⟩ | ⟨old, hold, hw, rfl⟩
  · exact h.anchored s hs
  · exact hu old hold hw

theorem anchoredIn_failed {now : Time} {error : Option String} : AnchoredIn tasks (s.failUninstall now error) :=
  ⟨by simp [Server.failUninstall], by simp [Server.failUninstall]⟩

/-- A statement that fails servers and one that ends tasks, together: the servers whose task ends are
    among those that fail. -/
theorem Inv.updateBoth {us : Update Server} (h : Inv db) (hu : Ends u)
    (matched : ∀ s ∈ db.servers, us.where_ s = true → AnchoredIn (u.run db.tasks) (us.set s))
    (spared : ∀ s ∈ db.servers, us.where_ s = false → s.deletionStatus = .pending →
      ∀ t ∈ db.tasks, t.serverId = s.id → t.activeUninstall = true → u.where_ t = false) :
    Inv ((db.updateTasks u).updateServers us) := by
  refine ⟨fun s hs => ?_, h.tasks.ends hu⟩
  rcases Update.mem_run_cases hs with ⟨hs, hno⟩ | ⟨old, hold, hw, rfl⟩
  · exact (anchoredIn_run_iff h.tasks hu (h.anchored s hs)).mpr (spared s hs hno)
  · exact matched old hold hw

theorem insertTask_eq_some {row : Uuid → ServerTask} {id : Uuid} {db' : Db} (h : db.insertTask row id = some db') :
    db' = { db with tasks := db.tasks ++ [row id] } ∧
      ∀ t ∈ db.tasks, t.id ≠ id ∧ (row id).conflicts t = false := by
  simp only [Db.insertTask] at h
  split at h
  · rename_i hc
    simp only [Bool.and_eq_true, List.all_eq_true, decide_eq_true_eq, Bool.not_eq_true', ne_eq] at hc
    exact ⟨(Option.some.inj h).symm, hc.2⟩
  · cases h

theorem TasksInv.append {row : ServerTask} (h : TasksInv tasks) (hs : row.status = .pending)
    (he : row.expiresAt.isSome = true) (hno : ∀ t ∈ tasks, t.id ≠ row.id ∧ row.conflicts t = false) :
    TasksInv (tasks ++ [row]) := by
  have only : ∀ t ∈ tasks, t.activeUninstall = true → row.activeUninstall = true → t.serverId ≠ row.serverId := by
    intro t ht hact hrow heq
    have := (hno t ht).2
    simp [ServerTask.conflicts, heq, hact, hrow] at this
  refine ⟨?_, ?_, ?_⟩
  · intro t ht t' ht' ha ha' heq
    rcases List.mem_append.mp ht with hm | hm <;> rcases List.mem_append.mp ht' with hm' | hm'
    · exact h.one t hm t' hm' ha ha' heq
    · obtain rfl := List.mem_singleton.mp hm'
      exact absurd heq (only t hm ha ha')
    · obtain rfl := List.mem_singleton.mp hm
      exact absurd heq.symm (only t' hm' ha' ha)
    · rw [List.mem_singleton.mp hm, List.mem_singleton.mp hm']
  · intro t ht ha
    rcases List.mem_append.mp ht with ht | ht
    · exact h.timed t ht ha
    · obtain rfl := List.mem_singleton.mp ht
      exact ⟨fun _ => he, by simp [hs]⟩
  · rw [List.map_append, List.nodup_append]
    refine ⟨h.distinct, List.nodup_singleton _, ?_⟩
    intro a ha b hb
    obtain ⟨t, ht, rfl⟩ := List.mem_map.mp ha
    rw [List.map_singleton, List.mem_singleton] at hb
    exact hb ▸ (hno t ht).1

/-- The insert of a task, or its refusal, keeps the invariant. -/
theorem Inv.insertTask {row : Uuid → ServerTask} {id : Uuid} (h : Inv db) (hid : (row id).id = id)
    (hs : (row id).status = .pending) (he : (row id).expiresAt.isSome = true) :
    Inv ((db.insertTask row id).getD db) := by
  cases hi : db.insertTask row id with
  | none => exact h
  | some db' =>
    obtain ⟨rfl, hno⟩ := insertTask_eq_some hi
    refine ⟨fun s hsrv => ⟨fun hp => ?_, (h.anchored s hsrv).2⟩, h.tasks.append hs he (by rwa [hid])⟩
    obtain ⟨t, ht, hts, ha⟩ := (h.anchored s hsrv).1 hp
    exact ⟨t, List.mem_append_left _ ht, hts, ha⟩

end

/-! ### One step -/

section
variable {p : Platform} {db : Db}

theorem Inv.requestAgentUninstall (h : Inv db) (id userId : Uuid) (payload : Jsonb) (hash : String) (taskId : Uuid) :
    Inv (db.requestAgentUninstall p id userId payload hash taskId) := by
  unfold Db.requestAgentUninstall
  cases db.servers.find? (owned id userId) with
  | none => exact h
  | some s =>
    dsimp only
    split
    · exact h
    · cases hi : ((db.updateServers (markDeletionPending db.now id userId hash)).updateTasks
          (expireQueued db.now id)).insertTask (uninstallTask db.now id userId payload) taskId with
      | none => exact h
      | some db' =>
        obtain ⟨rfl, hno⟩ := insertTask_eq_some hi
        have hu : Ends (expireQueued db.now id) := ends_finish (by decide)
        have htasks : TasksInv ((expireQueued db.now id).run db.tasks ++
            [uninstallTask db.now id userId payload taskId]) :=
          (h.tasks.ends hu).append rfl rfl hno
        refine ⟨fun s hs => ?_, htasks⟩
        -- the new task anchors the server it is for
        have anchor : s.id = id → ∃ t ∈ (expireQueued db.now id).run db.tasks ++
            [uninstallTask db.now id userId payload taskId], t.serverId = s.id ∧ t.activeUninstall = true :=
          fun hid => ⟨_, List.mem_append_right _ (List.mem_singleton_self _), hid.symm, rfl⟩
        rcases Update.mem_run_cases hs with ⟨hs, -⟩ | ⟨old, -, hw, rfl⟩
        · refine ⟨fun hp => ?_, (h.anchored s hs).2⟩
          by_cases hid : s.id = id
          · exact anchor hid
          · obtain ⟨t, ht, hts, ha⟩ := (h.anchored s hs).1 hp
            refine ⟨t, List.mem_append_left _ (Update.mem_run_of_not_where ht ?_), hts, ha⟩
            simp [expireQueued, hts, hid]
        · simp only [markDeletionPending, owned, Bool.and_eq_true, decide_eq_true_eq] at hw
          exact ⟨fun _ => anchor hw.1, by simp [markDeletionPending]⟩

theorem Inv.claimTasks (h : Inv db) (serverId : Uuid) : Inv (db.claimTasks serverId) := by
  refine h.startTasks _ fun t ht hc => ?_
  obtain ⟨t', ht', hid⟩ := List.mem_map.mp hc
  have hmem := List.mem_mergeSort.mp (List.mem_of_mem_take ht')
  obtain ⟨hmem, hclaim⟩ := List.mem_filter.mp hmem
  obtain rfl := List.inj_on_of_nodup_map h.tasks.distinct ht hmem hid.symm
  simp only [claimable, Bool.and_eq_true, decide_eq_true_eq] at hclaim
  exact hclaim.1.2

theorem Inv.confirmUninstall (h : Inv db) (req : ConfirmUninstallRequest) : Inv (db.confirmUninstall p req) := by
  unfold Db.confirmUninstall
  split
  · rename_i hc
    obtain ⟨-, htask⟩ := Bool.and_eq_true_iff.mp hc
    obtain ⟨task, hmem, htask⟩ := List.any_eq_true.mp htask
    simp only [confirmableTask, Bool.and_eq_true, decide_eq_true_eq] at htask
    cases req.status with
    | completed =>
      refine ⟨fun s hs => ?_, h.tasks.filter _⟩
      obtain ⟨hs, hne⟩ := List.mem_filter.mp hs
      refine ⟨fun hp => ?_, (h.anchored s hs).2⟩
      obtain ⟨t, ht, hts, ha⟩ := (h.anchored s hs).1 hp
      exact ⟨t, List.mem_filter.mpr ⟨ht, by rwa [hts]⟩, hts, ha⟩
    | failed =>
      refine h.updateBoth (ends_finish (by decide)) (fun s _ _ => anchoredIn_failed) ?_
      -- the task named is of the server that fails
      intro s hs hno _ t ht hts _
      by_contra hw
      simp only [failUninstallTask, Bool.not_eq_false, decide_eq_true_eq] at hw
      obtain rfl := List.inj_on_of_nodup_map h.tasks.distinct ht hmem (hw.trans htask.1.1.symm)
      simp only [failUninstall, decide_eq_false_iff_not] at hno
      exact hno (hts.symm.trans htask.2)
  · exact h

theorem Inv.expireStaleAgentUninstalls (h : Inv db) (userId : Uuid) : Inv (db.expireStaleAgentUninstalls userId) := by
  refine Inv.updateServers (h.updateBoth ends_endStaleUninstall (fun s _ _ => anchoredIn_failed) ?_)
    fun s _ _ => anchoredIn_failed
  intro s hs hno _ t ht hts _
  by_contra hw
  rw [Bool.not_eq_false] at hw
  simp only [failStaleServers, decide_eq_false_iff_not] at hno
  exact hno (List.mem_map.mpr ⟨_, Update.mem_returning.mpr ⟨t, ht, hw, rfl⟩, hts⟩)

theorem Inv.markOnline (h : Inv db) (req : HeartbeatRequest) (hash : String) :
    Inv (db.updateServers (DatrixOps.markOnline db.now req hash)) :=
  h.updateServers fun s hs _ => h.anchored s hs

theorem find_reported {agentToken : String} {taskId : Uuid} {task : ServerTask}
    (h : db.tasks.find? (fun t => db.servers.any fun s =>
      s.ownsToken agentToken (p.sha256Hex agentToken) && reportable taskId s.id t) = some task) :
    task ∈ db.tasks ∧ ∃ s ∈ db.servers, s.ownsToken agentToken (p.sha256Hex agentToken) = true ∧
      reportable taskId s.id task = true := by
  refine ⟨List.mem_of_find?_eq_some h, ?_⟩
  have hp := List.find?_some h
  obtain ⟨s, hs, hp⟩ := List.any_eq_true.mp hp
  exact ⟨s, hs, Bool.and_eq_true_iff.mp hp⟩

theorem reportable_iff {taskId owner : Uuid} {t : ServerTask} :
    reportable taskId owner t = true ↔ t.id = taskId ∧ t.status = .processing ∧ t.serverId = owner := by
  simp [reportable, and_assoc]

theorem Inv.reportTaskResult (h : Inv db) {agentToken : String} {taskId : Uuid} {status : ReportStatus}
    {result : String}
    (careful : Careful p db (.reportTaskResult agentToken taskId status result)) :
    Inv (db.reportTaskResult p agentToken taskId status result) := by
  unfold Db.reportTaskResult
  dsimp only
  cases hf : db.tasks.find? _ with
  | none => exact h
  | some task =>
    obtain ⟨hmem, owner, howner, htok, hrep⟩ := find_reported hf
    obtain ⟨hid, hst, hserver⟩ := reportable_iff.mp hrep
    -- the only task recorded is `task`
    have only : ∀ t ∈ db.tasks, (db.servers.any fun s =>
        s.ownsToken agentToken (p.sha256Hex agentToken) && reportable taskId s.id t) = true → t = task := by
      intro t ht hw
      obtain ⟨s, -, hw⟩ := List.any_eq_true.mp hw
      have := (reportable_iff.mp (Bool.and_eq_true_iff.mp hw).2).1
      exact List.inj_on_of_nodup_map h.tasks.distinct ht hmem (this.trans hid.symm)
    dsimp only
    split
    · rename_i htype
      cases status with
      | completed =>
        refine h.updateBoth ends_recordTaskResult (fun s hs hw => ?_) ?_
        · simp only [beginUninstalling, decide_eq_true_eq] at hw
          refine ⟨by simp [beginUninstalling], fun _ => ?_⟩
          exact careful owner howner htok task hmem hrep htype s hs (hw.trans hserver)
        · intro s hs hno _ t ht hts _
          by_contra hw
          rw [Bool.not_eq_false] at hw
          simp only [beginUninstalling, decide_eq_false_iff_not] at hno
          exact hno (hts.symm.trans (congrArg _ (only t ht hw)))
      | failed =>
        refine h.updateBoth ends_recordTaskResult (fun s _ _ => anchoredIn_failed) ?_
        intro s hs hno _ t ht hts _
        by_contra hw
        rw [Bool.not_eq_false] at hw
        simp only [failUninstall, decide_eq_false_iff_not] at hno
        exact hno (hts.symm.trans (congrArg _ (only t ht hw)))
    · rename_i htype
      refine h.updateTasks ends_recordTaskResult fun s _ _ t ht _ ha => ?_
      by_contra hw
      rw [Bool.not_eq_false] at hw
      exact htype (only t ht hw ▸ (activeUninstall_iff.mp ha).1)

/-- Every careful action keeps the invariant. -/
theorem Inv.step {op : Op} (h : Inv db) (careful : Careful p db op) : Inv (db.step p op) := by
  have other : ∀ {u : Update ServerTask}, Ends u → (∀ t, u.where_ t = true → t.type = .agentUpdate) →
      Inv (db.updateTasks u) := fun hu htype =>
    h.updateTasks hu (spares_of_type fun t hw => by simp [htype t hw])
  cases op with
  | tick elapsed => exact ⟨h.anchored, h.tasks⟩
  | requestAgentUninstall id userId payload hash taskId => exact h.requestAgentUninstall id userId payload hash taskId
  | markOnline req => exact h.markOnline req _
  | confirmAgentUpdate serverId version =>
    exact other (ends_finish (by decide)) fun t hw => by simp [DatrixOps.confirmAgentUpdate] at hw; exact hw.1.2
  | queueAutomaticUpdate serverId payload version taskId =>
    simp only [Db.step, Db.queueAutomaticUpdate]
    split
    · exact h.insertTask rfl rfl rfl
    · exact h
  | expireTasks serverId => exact h.updateTasks (ends_finish (by decide)) careful
  | timeOutTasks serverId => exact h.updateTasks (ends_finish (by decide)) careful
  | claimTasks serverId => exact h.claimTasks serverId
  | reportTaskResult agentToken taskId status result => exact h.reportTaskResult careful
  | confirmUninstall req => exact h.confirmUninstall req
  | cancelTask taskId serverId => exact h.updateTasks (ends_finish (by decide)) careful
  | cancelUpdates serverId =>
    exact other (ends_finish (by decide)) fun t hw => by simp [DatrixOps.cancelUpdates] at hw; exact hw.1.2
  | expireStaleUpdates serverId =>
    exact other (ends_finish (by decide)) fun t hw => by simp [DatrixOps.expireStaleUpdates] at hw; exact hw.1.1.2
  | timeOutStaleUpdates serverId =>
    exact other (ends_finish (by decide)) fun t hw => by simp [DatrixOps.timeOutStaleUpdates] at hw; exact hw.1.1.2
  | createTask serverId userId req taskId =>
    simp only [Db.step, Db.createTask]
    split
    · exact h.insertTask rfl rfl rfl
    · exact h
  | expireStaleAgentUninstalls userId => exact h.expireStaleAgentUninstalls userId

/-- An action after which no server is stuck was careful. -/
theorem careful_of_neverStuck {op : Op} (h : Inv db) (after : NeverStuck (db.step p op)) : Careful p db op := by
  cases op with
  | expireTasks serverId => exact (anchored_updateTasks_iff h (ends_finish (by decide))).mp after.1
  | timeOutTasks serverId => exact (anchored_updateTasks_iff h (ends_finish (by decide))).mp after.1
  | cancelTask taskId serverId => exact (anchored_updateTasks_iff h (ends_finish (by decide))).mp after.1
  | reportTaskResult agentToken taskId status result =>
    cases status with
    | failed => trivial
    | completed =>
      intro owner howner htok t ht hrep htype s hs hid
      obtain ⟨hid', -, hserver⟩ := reportable_iff.mp hrep
      have after := after.1
      unfold Db.step Db.reportTaskResult at after
      dsimp only at after
      have found : ∃ task, db.tasks.find? (fun t => db.servers.any fun s =>
          s.ownsToken agentToken (p.sha256Hex agentToken) && reportable taskId s.id t) = some task :=
        Option.isSome_iff_exists.mp (List.find?_isSome.mpr ⟨t, ht, List.any_eq_true.mpr
          ⟨owner, howner, Bool.and_eq_true_iff.mpr ⟨htok, hrep⟩⟩⟩)
      obtain ⟨task, hf⟩ := found
      obtain ⟨hmem, _, _, _, hrep'⟩ := find_reported hf
      obtain rfl := List.inj_on_of_nodup_map h.tasks.distinct ht hmem (hid'.trans (reportable_iff.mp hrep').1.symm)
      rw [hf] at after
      dsimp only at after
      rw [if_pos htype] at after
      exact (after _ (Update.mem_run_of_where hs (by simp [beginUninstalling, hid, hserver]))).2 rfl
  | _ => trivial

end

/-- No server is ever stuck in a run from ordinary servers exactly when every action of the run is
    careful. -/
theorem neverStuck_iff_careful {p : Platform} {db : Db} (h : Ordinary db) (run : List Op) :
    (uninstallMachine p).Always NeverStuck db run ↔ (uninstallMachine p).Each (Careful p) db run :=
  Machine.always_iff_each (I := Inv) (fun _ h => h.neverStuck) (fun _ _ h hc => h.step hc)
    (fun _ _ h after => careful_of_neverStuck h after) h.inv

/-! ### A stuck server -/

instance (tasks : List ServerTask) : DecidablePred (AnchoredIn tasks) := fun _ => inferInstanceAs (Decidable (_ ∧ _))

instance : DecidablePred Anchored := fun db => inferInstanceAs (Decidable (∀ s ∈ db.servers, AnchoredIn db.tasks s))

/-- One server with its agent. -/
def oneServer : Db := ⟨0, [linuxServer], []⟩

theorem oneServer_ordinary : Ordinary oneServer where
  active := by decide
  idle := by decide
  distinct := by decide

/-- An uninstall is requested, the agent stays away for 15 minutes, and its next heartbeat expires the
    task. -/
def strandingRun : List Op := [.requestAgentUninstall 1 7 [] "token-hash" 100, .tick 900000000, .expireTasks 1]

theorem neverStuck_iff_careful_oneServer :
    (uninstallMachine plainPlatform).Always NeverStuck oneServer [.requestAgentUninstall 1 7 [] "token-hash" 100,
      .claimTasks 1, .reportTaskResult "agent-token" 100 .failed "no such unit"] :=
  (neverStuck_iff_careful oneServer_ordinary _).mpr ⟨trivial, trivial, trivial, trivial⟩

/-- The server then stays in `pending`, whatever sweep comes. -/
theorem stuck_after_strandingRun : Ordinary oneServer ∧
    ¬(uninstallMachine plainPlatform).Always NeverStuck oneServer strandingRun ∧
    ((((uninstallMachine plainPlatform).exec oneServer strandingRun).expireStaleAgentUninstalls 7).servers.map
      (·.deletionStatus)) = [.pending] := by
  refine ⟨oneServer_ordinary, fun h => ?_, by decide⟩
  have anchored : Anchored ((uninstallMachine plainPlatform).exec oneServer strandingRun) := h.last.1
  revert anchored
  decide

end Uninstall
end DatrixOps
