import DatrixOps.Host.Uninstall
import DatrixOps.Theorems.VerifiedUpdate

/-! A server is only deleted by its uninstall once the agent's service is down and its files are gone,
    wherever a step of the helper, a confirmation or an answer is lost: the control plane deletes the server
    on the confirmation that all is removed, and what is removed stays away, as the service has been stopped
    before. -/

namespace DatrixOps
namespace UninstallTruth
open Postgres Uninstall

/-! ### What others do in the control plane -/

/-- A statement that does not confirm the uninstall of the server, and draws no token of the same hash. -/
def Others (id : Uuid) (hash : String) : Op → Prop
  | .confirmUninstall req => req.serverId ≠ id
  | .requestAgentUninstall _ _ _ tokenHash _ => tokenHash ≠ hash
  | _ => True

/-- The control plane has the server. -/
def Present (id : Uuid) (db : Db) : Prop := id ∈ db.servers.map (·.id)

/-- The token with the hash is of no more use for the server. -/
def Spent (id : Uuid) (hash : String) (db : Db) : Prop := ∀ s ∈ db.servers, s.id = id → s.uninstallTokenHash ≠ some hash

/-- The server stays, and no token becomes good for it that has been spent. -/
structure Spares (id : Uuid) (hash : String) (db db' : Db) : Prop where
  present : Present id db' ↔ Present id db
  spent : Spent id hash db → Spent id hash db'

section
variable {p : Platform} {id : Uuid} {hash : String} {db db' : Db}

theorem spares_of_servers (same : db'.servers = db.servers) : Spares id hash db db' := by
  refine ⟨?_, fun spent => ?_⟩
  · rw [Present, Present, same]
  · rw [Spent, same]
    exact spent

theorem Spares.trans {db'' : Db} (h : Spares id hash db db') (h' : Spares id hash db' db'') : Spares id hash db db'' :=
  ⟨h'.present.trans h.present, fun spent => h'.spent (h.spent spent)⟩

/-- An update of servers that keeps their ids, and draws no token with the hash. -/
theorem spares_updateServers {u : Update Server} (ids : ∀ s, (u.set s).id = s.id)
    (tokens : ∀ s, (u.set s).uninstallTokenHash = some hash → s.uninstallTokenHash = some hash) :
    Spares id hash db (db.updateServers u) := by
  refine ⟨?_, fun spent s' mem same held => ?_⟩
  · rw [Present, Present]
    exact iff_of_eq (congrArg (id ∈ ·) (Update.map_run ids))
  · obtain ⟨old, -⟩ | ⟨s, old, -, rfl⟩ := Update.mem_run_cases mem
    · exact spent s' old same held
    · exact spent s old ((ids s).symm.trans same) (tokens s held)

theorem spares_failUninstall {u : Update Server} {now : Time} {error : Option String}
    (fails : ∀ s, u.set s = s.failUninstall now error) :
    Spares id hash db (db.updateServers u) := by
  refine spares_updateServers (fun s => ?_) fun s held => ?_
  · rw [fails]
    rfl
  · rw [fails] at held
    cases held

theorem insertTask_servers {row : Uuid → ServerTask} {taskId : Uuid} :
    ((db.insertTask row taskId).getD db).servers = db.servers := by
  unfold Db.insertTask
  split <;> rfl

theorem spares_requestAgentUninstall {serverId userId : Uuid} {payload : Jsonb} {tokenHash : String} {taskId : Uuid}
    (other : tokenHash ≠ hash) :
    Spares id hash db (db.requestAgentUninstall p serverId userId payload tokenHash taskId) := by
  unfold Db.requestAgentUninstall
  split
  · exact spares_of_servers rfl
  · split
    · exact spares_of_servers rfl
    · have marked : Spares id hash db (db.updateServers (markDeletionPending db.now serverId userId tokenHash)) :=
        spares_updateServers (fun _ => rfl) fun _ held => absurd (Option.some.inj held) other
      simp only
      unfold Db.insertTask
      split
      · exact marked.trans (spares_of_servers rfl)
      · exact spares_of_servers rfl

theorem spares_reportTaskResult {token : String} {taskId : Uuid} {status : ReportStatus} {result : String} :
    Spares id hash db (db.reportTaskResult p token taskId status result) := by
  have recorded (u : Update ServerTask) : Spares id hash db (db.updateTasks u) := spares_of_servers rfl
  unfold Db.reportTaskResult
  simp only
  split
  · exact spares_of_servers rfl
  · split
    · split
      · exact (recorded _).trans (spares_updateServers (fun _ => rfl) fun _ held => held)
      · exact (recorded _).trans (spares_failUninstall fun _ => rfl)
    · exact recorded _

theorem spares_confirmUninstall {req : ConfirmUninstallRequest} (other : req.serverId ≠ id) :
    Spares id hash db (db.confirmUninstall p req) := by
  unfold Db.confirmUninstall
  split
  · split
    · refine ⟨?_, fun spent s mem => spent s (List.mem_of_mem_filter mem)⟩
      simp only [Present, List.mem_map, List.mem_filter, decide_eq_true_eq]
      constructor
      · rintro ⟨s, ⟨mem, -⟩, same⟩
        exact ⟨s, mem, same⟩
      · rintro ⟨s, mem, same⟩
        exact ⟨s, ⟨mem, fun its => other (its.symm.trans same)⟩, same⟩
    · exact (spares_failUninstall fun _ => rfl).trans (spares_of_servers rfl)
  · exact spares_of_servers rfl

theorem spares_step {op : Op} (others : Others id hash op) : Spares id hash db (db.step p op) := by
  cases op with
  | requestAgentUninstall => exact spares_requestAgentUninstall others
  | markOnline => exact spares_updateServers (fun _ => rfl) fun _ held => held
  | queueAutomaticUpdate serverId payload version taskId =>
    simp only [Db.step, Db.queueAutomaticUpdate]
    split
    · exact spares_of_servers insertTask_servers
    · exact spares_of_servers rfl
  | reportTaskResult => exact spares_reportTaskResult
  | confirmUninstall => exact spares_confirmUninstall others
  | createTask serverId userId req taskId =>
    simp only [Db.step, Db.createTask]
    split
    · exact spares_of_servers insertTask_servers
    · exact spares_of_servers rfl
  | expireStaleAgentUninstalls userId =>
    have expired : Spares id hash db (db.updateTasks (expireStaleTasks db.now (db.serversOf userId))) :=
      spares_of_servers rfl
    exact (expired.trans (spares_failUninstall fun _ => rfl)).trans (spares_failUninstall fun _ => rfl)
  | tick | confirmAgentUpdate | expireTasks | timeOutTasks | claimTasks | cancelTask | cancelUpdates |
    expireStaleUpdates
  | timeOutStaleUpdates => exact spares_of_servers rfl

theorem spares_steps {ops : List Op} (others : ∀ op ∈ ops, Others id hash op) :
    Spares id hash db (ops.foldl (Db.step p) db) := by
  induction ops generalizing db with
  | nil => exact spares_of_servers rfl
  | cons op ops ih =>
    exact (spares_step (others op List.mem_cons_self)).trans (ih fun op' mem => others op' (List.mem_cons_of_mem _ mem))

end

/-! ### The host -/

/-- The service is disabled and stopped, and these files are gone. -/
structure Cleared (gone : String → Prop) (h : Installed) : Prop where
  disabled : h.enabled = false
  stopped : h.running = false
  absent : ∀ path, gone path → h.files path = false

/-- The files that the helper is to remove. The agent's environment file is not among them. -/
def agent (executablePath path : String) : Prop :=
  path ∈ agentFiles executablePath ∧ Release.trimmed path ≠ "" ∨ Installed.under linuxDropInDir path = true

/-- What is disabled stays so, and what is cleared away does not come back. -/
structure Later (h h' : Installed) : Prop where
  disabled : h.enabled = false → h'.enabled = false
  cleared : ∀ gone, Cleared gone h → Cleared gone h'

section
variable {h h' : Installed}

theorem remove_files (path path' : String) :
    (h.remove path).files path' = (decide (path' ≠ path) && h.files path') := rfl

theorem removeAll_files (directory path : String) :
    (h.removeAll directory).files path = (!Installed.under directory path && h.files path) := rfl

/-- A file that is removed is among those that are gone. -/
theorem Cleared.remove {gone : String → Prop} (cleared : Cleared gone h) (path : String) :
    Cleared (fun path' => gone path' ∨ path' = path) (h.remove path) := by
  refine ⟨cleared.disabled, cleared.stopped, fun path' its => ?_⟩
  rw [remove_files]
  obtain its | rfl := its
  · rw [cleared.absent path' its, Bool.and_false]
  · simp only [ne_eq, not_true_eq_false, decide_false, Bool.false_and]

theorem Cleared.removeAll {gone : String → Prop} (cleared : Cleared gone h) (directory : String) :
    Cleared (fun path => gone path ∨ Installed.under directory path = true) (h.removeAll directory) := by
  refine ⟨cleared.disabled, cleared.stopped, fun path its => ?_⟩
  rw [removeAll_files]
  obtain its | its := its
  · rw [cleared.absent path its, Bool.and_false]
  · rw [its, Bool.not_true, Bool.false_and]

theorem Cleared.mono {gone gone' : String → Prop} (cleared : Cleared gone h) (less : ∀ path, gone' path → gone path) :
    Cleared gone' h :=
  ⟨cleared.disabled, cleared.stopped, fun path its => cleared.absent path (less path its)⟩

theorem Later.refl (h : Installed) : Later h h := ⟨fun disabled => disabled, fun _ cleared => cleared⟩

theorem Later.trans {h'' : Installed} (l : Later h h') (l' : Later h' h'') : Later h h'' :=
  ⟨fun disabled => l'.disabled (l.disabled disabled), fun gone cleared => l'.cleared gone (l.cleared gone cleared)⟩

/-- An agent that does not run writes nothing. -/
theorem later_write (h : Installed) (written : List String) : Later h (h.write written) := by
  unfold Installed.write
  split
  · rename_i runs
    refine ⟨fun disabled => disabled, fun gone cleared => ?_⟩
    rw [cleared.stopped] at runs
    cases runs
  · exact .refl h

theorem later_remove (h : Installed) (path : String) : Later h (h.remove path) :=
  ⟨fun disabled => disabled, fun _ cleared => (cleared.remove path).mono fun _ => Or.inl⟩

theorem later_removeAll (h : Installed) (directory : String) : Later h (h.removeAll directory) :=
  ⟨fun disabled => disabled, fun _ cleared => (cleared.removeAll directory).mono fun _ => Or.inl⟩

theorem later_systemctl (h : Installed) (args : List String) : Later h (h.systemctl args) := by
  unfold Installed.systemctl
  split
  · exact ⟨fun _ => rfl, fun gone cleared => ⟨rfl, cleared.stopped, cleared.absent⟩⟩
  · exact ⟨fun disabled => disabled, fun gone cleared => ⟨cleared.disabled, rfl, cleared.absent⟩⟩
  · exact .refl h

end

/-! ### A call of the helper -/

/-- A call that confirms nothing: what is accepted stays, the server is spared, and what is cleared away does
not come back. -/
structure Quiet (id : Uuid) (hash : String) (u u' : Removal) : Prop where
  accepted : u'.accepted = u.accepted
  spares : Spares id hash u.db u'.db
  later : Later u.host u'.host

/-- Up to a call, others leave the uninstall alone. -/
def Calm (id : Uuid) (hash : String) (_ : Call) (turn : Turn) (_ : Removal) : Prop :=
  ∀ op ∈ turn.before, Others id hash op

section
variable {w : Site} {id : Uuid} {hash : String} {u u' : Removal} {turn : Turn}

theorem Quiet.trans {u'' : Removal} (q : Quiet id hash u u') (q' : Quiet id hash u' u'') : Quiet id hash u u'' :=
  ⟨q'.accepted.trans q.accepted, q.spares.trans q'.spares, q.later.trans q'.later⟩

theorem Quiet.refl (u : Removal) : Quiet id hash u u := ⟨rfl, spares_of_servers rfl, .refl u.host⟩

/-- What happens before the call itself -/
def reached (w : Site) (turn : Turn) (u : Removal) : Removal :=
  { u.controls w turn.before with host := u.host.write turn.written }

theorem quiet_reached (calm : ∀ op ∈ turn.before, Others id hash op) : Quiet id hash u (reached w turn u) :=
  ⟨rfl, spares_steps calm, later_write u.host turn.written⟩

theorem quiet_act {after : Installed} (later : Later u.host after) : Quiet id hash u (u.act turn after).2 := by
  unfold Removal.act
  split
  · exact ⟨rfl, spares_of_servers rfl, later⟩
  · split
    · exact ⟨rfl, spares_of_servers rfl, later⟩
    · exact .refl u

theorem act_ok {after : Installed} {done : Unit} (ok : (u.act turn after).1 = .ok done) :
    (u.act turn after).2.host = after := by
  unfold Removal.act at ok ⊢
  split at ok
  · rfl
  · cases ok

/-- Not a confirmation -/
def silent : Call → Bool
  | .post .. => false
  | _ => true

theorem quiet_answer {c : Call} (quiet : silent c = true) (calm : ∀ op ∈ turn.before, Others id hash op) :
    Quiet id hash u (Removal.answer w c turn u).2 := by
  have before : Quiet id hash u (reached w turn u) := quiet_reached calm
  cases c with
  | post => cases quiet
  | readFile path =>
    refine before.trans ?_
    simp only [Removal.answer]
    split <;> exact .refl _
  | remove path => exact before.trans (quiet_act (later_remove _ path))
  | removeAll path => exact before.trans (quiet_act (later_removeAll _ path))
  | systemctl args => exact before.trans (quiet_act (later_systemctl _ args))
  | sleep => exact before.trans (quiet_act (.refl _))
  | pause => exact before.trans (quiet_act (.refl _))

end

/-! ### The removal -/

/-- Nothing has been accepted and the server is there. -/
structure Fresh (id : Uuid) (u : Removal) : Prop where
  accepted : u.accepted = []
  present : Present id u.db

section
variable {w : Site} {id : Uuid} {hash : String} {u u' : Removal}

theorem Fresh.quiet (fresh : Fresh id u) (quiet : Quiet id hash u u') : Fresh id u' :=
  ⟨quiet.accepted.trans fresh.accepted, quiet.spares.present.mpr fresh.present⟩

/-- A call that confirms nothing keeps what quiet calls keep. -/
theorem safe_silent {I : Removal → Prop} (keep : ∀ {u u'}, I u → Quiet id hash u u' → I u') {c : Call}
    (quiet : silent c = true) (h : I u) :
    (removing w).Safe (Calm id hash) I (fun reply u' => Quiet id hash u u' ∧
      ∃ turn, (reply, u') = Removal.answer w c turn u) (ask c) u := by
  refine System.Safe.perform fun turn calm => ?_
  have same : Quiet id hash u ((removing w).answer c turn u).2 := quiet_answer quiet calm
  exact ⟨keep h same, same, turn, rfl⟩

/-- A command that does not fail has done its work. -/
theorem safe_runSystemctl (args : List String) (fresh : Fresh id u) : (removing w).Safe (Calm id hash) (Fresh id)
    (fun failed u' => Quiet id hash u u' ∧ (failed = [] → ∃ before, Later u.host before ∧
      u'.host = before.systemctl args))
    (runSystemctl args) u := by
  refine (safe_silent Fresh.quiet rfl fresh).bind fun reply u' ⟨quiet, turn, eq⟩ =>
    System.safe_done.mpr ⟨quiet, fun none_ => ?_⟩
  cases reply with
  | error e => cases none_
  | ok done =>
    obtain ⟨ok, rfl⟩ := Prod.mk.inj eq
    exact ⟨_, later_write u.host turn.written, act_ok ok.symm⟩

theorem safe_removeIfExists (path : String) (fresh : Fresh id u) : (removing w).Safe (Calm id hash) (Fresh id)
    (fun failed u' => Quiet id hash u u' ∧ (failed = [] → ∃ before, Later u.host before ∧ u'.host = before.remove path))
    (removeIfExists path) u := by
  refine (safe_silent Fresh.quiet rfl fresh).bind fun reply u' ⟨quiet, turn, eq⟩ =>
    System.safe_done.mpr ⟨quiet, fun none_ => ?_⟩
  cases reply with
  | error e => cases none_
  | ok done =>
    obtain ⟨ok, rfl⟩ := Prod.mk.inj eq
    exact ⟨_, later_write u.host turn.written, act_ok ok.symm⟩

/-- The files of the loop are gone, if none of them fails. -/
theorem safe_removeFiles (paths : List String) (fresh : Fresh id u) : (removing w).Safe (Calm id hash) (Fresh id)
    (fun failed u' => Quiet id hash u u' ∧ (failed = [] → ∀ gone, Cleared gone u.host →
      Cleared (fun path => gone path ∨ path ∈ paths ∧ Release.trimmed path ≠ "") u'.host))
    (removeFiles paths) u := by
  induction paths generalizing u with
  | nil =>
    refine System.safe_done.mpr ⟨.refl u, fun _ gone cleared => cleared.mono fun path its => ?_⟩
    obtain its | ⟨mem, -⟩ := its
    · exact its
    · cases mem
  | cons path paths ih =>
    rw [removeFiles]
    split
    · rename_i blank
      refine (ih fresh).mono fun failed u' ⟨quiet, all⟩ => ⟨quiet, fun none_ gone cleared => ?_⟩
      refine (all none_ gone cleared).mono fun path' its => ?_
      obtain its | ⟨mem, named⟩ := its
      · exact Or.inl its
      · cases mem with
        | head => exact absurd blank named
        | tail _ mem => exact Or.inr ⟨mem, named⟩
    · refine (safe_removeIfExists path fresh).bind fun failed v ⟨quiet, removed⟩ => ?_
      refine (ih (fresh.quiet quiet)).bind fun others u' ⟨quiet', all⟩ => ?_
      refine System.safe_done.mpr ⟨quiet.trans quiet', fun none_ gone cleared => ?_⟩
      obtain ⟨first, rest⟩ := List.append_eq_nil_iff.mp none_
      obtain ⟨before, later, host⟩ := removed first
      have cleared : Cleared (fun path' => gone path' ∨ path' = path) v.host := by
        rw [host]
        exact (later.cleared gone cleared).remove path
      refine (all rest _ cleared).mono fun path' its => ?_
      obtain its | ⟨mem, named⟩ := its
      · exact Or.inl (Or.inl its)
      · cases mem with
        | head => exact Or.inl (Or.inr rfl)
        | tail _ mem => exact Or.inr ⟨mem, named⟩

/-- Where no step has failed, the service is down and the files are gone. -/
theorem safe_uninstallLinux (executablePath : String) (fresh : Fresh id u) : (removing w).Safe (Calm id hash) (Fresh id)
    (fun failed u' => Quiet id hash u u' ∧ (failed = [] → Cleared (agent executablePath) u'.host))
    (uninstallLinux executablePath) u := by
  refine (safe_runSystemctl ["disable", linuxServiceName] fresh).bind fun disabled u₁ ⟨q₁, disables⟩ => ?_
  refine (safe_runSystemctl ["stop", linuxServiceName] (fresh.quiet q₁)).bind fun stopped u₂ ⟨q₂, stops⟩ => ?_
  have q₂ := q₁.trans q₂
  refine (safe_removeFiles (agentFiles executablePath) (fresh.quiet q₂)).bind fun removed u₃ ⟨q₃, clears⟩ => ?_
  have q₃ := q₂.trans q₃
  refine (safe_silent Fresh.quiet rfl (fresh.quiet q₃)).bind fun dropIn u₄ ⟨q₄, turn, eq⟩ => ?_
  have q₄ := q₃.trans q₄
  refine (safe_runSystemctl ["daemon-reload"] (fresh.quiet q₄)).bind fun reloaded u₅ ⟨q₅, _⟩ => ?_
  refine (safe_runSystemctl ["reset-failed", linuxServiceName] (fresh.quiet (q₄.trans q₅))).bind fun _ u₆ ⟨q₆, _⟩ => ?_
  refine System.safe_done.mpr ⟨(q₄.trans q₅).trans q₆, fun none_ => ?_⟩
  simp only [List.append_eq_nil_iff] at none_
  obtain ⟨⟨⟨⟨first, second⟩, third⟩, fourth⟩, -⟩ := none_
  have off : u₁.host.enabled = false := by
    obtain ⟨before, -, host⟩ := disables first
    rw [host]
    rfl
  have down : Cleared (fun _ => False) u₂.host := by
    obtain ⟨before, later, host⟩ := stops second
    rw [host]
    exact ⟨later.disabled off, rfl, fun _ => False.elim⟩
  have gone := clears third _ down
  cases dropIn with
  | error e => cases fourth
  | ok done =>
    obtain ⟨ok, rfl⟩ := Prod.mk.inj eq
    have host : ((reached w turn u₃).act turn ((u₃.host.write turn.written).removeAll linuxDropInDir)).2.host = _ :=
      act_ok ok.symm
    have cleared := ((later_write u₃.host turn.written).cleared _ gone).removeAll linuxDropInDir
    rw [← host] at cleared
    refine ((q₅.later.trans q₆.later).cleared _ cleared).mono fun path its => ?_
    obtain its | its := its
    · exact Or.inl (Or.inr its)
    · exact Or.inr its

end

/-! ### The confirmation -/

/-- Of the confirmations of a status the control plane accepts one at most, and deletes the server then if it
says that all is removed. -/
structure Confirming (id : Uuid) (hash executablePath : String) (status : ReportStatus) (u : Removal) : Prop where
  cleared : status = .completed → Cleared (agent executablePath) u.host
  accepted : u.accepted = [] ∧ Present id u.db ∨ u.accepted = [status] ∧ Spent id hash u.db ∧
    (Present id u.db ↔ status = .failed)

/-- What the confirmations come to: the helper only hears of one that has been accepted. -/
structure Confirmed (id : Uuid) (hash executablePath : String) (status : ReportStatus) (result : Except String Unit)
    (u : Removal) : Prop where
  confirming : Confirming id hash executablePath status u
  heard : result = .ok () → u.accepted = [status]

section
variable {w : Site} {id : Uuid} {hash executablePath : String} {u u' : Removal} {req : Host.UninstallRequest}
  {status : ReportStatus}

theorem Confirming.quiet (h : Confirming id hash executablePath status u) (quiet : Quiet id hash u u') :
    Confirming id hash executablePath status u' := by
  refine ⟨fun completed => quiet.later.cleared _ (h.cleared completed), ?_⟩
  obtain ⟨none_, present⟩ | ⟨one, spent, present⟩ := h.accepted
  · exact Or.inl ⟨quiet.accepted.trans none_, quiet.spares.present.mpr present⟩
  · exact Or.inr ⟨quiet.accepted.trans one, quiet.spares.spent spent, quiet.spares.present.trans present⟩

/-- What an accepted confirmation makes of the server -/
theorem confirmUninstall_accepted {p : Platform} {db : Db} {c : ConfirmUninstallRequest}
    (accepts : confirmable p db c = true) (hash : String) :
    (Present c.serverId (db.confirmUninstall p c) ↔ Present c.serverId db ∧ c.status = .failed) ∧
      Spent c.serverId hash (db.confirmUninstall p c) := by
  have found : (db.servers.any (confirmableServer db.now c (p.sha256Hex c.token)) && db.tasks.any (confirmableTask c)) =
    true := accepts
  rw [Db.confirmUninstall, if_pos found]
  cases c.status with
  | completed =>
    have gone : ∀ s ∈ db.servers.filter (·.id ≠ c.serverId), s.id ≠ c.serverId :=
      fun s mem => of_decide_eq_true (List.mem_filter.mp mem).2
    refine ⟨iff_of_false (fun present => ?_) (by simp), fun s mem same => absurd same (gone s mem)⟩
    obtain ⟨s, mem, same⟩ := List.mem_map.mp present
    exact gone s mem same
  | failed =>
    refine ⟨?_, fun s mem same held => ?_⟩
    · rw [and_iff_left rfl]
      exact iff_of_eq (congrArg (c.serverId ∈ ·) (Update.map_run fun _ => rfl))
    · obtain ⟨-, other⟩ | ⟨old, -, -, rfl⟩ := Update.mem_run_cases mem
      · exact absurd same (of_decide_eq_false other)
      · cases held

theorem Confirming.confirm (h : Confirming id hash executablePath status u) (names : w.uuidOf req.serverId = some id)
    (hashed : w.platform.sha256Hex req.confirmToken = hash) (error : String) :
    Confirming id hash executablePath status (u.confirm w req status error).2 ∧
      ((u.confirm w req status error).1 = true → (u.confirm w req status error).2.accepted = [status]) := by
  unfold Removal.confirm
  rw [names]
  cases w.uuidOf req.taskId with
  | none => exact ⟨h, fun never => by cases never⟩
  | some taskId =>
    simp only
    split
    · rename_i accepts
      obtain ⟨found, -⟩ := Bool.and_eq_true_iff.mp accepts
      obtain ⟨s, mem, good⟩ := List.any_eq_true.mp found
      simp only [confirmableServer, hashed, Bool.and_eq_true, decide_eq_true_eq] at good
      obtain ⟨present, spent⟩ := confirmUninstall_accepted accepts hash
      obtain ⟨none_, there⟩ | ⟨-, already, -⟩ := h.accepted
      · have one : u.accepted ++ [status] = [status] := by rw [none_, List.nil_append]
        exact ⟨⟨h.cleared, Or.inr ⟨one, spent, present.trans (and_iff_right there)⟩⟩, fun _ => one⟩
      · exact absurd good.1.1.2 (already s mem good.1.1.1)
    · exact ⟨h, fun never => by cases never⟩

/-- An answer of success comes only once the confirmation has been accepted. -/
theorem Confirming.post (h : Confirming id hash executablePath status u) (names : w.uuidOf req.serverId = some id)
    (hashed : w.platform.sha256Hex req.confirmToken = hash) (error : String) (delivery : Delivery) :
    Confirming id hash executablePath status (u.post w req status error delivery).2 ∧
      ∀ code body, (u.post w req status error delivery).1 = .ok (code, body) → 200 ≤ code ∧ code < 300 →
        (u.post w req status error delivery).2.accepted = [status] := by
  obtain ⟨kept, accepted⟩ := h.confirm names hashed error
  cases delivery with
  | lost e => exact ⟨h, fun code body eq => by cases eq⟩
  | refused tooLong body' =>
    refine ⟨h, fun code body eq good => ?_⟩
    cases eq
    cases tooLong <;> exact absurd good (by decide)
  | taken =>
    refine ⟨kept, fun code body eq good => ?_⟩
    by_cases accepts : (u.confirm w req status error).1 = true
    · exact accepted accepts
    · have refusal : (if (u.confirm w req status error).1 then 200 else 401) = code :=
        (Prod.mk.inj (Except.ok.inj eq)).1
      rw [if_neg accepts] at refusal
      rw [← refusal] at good
      exact absurd good (by decide)
  | unheard e => exact ⟨kept, fun code body eq => by cases eq⟩
  | unsure body' =>
    refine ⟨kept, fun code body eq good => ?_⟩
    cases eq
    exact absurd good (by decide)

/-- After the pause that its deadline may end, a confirmation goes on. -/
theorem safe_pause {seconds : Nat} {next : (Call.pause seconds).Reply → Program (Except String Unit)}
    (canceled : ∀ e, ∃ e', next (.error e) = .done (.error e'))
    (again : ∀ {v : Removal}, Confirming id hash executablePath status v → (removing w).Safe (Calm id hash)
      (Confirming id hash executablePath status) (Confirmed id hash executablePath status) (next (.ok ())) v)
    (h : Confirming id hash executablePath status u) :
    (removing w).Safe (Calm id hash) (Confirming id hash executablePath status)
    (Confirmed id hash executablePath status)
      (ask (.pause seconds) >>= next) u := by
  refine (safe_silent Confirming.quiet rfl h).bind fun reply v ⟨quiet, _⟩ => ?_
  cases reply with
  | error e =>
    obtain ⟨e', ended⟩ := canceled e
    rw [ended]
    exact System.safe_done.mpr ⟨h.quiet quiet, fun eq => by cases eq⟩
  | ok done => exact again (h.quiet quiet)

/-- The attempts: at most one is accepted, and one is if the helper hears that. -/
theorem safe_confirmAttempts (names : w.uuidOf req.serverId = some id)
    (hashed : w.platform.sha256Hex req.confirmToken = hash) (error : String)
    (left : Nat) (lastErr : String) (h : Confirming id hash executablePath status u) :
    (removing w).Safe (Calm id hash) (Confirming id hash executablePath status)
    (Confirmed id hash executablePath status)
      (confirmAttempts req status error left lastErr) u := by
  induction left generalizing u lastErr with
  | zero => exact System.safe_done.mpr ⟨h, fun eq => by cases eq⟩
  | succ left ih =>
    rw [confirmAttempts]
    refine (System.Safe.perform (c := Uninstall.Call.post req status error) fun turn calm =>
      ?_ : (removing w).Safe (Calm id hash)
      (Confirming id hash executablePath status) (fun reply v => Confirming id hash executablePath status v ∧
        ∀ code body, reply = .ok (code, body) → 200 ≤ code ∧ code < 300 →
        v.accepted = [status]) (ask (.post req status error)) u).bind
      fun reply v ⟨kept, accepted⟩ => ?_
    · have kept := (h.quiet (quiet_reached (w := w) calm)).post names hashed error turn.delivery
      exact ⟨kept.1, kept⟩
    · cases reply with
      | error e => exact safe_pause (fun _ => ⟨_, rfl⟩) (ih e) kept
      | ok response =>
        obtain ⟨code, body⟩ := response
        simp only
        split
        · rename_i good
          exact System.safe_done.mpr ⟨kept, fun _ => accepted code body rfl good⟩
        · exact safe_pause (fun _ => ⟨_, rfl⟩) (ih _) kept

theorem safe_confirmWithRetry (rt : Release.Runtime) (names : w.uuidOf req.serverId = some id)
    (hashed : w.platform.sha256Hex req.confirmToken = hash) (error : String)
    (h : Confirming id hash executablePath status u) :
    (removing w).Safe (Calm id hash) (Confirming id hash executablePath status)
    (Confirmed id hash executablePath status)
      (confirmWithRetry rt req status error) u := by
  unfold confirmWithRetry
  split
  · exact System.safe_done.mpr ⟨h, fun eq => by cases eq⟩
  · exact safe_confirmAttempts names hashed error 5 "" h

end

/-! ### The helper -/

/-- A server that is deleted has been reported to be so, once, and its agent's service and files are gone. -/
structure Truthful (id : Uuid) (executablePath : String) (u : Removal) : Prop where
  once : u.accepted.length ≤ 1
  deleted : ¬Present id u.db ↔ .completed ∈ u.accepted
  cleared : ¬Present id u.db → Cleared (agent executablePath) u.host

/-- What the helper comes to: it only returns no error where the removal has been confirmed. -/
structure Settled (id : Uuid) (executablePath : String) (result : Except String Unit) (u : Removal) : Prop where
  truthful : Truthful id executablePath u
  heard : result = .ok () → u.accepted = [.completed]

section
variable {w : Site} {id : Uuid} {hash executablePath : String} {u u' : Removal} {req : Host.UninstallRequest}
  {status : ReportStatus}

theorem Truthful.quiet (h : Truthful id executablePath u) (quiet : Quiet id hash u u') :
    Truthful id executablePath u' := by
  refine ⟨?_, ?_, fun gone => quiet.later.cleared _ (h.cleared (mt quiet.spares.present.mpr gone))⟩
  · rw [quiet.accepted]
    exact h.once
  · rw [quiet.accepted, quiet.spares.present]
    exact h.deleted

theorem Fresh.truthful (fresh : Fresh id u) : Truthful id executablePath u := by
  refine ⟨?_, ?_, fun gone => absurd fresh.present gone⟩
  · rw [fresh.accepted]
    exact Nat.zero_le 1
  · rw [fresh.accepted]
    exact iff_of_false (not_not.mpr fresh.present) List.not_mem_nil

theorem Confirming.truthful (h : Confirming id hash executablePath status u) : Truthful id executablePath u := by
  obtain ⟨none_, present⟩ | ⟨one, -, present⟩ := h.accepted
  · exact Fresh.truthful ⟨none_, present⟩
  · cases status with
    | completed =>
      have gone : ¬Present id u.db := fun there => by cases present.mp there
      refine ⟨?_, ?_, fun _ => h.cleared rfl⟩
      · rw [one]
        exact Nat.le_refl 1
      · rw [one]
        exact iff_of_true gone (List.mem_singleton_self _)
    | failed =>
      have there : Present id u.db := present.mpr rfl
      refine ⟨?_, ?_, fun gone => absurd there gone⟩
      · rw [one]
        exact Nat.le_refl 1
      · rw [one]
        exact iff_of_false (not_not.mpr there) (by decide)

/-- The helper only returns no error where no step has failed and the confirmation has been heard. -/
theorem outcome_ok {failed : List String} {confirmed : Except String Unit} (ok : outcome failed confirmed = .ok ()) :
    failed = [] ∧ confirmed = .ok () := by
  cases failed with
  | nil =>
    cases confirmed with
    | ok done => exact ⟨rfl, rfl⟩
    | error e => cases ok
  | cons e failed => cases confirmed <;> cases ok

theorem safe_uninstallAndConfirm (rt : Release.Runtime) (names : w.uuidOf req.serverId = some id)
    (hashed : w.platform.sha256Hex req.confirmToken = hash) (fresh : Fresh id u) :
    (removing w).Safe (Calm id hash) (Truthful id req.executablePath) (Settled id req.executablePath)
      (uninstallAndConfirm rt req) u := by
  unfold uninstallAndConfirm
  split
  · exact System.safe_done.mpr ⟨fresh.truthful, fun eq => by cases eq⟩
  · refine ((safe_silent Fresh.quiet rfl fresh).weaken fun _ => Fresh.truthful).bind fun _ u₁ ⟨q₁, _⟩ => ?_
    refine ((safe_uninstallLinux req.executablePath (fresh.quiet q₁)).weaken fun _ => Fresh.truthful).bind
      fun failed u₂ ⟨q₂, clears⟩ => ?_
    have fresh := (fresh.quiet q₁).quiet q₂
    have confirming : Confirming id hash req.executablePath (if failed = [] then .completed else .failed) u₂ := by
      refine ⟨fun completed => clears ?_, Or.inl ⟨fresh.accepted, fresh.present⟩⟩
      by_contra some_
      rw [if_neg some_] at completed
      cases completed
    refine ((safe_confirmWithRetry rt names hashed _ confirming).weaken fun _ => Confirming.truthful).bind
      fun confirmed u₃ ⟨kept, accepted⟩ => ?_
    refine System.safe_done.mpr ⟨kept.truthful, fun ok => ?_⟩
    obtain ⟨none_, heard⟩ := outcome_ok ok
    rw [accepted heard, if_pos none_]

/-- What is read is the request that was written for the helper. -/
theorem read_held {requestPath : String} (held : u.host.requests requestPath = some (.ok req)) {turn : Turn}
    {content : Except String Host.UninstallRequest}
    (ok : (Removal.answer w (.readFile requestPath) turn u).1 = .ok content) : content = .ok req := by
  have same : (u.host.write turn.written).requests requestPath = some (.ok req) := by
    unfold Installed.write
    split <;> exact held
  simp only [Removal.answer, same] at ok
  split at ok
  · rename_i eq
    cases eq
    exact (Except.ok.inj ok).symm
  · rename_i eq
    cases eq
  · cases ok

theorem safe_readAndPerform (rt : Release.Runtime) {requestPath : String} (names : w.uuidOf req.serverId = some id)
    (hashed : w.platform.sha256Hex req.confirmToken = hash) (held : u.host.requests requestPath = some (.ok req))
    (fresh : Fresh id u) :
    (removing w).Safe (Calm id hash) (Truthful id req.executablePath) (Settled id req.executablePath)
      (readAndPerform rt requestPath) u := by
  refine ((safe_silent Fresh.quiet rfl fresh).weaken fun _ => Fresh.truthful).bind fun reply u₁ ⟨q₁, turn, eq⟩ => ?_
  have fresh := fresh.quiet q₁
  cases reply with
  | error e => exact System.safe_done.mpr ⟨fresh.truthful, fun eq => by cases eq⟩
  | ok content =>
    obtain ⟨ok, -⟩ := Prod.mk.inj eq
    have read : content = .ok req := read_held held ok.symm
    subst read
    refine ((safe_silent Fresh.quiet rfl fresh).weaken fun _ => Fresh.truthful).bind fun _ u₂ ⟨q₂, _⟩ => ?_
    exact safe_uninstallAndConfirm rt names hashed (fresh.quiet q₂)

theorem safe_runPlatformHelper (rt : Release.Runtime) {requestPath : String} (helperExecutable : String)
    (names : w.uuidOf req.serverId = some id)
    (hashed : w.platform.sha256Hex req.confirmToken = hash) (held : u.host.requests requestPath = some (.ok req))
    (fresh : Fresh id u) :
    (removing w).Safe (Calm id hash) (Truthful id req.executablePath) (Settled id req.executablePath)
      (runPlatformHelper rt helperExecutable requestPath) u := by
  refine (safe_readAndPerform rt names hashed held fresh).bind fun result u₁ ⟨true₁, ok⟩ => ?_
  refine (safe_silent Truthful.quiet rfl true₁).bind fun _ u₂ ⟨q₂, _⟩ => ?_
  have true₂ := true₁.quiet q₂
  split
  · exact System.safe_done.mpr ⟨true₂, fun eq => q₂.accepted.trans (ok eq)⟩
  · refine (safe_silent Truthful.quiet rfl true₂).bind fun _ u₃ ⟨q₃, _⟩ => ?_
    refine (safe_silent Truthful.quiet rfl (true₂.quiet q₃)).bind fun _ u₄ ⟨q₄, _⟩ => ?_
    have rest := (q₂.trans q₃).trans q₄
    exact System.safe_done.mpr ⟨true₁.quiet rest, fun eq => rest.accepted.trans (ok eq)⟩

end

/-- Wherever the helper is stopped, and whatever is lost on the way, the control plane has deleted the server
    if and only if it has accepted that the removal is completed, and then the service is down and the files
    are gone from its host; and what others do afterwards leaves it so. -/
theorem uninstall_truthful (w : Site) (rt : Release.Runtime) {id : Uuid} {req : Host.UninstallRequest}
    (helperExecutable : String)
    {requestPath : String} {turns : Nat → Turn} {u : Removal} (names : w.uuidOf req.serverId = some id)
    (held : u.host.requests requestPath = some (.ok req)) (unconfirmed : u.accepted = []) (present : Present id u.db)
    (others : ∀ n, ∀ op ∈ (turns n).before, Others id (w.platform.sha256Hex req.confirmToken) op) :
    (∀ n turn, (∀ op ∈ turn.before, Others id (w.platform.sha256Hex req.confirmToken) op) →
      Truthful id req.executablePath
      (reached w turn ((removing w).runFor n (runPlatformHelper rt helperExecutable requestPath) turns u))) ∧
    let ended := (removing w).run (runPlatformHelper rt helperExecutable requestPath) turns u
    Truthful id req.executablePath ended.2 ∧ (ended.1 = .ok () → ¬Present id ended.2.db) := by
  have fresh : Fresh id u := ⟨unconfirmed, present⟩
  have allowed : (removing w).Allowed (Calm id (w.platform.sha256Hex req.confirmToken))
      (runPlatformHelper rt helperExecutable requestPath) turns u :=
        System.allowed_of_choices (fun n _ _ => others n) _ u
  have safe := safe_runPlatformHelper rt helperExecutable names rfl held fresh
  refine ⟨fun n turn calm => (safe.runFor allowed fresh.truthful n).quiet (quiet_reached calm), ?_⟩
  obtain ⟨truthful, ok⟩ := safe.run allowed
  refine ⟨truthful, fun eq => truthful.deleted.mpr ?_⟩
  rw [ok eq]
  exact List.mem_singleton_self _

/-! The uninstall of `linuxServer`, whose agent has acknowledged the task. -/

/-- What the helper is told. -/
def request : Host.UninstallRequest :=
  ⟨"1", "5", "https://ops.example/api/v1/agent/uninstall/confirm", "secret", "/usr/local/bin/datrixops-agent"⟩

/-- The control plane and the host when the helper starts. -/
def acknowledged : Removal where
  db := (uninstallMachine plainPlatform).exec ⟨0, [linuxServer], []⟩
    [.requestAgentUninstall 1 7 [] "secret" 5, .claimTasks 1,
      .reportTaskResult "agent-token" 5 .completed "Agent uninstall helper prepared."]
  host := {
    enabled := true
    running := true
    files := fun path => path = linuxServiceFile || path = request.executablePath
    requests := fun path => if path = "/tmp/uninstall.json" then some (.ok request) else none
  }
  accepted := []

/-- The control plane that the helper reaches. -/
def site : Site := ⟨plainPlatform, fun text => if text = "1" then some 1 else if text = "5" then some 5 else none⟩

/-- The agent is still writing when the helper starts, and no answer of the control plane gets back to it. -/
def unanswered : Turn := ⟨[.tick 2], [request.executablePath ++ ".update"], none, true, .unheard "EOF"⟩

/-- What the helper answers, and what it leaves. -/
def misreported : Except String Unit × Removal :=
  (removing site).run (runPlatformHelper Host.runtime "/tmp/uninstall" "/tmp/uninstall.json") (fun _ =>
    unanswered) acknowledged

/-- The helper reports a failure of an uninstall that has succeeded. -/
theorem uninstall_truthful_unanswered : Truthful 1 request.executablePath misreported.2 ∧
    misreported.2.db.servers.map (·.id) = [] ∧
    misreported.1 = .error "confirm completed uninstall: uninstall confirmation failed after retries: EOF" := by
  have present : Present 1 acknowledged.db := by
    have ids : acknowledged.db.servers.map (·.id) = [1] := by decide +kernel
    rw [Present, ids]
    exact List.mem_singleton_self 1
  have others : ∀ op ∈ unanswered.before, Others 1 (site.platform.sha256Hex request.confirmToken) op := by
    intro op mem
    rw [List.mem_singleton.mp mem]
    trivial
  exact ⟨(uninstall_truthful site Host.runtime "/tmp/uninstall" rfl rfl rfl present fun _ => others).2.1,
    by decide +kernel, by decide +kernel⟩

end UninstallTruth
end DatrixOps
