import DatrixOps.Host.Acting
import DatrixOps.Theorems.VerifiedUpdate

/-! What a task leaves on the host when the control plane has not recorded its completion. Nothing of an
    uninstall, a restart or a reboot; but an update has replaced the executable before it is reported. -/

namespace DatrixOps
namespace Host
open Posix Release

/-- The executable, the service and the host are as they were, and no file is left that was not there. -/
structure Untouched (rt : Runtime) (s₀ s : State) : Prop where
  executable : s.installed.look rt.executablePath = s₀.installed.look rt.executablePath
  launched : s.launched = s₀.launched
  restarts : s.restarts = s₀.restarts
  reboots : s.reboots = s₀.reboots
  files : ∀ dir path, (s.files dir).look path = none ∨ (s.files dir).look path = (s₀.files dir).look path

theorem Untouched.refl (rt : Runtime) (s : State) : Untouched rt s s := ⟨rfl, rfl, rfl, rfl, fun _ _ => Or.inr rfl⟩

variable {rt : Runtime} {s₀ s : State} {A : Assumption} {paths : List String}
  {path source destination : String} {file : Nat}

/-- A write of the request file does not stop half way, and no file of another has its name; and no removal fails. -/
def Whole : Assumption
  | .writeFile dir path _, choice, s => (s.files dir).look path = none ∧ (choice.error = none ∨ choice.amount = 0)
  | .remove .., choice, _ => choice.error = none
  | _, _, _ => True

theorem removing_of_whole (c : Call) (o : Choice) (s : State) (whole : Whole c o s) : Removing c o s := by
  cases c with
  | remove => exact whole
  | _ => trivial

/-! ### The files of an uninstall -/

/-- Only the helper's files `paths` are new. -/
structure Beside (paths : List String) (s₀ s : State) : Prop where
  idle : Idle s₀ s
  installed : s.installed = s₀.installed
  others : ∀ path, path ∉ paths → s.helpers.look path = s₀.helpers.look path
  fresh : ∀ path ∈ paths, s₀.helpers.look path = none

theorem Beside.refl (s : State) : Beside [] s s := ⟨⟨rfl, rfl, rfl⟩, rfl, fun _ _ => rfl, fun _ h => nomatch h⟩

theorem Beside.untouched (h : Beside [] s₀ s) : Untouched rt s₀ s := by
  refine ⟨congrArg (Files.look · rt.executablePath) h.installed, h.idle.launched, h.idle.restarts, h.idle.reboots,
    fun dir path => Or.inr ?_⟩
  cases dir with
  | installed => exact congrArg (Files.look · path) h.installed
  | helpers => exact h.others path List.not_mem_nil

/-- A new file whose name was free. -/
theorem Beside.add (h : Beside paths s₀ s) {files : Files} (free : s.helpers.look path = none)
    (hfiles : ∀ other, other ≠ path → files.look other = s.helpers.look other) :
    Beside (path :: paths) s₀ (s.setFiles files .helpers) where
  idle := ⟨h.idle.launched, h.idle.restarts, h.idle.reboots⟩
  installed := h.installed
  others other hother := by
    obtain ⟨hne, hother⟩ := List.ne_and_not_mem_of_not_mem_cons hother
    exact (hfiles other hne).trans (h.others other hother)
  fresh other hother := by
    by_cases mem : other ∈ paths
    · exact h.fresh other mem
    · rcases List.mem_cons.mp hother with rfl | hother
      · exact (h.others other mem).symm.trans free
      · exact absurd hother mem

/-- A file is changed that is among the new ones. -/
theorem Beside.edit (h : Beside paths s₀ s) (mem : path ∈ paths) {files : Files}
    (hfiles : ∀ other, other ≠ path → files.look other = s.helpers.look other) :
      Beside paths s₀ (s.setFiles files .helpers) where
  idle := ⟨h.idle.launched, h.idle.restarts, h.idle.reboots⟩
  installed := h.installed
  others other hother := (hfiles other fun heq => hother (heq ▸ mem)).trans (h.others other hother)
  fresh := h.fresh

theorem Beside.remove (h : Beside (path :: paths) s₀ s) :
    Beside paths s₀ (s.setFiles (s.helpers.remove path) .helpers) where
  idle := ⟨h.idle.launched, h.idle.restarts, h.idle.reboots⟩
  installed := h.installed
  others other hother := by
    by_cases hne : other = path
    · subst hne
      exact Files.look_remove.trans (h.fresh other (List.mem_cons_self ..)).symm
    · exact (Files.look_remove_of_ne hne).trans (h.others other (List.not_mem_cons_of_ne_of_not_mem hne hother))
  fresh other hother := h.fresh other (List.mem_cons_of_mem _ hother)

/-- The copy under way: the new file is under its name. -/
structure Copying (path : String) (file : Nat) (s₀ s : State) : Prop where
  beside : Beside [path] s₀ s
  named : s.helpers.names path = some file

theorem Copying.write (h : Copying path file s₀ s) (offset : Nat) (bytes : Bytes) :
    Copying path file s₀ (s.setFiles (s.helpers.write file offset bytes) .helpers) where
  beside := h.beside.edit (List.mem_singleton.mpr rfl) fun _ hne =>
    Files.look_edit_of_ne fun hother => hne (s.helpers.single hother h.named)
  named := h.named

theorem safe_copyBetween {reads written sourceFile : Nat} (h : Copying path file s₀ s) :
    Safe A (fun _ => True) (Copying path file s₀) (fun _ => Copying path file s₀)
      (copyBetween sourceFile file reads written) s := by
  induction reads generalizing s written with
  | zero => exact safe_throw h
  | succ reads ih =>
    refine (Asks.read (by decide)).andThen trivial (fun chunk _ => ?_) h
    split
    · exact safe_pure h
    · have copied : Safe A (fun _ => True) (Copying path file s₀) (fun _ => Copying path file s₀)
          (perform (.write .helpers file written chunk)) s := by
        refine safe_perform _ fun o _ => ⟨trivial, ?_⟩
        unfold State.answer
        split
        · exact h.write ..
        · exact h.write ..
      exact safe_bind copied (fun _ _ h => ih h) fun _ h => h

theorem safe_createNew (h : Beside [] s₀ s) : Safe A (fun _ => True) (Beside [] s₀) (fun file => Copying path file s₀)
    (perform (.createNew .helpers path)) s := by
  refine safe_perform (.createNew .helpers path) fun o _ => ⟨trivial, ?_⟩
  rcases answer_createNew (s := s) (o := o) with ⟨e, ha⟩ | ⟨file, files, hr, ha⟩
  · rw [ha]
    exact h
  · rw [ha]
    obtain ⟨free, named, others⟩ := Files.createNew_spec hr
    exact ⟨h.add free others, named⟩

/-- A copy is made, or nothing is left of it. -/
theorem safe_copyExecutable (h : Beside [] s₀ s) :
    Safe Whole (fun _ => True) (Beside [] s₀) (fun _ => Beside [destination] s₀)
    (copyExecutable source destination) s := by
  unfold copyExecutable
  refine Asks.openRead.wrap.andThen trivial (fun opened _ => ?_) h
  refine safe_bind (safe_wrap (safe_createNew h)) (fun file s₁ h₁ => ?_) fun _ h => h
  refine safe_observe (safe_copyBetween h₁) fun copied s₂ h₂ => Asks.close.observe trivial fun closed => ?_
  have beside : Beside [destination] s₀ s₂ := h₂.same.beside
  exact safe_discarding (Asks.ofExcept.andThen trivial (fun _ _ => safe_ofExcept beside fun _ => beside) beside)
    (fun _ h => ⟨trivial, h.remove⟩) fun _ _ _ whole failed => absurd whole failed

theorem safe_writeFile {bytes : Bytes} (h : Beside [path] s₀ s) : Safe Whole (fun _ => True) (Beside [path] s₀)
    (fun _ => Beside [destination, path] s₀) (perform (.writeFile .helpers destination bytes)) s := by
  refine safe_perform (.writeFile .helpers destination bytes) fun o whole => ⟨trivial, ?_⟩
  obtain ⟨free, whole⟩ := whole
  unfold State.answer
  split
  · rename_i e ho
    rcases whole with none_ | nothing
    · rw [ho] at none_
      cases none_
    · simp only [State.fail, nothing, if_true]
      exact h
  · exact h.add free fun _ hne => Files.look_writeFile_of_ne hne

theorem safe_unixNano (h : Beside paths s₀ s) :
    Safe A (fun _ => True) (Beside paths s₀) (fun _ => Beside paths s₀) (perform .unixNano) s := by
  refine safe_perform .unixNano fun o _ => ⟨trivial, ?_⟩
  unfold State.answer
  split
  · exact ⟨⟨h.idle.launched, h.idle.restarts, h.idle.reboots⟩, h.installed, h.others, h.fresh⟩
  · exact ⟨⟨h.idle.launched, h.idle.restarts, h.idle.reboots⟩, h.installed, h.others, h.fresh⟩

theorem safe_preparePlatform {req : UninstallRequest} (h : Beside [] s₀ s) : Safe Whole (fun _ => True) (Beside [] s₀)
    (fun prepared => Beside [prepared.requestPath, prepared.helperPath] s₀) (preparePlatform rt req) s := by
  unfold preparePlatform
  refine safe_check h fun _ => Asks.resolveExecutable.wrap.andThen trivial (fun _ _ => ?_) h
  refine safe_bind (safe_unixNano h) (fun stamp s₁ h₁ => ?_) fun _ h => h
  refine Asks.makeHelperDirectory.wrap.andThen trivial (fun _ _ => ?_) h₁
  refine Asks.makeHelperDirectory.wrap.andThen trivial (fun _ _ => ?_) h₁
  refine safe_bind (safe_copyExecutable h₁) (fun _ s₂ h₂ => ?_) fun _ h => h
  refine safe_bind (safe_discarding (safe_wrap (safe_writeFile h₂)) (fun _ h => ⟨trivial, h.remove⟩) ?_)
    (fun _ _ h => safe_pure h)
    fun _ h => h
  exact fun _ _ _ whole failed => absurd whole failed

theorem safe_prepareUninstall {req : UninstallRequest} : Safe Whole (fun _ => True) (Beside [] s)
    (fun prepared => Beside [prepared.requestPath, prepared.helperPath] s) (prepareUninstall rt req) s :=
  Asks.ofExcept.andThen trivial (fun _ _ => safe_preparePlatform (.refl s)) (.refl s)

/-! ### A task -/

theorem Discarded.untouched (h : Discarded rt s₀ s) : Untouched rt s₀ s := by
  refine ⟨h.executable, h.around.idle.launched, h.around.idle.restarts, h.around.idle.reboots, fun dir path => ?_⟩
  cases dir with
  | installed =>
    by_cases staged : path = updatePath rt
    · exact Or.inl (staged ▸ h.unstaged)
    · by_cases executable : path = rt.executablePath
      · exact Or.inr (executable ▸ h.executable)
      · exact Or.inr (h.around.others path staged executable)
  | helpers => exact Or.inr (congrArg (Files.look · path) h.around.helpers)

/-- What a task has done when it is reported. -/
def Ready (rt : Runtime) (task : Task) (s₀ : State) (work : Work) (s : State) : Prop :=
  match work.postAction with
  | .none => Untouched rt s₀ s
  | .update => task.type = .agentUpdate ∧ work.status = .completed
  | .restart | .reboot => work.status = .completed ∧ Untouched rt s₀ s
  | .uninstall prepared => work.status = .completed ∧ Beside [prepared.requestPath, prepared.helperPath] s₀ s

variable {task : Task}

theorem safe_workOf {α : Type} {F : State → Prop} {D : α → State → Prop} {context : String} {x : Fallible α}
    {prepared : α → Work}
    (hx : Safe Whole (fun _ => True) F D x s) (herr : ∀ s', F s' → Untouched rt s s')
    (hok : ∀ a s', D a s' → Ready rt task s (prepared a) s') :
    system.Safe Whole (fun _ => True) (Ready rt task s) (workOf context x prepared) s := by
  refine System.Safe.bind hx fun r s' hr => ?_
  cases r with
  | ok a => exact System.safe_done.mpr (hok a s' hr)
  | error e => exact System.safe_done.mpr (herr s' hr)

theorem safe_prepareTask (hasty : task.type = .agentUpdate ∨ task.type = .agentUninstall ∨ task.type = .agentRestart ∨
    task.type = .vpsReboot) :
    system.Safe Whole (fun _ => True) (Ready rt task s) (prepareTask rt task) s := by
  unfold prepareTask
  rcases hasty with h | h | h | h
  · rw [h]
    refine safe_workOf (System.Safe.weaken (fun _ _ => trivial) safe_prepareAgentUpdate) (fun s' h' => ?_)
      fun _ _ _ => ⟨h, rfl⟩
    rcases h'.discarded removing_of_whole with rfl | discarded
    · exact .refl rt s'
    · exact discarded.untouched
  · rw [h]
    exact safe_workOf safe_prepareUninstall (fun _ h' => h'.untouched) fun _ _ h' => ⟨rfl, h'⟩
  · rw [h]
    exact System.safe_done.mpr ⟨rfl, .refl rt s⟩
  · rw [h]
    exact System.safe_done.mpr ⟨rfl, .refl rt s⟩

theorem safe_remove (h : Beside (path :: paths) s₀ s) : system.Safe Whole (fun _ => True) (fun _ => Beside paths s₀)
    (Process.perform (.remove .helpers path)) s := by
  refine System.Safe.perform fun o whole => ⟨trivial, ?_⟩
  rcases answer_remove (s := s) with ⟨e, failed, -⟩ | removed
  · exact absurd (failed.symm.trans whole) (Option.some_ne_none e)
  · rw [show system.answer (.remove .helpers path) o s = _ from removed]
    exact h.remove

theorem safe_cleanup {prepared : Prepared} (h : Beside [prepared.requestPath, prepared.helperPath] s₀ s) :
    system.Safe Whole (fun _ => True) (fun _ => Untouched rt s₀) (cleanup prepared) s :=
  (safe_remove h).bind fun _ _ h => (safe_remove h).bind fun _ _ h => System.safe_done.mpr h.untouched

/-- Unless it is an update, a task that is not acknowledged leaves nothing. -/
theorem safe_skip {work : Work} (h : Ready rt task s₀ work s) (other : work.postAction ≠ .update) :
    system.Safe Whole (fun _ => True) (fun _ => Untouched rt s₀) (skip work.postAction) s := by
  unfold Ready at h
  unfold skip
  split at h
  · rename_i hp
    rw [hp]
    exact System.safe_done.mpr h
  · exact absurd ‹_› other
  · rename_i hp
    rw [hp]
    exact System.safe_done.mpr h.2
  · rename_i hp
    rw [hp]
    exact System.safe_done.mpr h.2
  · rename_i prepared hp
    rw [hp]
    exact safe_cleanup h.2

/-! ### Beside the control plane -/

/-- The completed report of an update gets to the control plane while the task is in processing; the request
    file of an uninstall is written whole, and no file of another has its name; and no removal fails. -/
def Unhindered (w : Assignment) : Call → Turn → Acting → Prop
  | .report taskId .completed _, turn, a => w.task.type = .agentUpdate →
      turn.arrives = true ∧ (a.controls w turn.before).db.accepts w.platform w.token taskId = true
  | .writeFile dir path _, turn, a => (a.host.files dir).look path = none ∧
    (turn.choice.error = none ∨ turn.choice.amount = 0)
  | .remove .., turn, _ => turn.choice.error = none
  | _, _, _ => True

variable {w : Assignment} {a : Acting} {turn : Turn} {ops : List Op} {op : Op} {work : Work}

@[simp] theorem host_control : (a.control w op).host = a.host := rfl

@[simp] theorem host_controls : (a.controls w ops).host = a.host := by
  induction ops generalizing a with
  | nil => rfl
  | cons op ops ih => exact ih

theorem recorded_controls (ops : List Op) (h : a.recorded = true) : (a.controls w ops).recorded = true := by
  induction ops generalizing a with
  | nil => exact h
  | cons op ops ih => exact ih (by simp [Acting.control, h])

@[simp] theorem host_report {taskId : Uuid} {status : ReportStatus} {result : String} :
    (a.report w turn taskId status result).2.host = a.host := by
  unfold Acting.report
  split
  · rfl
  · rfl

theorem answer_report {taskId : Uuid} {status : ReportStatus} {result : String} :
    (acting w).answer (.report taskId status result) turn a =
    (a.controls w turn.before).report w turn taskId status result := rfl

/-- Any answer to a report is one that the host may see. -/
theorem report_possible {taskId : Uuid} {status : ReportStatus} {result : String} (r : Except String Unit) :
    ∃ o, system.answer (.report taskId status result) o s = (r, s) := by
  cases r with
  | ok u => exact ⟨{}, rfl⟩
  | error e => exact ⟨{ error := some e }, rfl⟩

/-- Beside the control plane the host answers as it does alone. -/
theorem acting_simulates (c : Call) (turn : Turn) (a : Acting) (h : Unhindered w c turn a) : ∃ o, Whole c o a.host ∧
    ((acting w).answer c turn a).1 = (system.answer c o a.host).1 ∧
    ((acting w).answer c turn a).2.host = (system.answer c o a.host).2 := by
  cases c with
  | report taskId status result =>
    rw [answer_report]
    obtain ⟨o, ho⟩ := report_possible (s := a.host)
      ((a.controls w turn.before).report w turn taskId status result).1
    exact ⟨o, trivial, (congrArg Prod.fst ho).symm, (host_report.trans host_controls).trans (congrArg Prod.snd ho).symm⟩
  | writeFile | remove => exact ⟨turn.choice, h, rfl, rfl⟩
  | _ => exact ⟨turn.choice, trivial, rfl, rfl⟩

theorem recorded_answer (c : Call) (turn : Turn) (a : Acting) (h : a.recorded = true) :
    ((acting w).answer c turn a).2.recorded = true := by
  have before := recorded_controls (w := w) turn.before h
  cases c with
  | report taskId status result =>
    change ((a.controls w turn.before).report w turn taskId status result).2.recorded = true
    unfold Acting.report
    split
    · simp [Acting.control, before]
    · exact before
  | _ => exact before

/-- A completion that is acknowledged, or that gets to the control plane in time, has been recorded. -/
theorem recorded_report {result : String}
    (h : ((a.controls w turn.before).report w turn w.task.id .completed result).1 = .ok () ∨
      turn.arrives = true ∧ (a.controls w turn.before).db.accepts w.platform w.token w.task.id = true) :
    ((a.controls w turn.before).report w turn w.task.id .completed result).2.recorded = true := by
  unfold Acting.report at h ⊢
  by_cases arrives : turn.arrives = true
  · rw [if_pos arrives] at h ⊢
    by_cases accepted : (a.controls w turn.before).db.accepts w.platform w.token w.task.id = true
    · simp [Acting.control, Db.records, accepted]
    · rw [if_neg accepted] at h
      rcases h with answered | ⟨-, h⟩
      · cases answered
      · exact absurd h accepted
  · rw [if_neg arrives] at h
    rcases h with answered | ⟨h, -⟩
    · cases answered
    · exact absurd h arrives

/-- What is to hold once the task is done with. -/
def Acknowledged (w : Assignment) (s₀ : State) (_ : Unit) (a : Acting) : Prop :=
  a.recorded = true ∨ Untouched w.runtime s₀ a.host

theorem safe_recorded {x : Program Unit} (h : a.recorded = true) :
    (acting w).Safe (Unhindered w) (fun _ => True) (Acknowledged w s₀) x a :=
  System.Safe.mono (System.Safe.weaken (fun _ _ => trivial)
    (System.Safe.keep (fun c turn a _ => recorded_answer c turn a) h))
    fun _ _ h => Or.inl h

theorem safe_untouched {x : Program Unit}
    (h : system.Safe Whole (fun _ => True) (fun _ => Untouched w.runtime s₀) x a.host) :
    (acting w).Safe (Unhindered w) (fun _ => True) (Acknowledged w s₀) x a :=
  System.Safe.mono (System.Safe.simulate acting_simulates h) fun _ _ h => Or.inr h

/-- From the report on. -/
theorem safe_concludeTask (hw : Ready w.runtime w.task s₀ work a.host) :
    (acting w).Safe (Unhindered w) (fun _ => True) (Acknowledged w s₀) (concludeTask w.task work) a := by
  refine System.safe_call.mpr fun turn allowed => ⟨trivial, ?_⟩
  rw [answer_report]
  have host : ((a.controls w turn.before).report w turn w.task.id work.status work.result).2.host = a.host :=
    host_report.trans host_controls
  by_cases acts : work.postAction = .none
  · have untouched : Untouched w.runtime s₀ a.host := by
      unfold Ready at hw
      rw [acts] at hw
      exact hw
    rw [acts]
    rw [← host] at untouched
    cases ((a.controls w turn.before).report w turn w.task.id work.status work.result).1 with
    | ok u => exact System.safe_done.mpr (Or.inr untouched)
    | error e => exact System.safe_done.mpr (Or.inr untouched)
  have completed : work.status = .completed := by
    unfold Ready at hw
    split at hw
    · exact absurd ‹_› acts
    · exact hw.2
    · exact hw.1
    · exact hw.1
    · exact hw.1
  rw [completed] at allowed host ⊢
  cases answered : ((a.controls w turn.before).report w turn w.task.id .completed work.result).1 with
  | ok u => exact safe_recorded (recorded_report (Or.inl answered))
  | error e =>
    by_cases update : work.postAction = .update
    · unfold Ready at hw
      rw [update] at hw
      exact safe_recorded (recorded_report (Or.inr (allowed hw.1)))
    · have ready : Ready w.runtime w.task _ work _ := hw
      rw [← host] at ready
      exact safe_untouched (safe_skip ready update)

/-- After a task that changes the agent or its host, unless the control plane has recorded its completion
    while the task was in processing, the executable, the service and the host are as they were. -/
theorem effects_acknowledged {db : Db} {host : State} {turns : Nat → Turn}
    (hasty : w.task.type = .agentUpdate ∨ w.task.type = .agentUninstall ∨ w.task.type = .agentRestart ∨
      w.task.type = .vpsReboot)
    (allowed : (acting w).Allowed (Unhindered w) (processTask w.runtime w.task) turns ⟨db, host, false⟩) :
    (process w turns db host).recorded = true ∨ Untouched w.runtime host (process w turns db host).host := by
  have prepared : (acting w).Safe (Unhindered w) _ _ (prepareTask w.runtime w.task) ⟨db, host, false⟩ :=
    System.Safe.simulate acting_simulates (safe_prepareTask hasty)
  exact System.Safe.run (prepared.bind fun work a hw => safe_concludeTask hw) allowed

/-! ### A task cancelled under the agent -/

/-- A task of the agent of `linuxServer`. -/
def assigned (type : TaskType) (payload : String → String) : Assignment :=
  ⟨plainPlatform, runtime, "agent-token", ⟨5, type, payload⟩⟩

/-- The control plane has handed the task over. -/
def claimed (type : TaskType) : Db where
  now := 1
  servers := [linuxServer]
  tasks := [{ ServerTask.inserted 0 1 type [] none none 300 hour 5 with status := .processing, startedAt := some 0 }]

/-- The task is cancelled as soon as the agent has it; the network works. -/
def cancelled (n : Nat) : Turn := ⟨[.cancelTask 5 1], responses n, true⟩

/-- A reboot that is cancelled does not happen. -/
theorem effects_acknowledged_reboot : Untouched runtime older
    (process (assigned .vpsReboot fun _ => "") cancelled (claimed .vpsReboot) older).host :=
  have ended : (process (assigned .vpsReboot fun _ => "") cancelled (claimed .vpsReboot) older).recorded = true ∨ _ :=
    effects_acknowledged (Or.inr (Or.inr (Or.inr rfl))) ⟨(fun update => nomatch update), trivial⟩
  ended.resolve_left (by decide)

/-- An agent update of the release. -/
def releasePayload (field : String) : String :=
  if field = "target_version" then "1.5.0" else if field = "release_base_url" then "https://releases.example"
    else "default"

/-- An update that is cancelled replaces the executable all the same. -/
theorem update_cancelled_replaces : ¬∀ (w : Assignment) (db : Db) (host : State) (turns : Nat → Turn),
    w.task.type = .agentUpdate ∨ w.task.type = .agentUninstall ∨ w.task.type = .agentRestart ∨
    w.task.type = .vpsReboot →
      (process w turns db host).recorded = true ∨ Untouched w.runtime host (process w turns db host).host := by
  intro claim
  rcases claim (assigned .agentUpdate releasePayload) (claimed .agentUpdate) older cancelled
    (Or.inl rfl) with recorded | untouched
  · exact absurd recorded (by decide +kernel)
  · exact absurd untouched.executable (by decide +kernel)

end Host
end DatrixOps
