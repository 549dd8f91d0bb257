import DatrixOps.Theorems.UpdateSteps

/-! When an agent update is completed. A report of success only says that the update is staged; the heartbeat
    completes what is in processing once the version reported is the one wanted then, whichever version the
    task was for. -/

namespace DatrixOps
namespace UpdateCompletion
open Postgres

/-- The task is an update to this version. -/
def aims (t : ServerTask) (version : String) : Bool :=
  t.target.any fun target => compareAgentVersions version target = .eq

/-- The agent reports the version that the update in processing is for, after it has reported it staged and in time. -/
def Confirms (u : Updates) (e : UpdateEvent) (t : ServerTask) : Prop :=
  ∃ b, e = .confirm b ∧ t.serverId = b.serverId ∧ t.type = .agentUpdate ∧ t.status = .processing ∧
    t.overran u.db.now = false ∧ t.id ∈ u.staged ∧ b.version ≠ "" ∧ aims t b.version = true

/-- The statement completes the updates that it confirms and no others. -/
structure RightReason (p : Platform) (u : Updates) (e : UpdateEvent) : Prop where
  only : ∀ t' ∈ (u.step p e).db.tasks, t'.type = .agentUpdate → t'.status = .completed →
    ∃ t ∈ u.db.tasks, t.Same t' ∧ (t.status = .completed ∨ Confirms u e t)
  every : ∀ t ∈ u.db.tasks, Confirms u e t → ∃ t' ∈ (u.step p e).db.tasks, t.Same t' ∧ t'.status = .completed

/-- When an agent reports the version wanted, its update in processing is to that version, has been reported
    staged and is in time. When it reports the version of such an update, that is the version wanted. -/
def Timely (u : Updates) : UpdateEvent → Prop
  | .confirm b => ∀ t ∈ u.db.tasks, t.serverId = b.serverId → t.type = .agentUpdate → t.status = .processing →
      (b.compares .eq = true → aims t b.desired = true ∧ t.id ∈ u.staged ∧ t.overran u.db.now = false) ∧
      (b.version ≠ "" → aims t b.version = true → t.id ∈ u.staged → t.overran u.db.now = false →
        b.desired ≠ "" ∧ aims t b.desired = true)
  | _ => True

variable {p : Platform} {u : Updates} {db : Db} {b : Beat} {e : UpdateEvent} {t : ServerTask}

theorem compares_iff {order : Ordering} : b.compares order = true ↔ b.version ≠ "" ∧ b.desired ≠ "" ∧
    compareAgentVersions b.version b.desired = order := by
  simp [Beat.compares, and_assoc]

/-- The heartbeat completes what is in processing. -/
theorem completed_of_compares (ht : t ∈ db.tasks) (hs : t.serverId = b.serverId) (htype : t.type = .agentUpdate)
    (processing : t.status = .processing) (h : b.compares .eq = true) :
    ∃ t' ∈ (db.confirm b).tasks, t.Same t' ∧ t'.status = .completed := by
  rw [Db.confirm, if_pos h]
  refine ⟨_, Update.mem_run_of_where ht ?_, ⟨rfl, rfl, rfl, rfl, rfl⟩, rfl⟩
  simp [confirmAgentUpdate, hs, htype, processing]

theorem aims_iff {v : String} : aims t v = true ↔ ∃ target, t.target = some target ∧
    compareAgentVersions v target = .eq := by
  cases h : t.target with
  | none => simp [aims, h]
  | some target => simp [aims, h]

/-- A task aims at the versions that compare equal to one that it aims at. -/
theorem aims_of_eq {v v' : String} (h : compareAgentVersions v v' = .eq) (ht : aims t v' = true) : aims t v = true := by
  obtain ⟨target, htarget, equal⟩ := aims_iff.mp ht
  exact aims_iff.mpr ⟨target, htarget, compareAgentVersions_trans h equal⟩

theorem eq_of_aims {v v' : String} (h : aims t v = true) (h' : aims t v' = true) : compareAgentVersions v v' = .eq := by
  obtain ⟨target, htarget, equal⟩ := aims_iff.mp h
  obtain ⟨target', htarget', equal'⟩ := aims_iff.mp h'
  obtain rfl := Option.some.inj (htarget.symm.trans htarget')
  exact compareAgentVersions_trans equal (compareAgentVersions_symm equal')

theorem rightReason_of_timely (timely : Timely u e) : RightReason p u e := by
  constructor
  · intro t' ht' htype hc
    obtain ⟨t, ht, same, completed | completes⟩ := (e.evolves (p := p)).completed t' ht' htype hc
    · exact ⟨t, ht, same, Or.inl completed⟩
    · cases e with
      | confirm b =>
        obtain ⟨reports, hs, hupdate, processing⟩ := completes
        obtain ⟨wanted, staged, inTime⟩ := (timely t ht hs hupdate processing).1 reports
        obtain ⟨known, -, equal⟩ := compares_iff.mp reports
        exact ⟨t, ht, same, Or.inr ⟨b, rfl, hs, hupdate, processing, inTime, staged, known, aims_of_eq equal wanted⟩⟩
      | _ => cases completes
  · rintro t ht ⟨b, rfl, hs, htype, processing, inTime, staged, known, reported⟩
    obtain ⟨desired, wanted⟩ := (timely t ht hs htype processing).2 known reported staged inTime
    exact completed_of_compares ht hs htype processing (compares_iff.mpr ⟨known, desired, eq_of_aims reported wanted⟩)

theorem completed_for_the_right_reason {run : List UpdateEvent}
    (timely : (updateMachine p).Each Timely (.start db) run) :
    (updateMachine p).Each (RightReason p) (.start db) run :=
  timely.imp (I := fun _ => True) (fun _ _ _ _ => trivial) (fun _ _ _ h => rightReason_of_timely h) trivial

/-! ### Two runs -/

/-- One server with its agent. -/
def oneServer : Db := ⟨0, [linuxServer], []⟩

/-- The agent of server 1 reports a version, 1.5.0 being the one wanted. -/
def reports (version : String) :
    UpdateEvent := .confirm ⟨.newHandler "1.5.0" "https://releases.example" "default", "", 1, version⟩

/-- An update to 1.5.0 is asked for and claimed. -/
def claimed : List UpdateEvent :=
  [.other (.createTask 1 7 ⟨.agentUpdate, [("target_version", "1.5.0")], "", 300⟩ 100) rfl, .other (.claimTasks 1) rfl]

/-- The agent goes on as version 1.4.0, reports the update staged, and comes back as version 1.5.0. -/
def updated : List UpdateEvent :=
  claimed ++ [reports "1.4.0", .other (.reportTaskResult "agent-token" 100 .completed "staged") rfl, reports "1.5.0"]

/-- For examples: update 100 is complete. -/
def complete (u : Updates) : Bool := u.db.tasks.any fun t => t.id = 100 && t.type =
    .agentUpdate && t.status = .completed

instance (u : Updates) : (e : UpdateEvent) → Decidable (Timely u e)
  | .confirm b => inferInstanceAs (Decidable (∀ t ∈ u.db.tasks, t.serverId = b.serverId → t.type = .agentUpdate →
    t.status = .processing →
      (b.compares .eq = true → aims t b.desired = true ∧ t.id ∈ u.staged ∧ t.overran u.db.now = false) ∧
      (b.version ≠ "" → aims t b.version = true → t.id ∈ u.staged → t.overran u.db.now = false →
        b.desired ≠ "" ∧ aims t b.desired = true)))
  | .queue .. | .setAgentAutoUpdate .. | .other .. => .isTrue trivial

theorem completed_for_the_right_reason_updated :
    (updateMachine plainPlatform).Each (RightReason plainPlatform) (.start oneServer) updated ∧
      complete ((updateMachine plainPlatform).exec (.start oneServer) updated) = true :=
  ⟨completed_for_the_right_reason ⟨trivial, trivial, by decide +kernel, trivial, by decide +kernel, trivial⟩,
    by decide +kernel⟩

/-- An agent that runs the version wanted when its update is claimed has it completed by its next heartbeat. -/
theorem completed_unstaged : ¬∀ p db run, (updateMachine p).Each (RightReason p) (.start db) run := by
  intro right
  have reason := (right plainPlatform oneServer (claimed ++ [reports "1.5.0"])).last
  generalize hu : (updateMachine plainPlatform).exec (.start oneServer) claimed = u at reason
  have unstaged : u.staged = [] := by rw [← hu]; decide +kernel
  have open_ : u.db.tasks.all (fun t => t.status ≠ .completed) = true := by rw [← hu]; decide +kernel
  have done : complete (u.step plainPlatform (reports "1.5.0")) = true := by rw [← hu]; decide +kernel
  obtain ⟨t', ht', h⟩ := List.any_eq_true.mp done
  simp only [Bool.and_eq_true, decide_eq_true_eq] at h
  obtain ⟨t, ht, -, completed | ⟨-, -, -, -, -, -, staged, -, -⟩⟩ := reason.only t' ht' h.1.2 h.2
  · exact of_decide_eq_true (List.all_eq_true.mp open_ t ht) completed
  · rw [unstaged] at staged
    cases staged

end UpdateCompletion
end DatrixOps
