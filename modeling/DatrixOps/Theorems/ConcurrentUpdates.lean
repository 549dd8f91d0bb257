import DatrixOps.Host.Calls
import DatrixOps.Host.Crew
import DatrixOps.Theorems.UpdateIndex
import DatrixOps.Theorems.VerifiedUpdate

/-! Two updates at once. All workers stage an update under one name, and only the control plane keeps them
    apart: it has one update of a server pending or in processing. As long as it hands out no update after it
    has ended one that the agent still has, no worker disturbs a staged file that another has checked, and the
    executable holds what some worker verified. -/

namespace DatrixOps
open Postgres

/-- The update is in processing. -/
def Db.processes (db : Db) (serverId taskId : Uuid) : Bool :=
  db.tasks.any fun t => t.id = taskId && t.serverId = serverId && t.type = .agentUpdate && t.status = .processing

namespace Host
open Posix Release

/-! ### The property -/

/-- It is preparing an update. -/
def Worker.updates (w : Worker) : Bool :=
  match w.stage with
  | .preparing .. => w.task.type = .agentUpdate
  | .concluding _ => false

/-- The size of its staged file is checked, and it has not renamed the file yet. -/
def Worker.checked (w : Worker) : Bool :=
  match w.stage with
  | .preparing _ checked => checked
  | .concluding _ => false

/-- The call that it makes next. -/
def Worker.next? (w : Worker) : Option Call :=
  match w.stage with
  | .preparing (.call c _) _ | .concluding (.call c _) => some c
  | _ => none

/-- The call truncates the staged file, or writes to it. -/
def Call.disturbs (rt : Runtime) (files : Files) : Call → Bool
  | .create .installed path | .createNew .installed path | .writeFile .installed path _ => path = updatePath rt
  | .write .installed file _ _ => files.names (updatePath rt) = some file
  | _ => false

/-- No worker truncates or writes the staged file while another has checked it and not renamed it yet. -/
def Undisturbed (rt : Runtime) (crew : Crew) : Move → Prop
  | .work i _ _ => ∀ w c, crew.workers[i]? = some (some w) → w.next? = some c →
    c.disturbs rt crew.host.installed = true →
      ∀ j w', j ≠ i → crew.workers[j]? = some (some w') → w'.checked = false
  | _ => True

/-- An update that the agent has in its queue or is preparing. -/
def Crew.Unprepared (crew : Crew) (task : Task) : Prop :=
  task.type = .agentUpdate ∧ (task ∈ crew.queue ∨ ∃ w, some w ∈ crew.workers ∧ w.updates = true ∧ w.task = task)

/-- When a heartbeat hands out an update, the control plane has not ended one that the agent has not prepared yet. -/
def Settled (a : Installation) (crew : Crew) : Move → Prop
  | .heartbeat => (∃ t ∈ crew.db.claimed a.serverId, t.type = .agentUpdate) →
      ∀ task, crew.Unprepared task → crew.db.processes a.serverId task.id = true
  | _ => True

/-- The agent has just started. -/
structure Crew.Fresh (crew : Crew) : Prop where
  queue : crew.queue = []
  workers : crew.workers = List.replicate workerCount none
  indexed : Indexed crew.db.tasks

/-! ### Lists -/

theorem index_eq_of_countP_le_one {α : Type} {p : α → Bool} {x y : α} : ∀ {l : List α} {i j : Nat}, l.countP p ≤ 1 →
    l[i]? = some x → l[j]? = some y → p x = true → p y = true → i = j
  | [], _, _, _, hi, _, _, _ => by simp at hi
  | z :: l, 0, 0, _, _, _, _, _ => rfl
  | z :: l, 0, j + 1, h, hi, hj, hx, hy => by
    have later : 0 < l.countP p := List.countP_pos_iff.mpr ⟨y, List.mem_of_getElem? hj, hy⟩
    simp only [List.getElem?_cons_zero, Option.some.injEq] at hi
    rw [List.countP_cons, hi, if_pos hx] at h
    omega
  | z :: l, i + 1, 0, h, hi, hj, hx, hy => by
    have later : 0 < l.countP p := List.countP_pos_iff.mpr ⟨x, List.mem_of_getElem? hi, hx⟩
    simp only [List.getElem?_cons_zero, Option.some.injEq] at hj
    rw [List.countP_cons, hj, if_pos hy] at h
    omega
  | z :: l, i + 1, j + 1, h, hi, hj, hx, hy => by
    have fewer : l.countP p ≤ 1 := by
      rw [List.countP_cons] at h
      omega
    exact congrArg (· + 1) (index_eq_of_countP_le_one fewer hi hj hx hy)

theorem countP_le_one {α : Type} {p : α → Bool} :
    ∀ {l : List α}, l.Nodup → (∀ x ∈ l, ∀ y ∈ l, p x = true → p y = true → x = y) →
    l.countP p ≤ 1
  | [], _, _ => by simp
  | x :: l, distinct, one => by
    obtain ⟨new, distinct⟩ := List.nodup_cons.mp distinct
    rw [List.countP_cons]
    split
    · rename_i hx
      have none_ : l.countP p = 0 := List.countP_eq_zero.mpr fun y hy hp =>
        new (one x List.mem_cons_self y (List.mem_cons_of_mem _ hy) hx hp ▸ hy)
      omega
    · exact countP_le_one distinct fun y hy z hz => one y (List.mem_cons_of_mem _ hy) z (List.mem_cons_of_mem _ hz)

/-- One entry is replaced. -/
theorem countP_set {α : Type} {p : α → Bool} {l : List α} {i : Nat} {old : α} (new : α) (h : l[i]? = some old) :
    (l.set i new).countP p + (if p old then 1 else 0) = l.countP p + if p new then 1 else 0 := by
  obtain ⟨hi, rfl⟩ := List.getElem?_eq_some_iff.mp h
  have counted : (if p l[i] then 1 else 0) ≤ l.countP p := by
    split
    · exact List.countP_pos_iff.mpr ⟨l[i], List.getElem_mem hi, ‹_›⟩
    · exact Nat.zero_le _
  rw [List.countP_set hi]
  omega

/-! ### One worker -/

/-- What is known of a worker. An update under way is safe by itself, as it does not notice what happens
    beside the installed files; nothing else touches these. -/
inductive Fit (rt : Runtime) (host₀ host : State) : Worker → Prop
  | update {task : Task} {rest : Program Work} {checked : Bool} (type : task.type = .agentUpdate)
    (calls : rest.Uses Call.Installing)
      (s : State) (alike : s.Alike host)
      (safe : system.Safe (fun _ _ _ => True) (Sound rt host₀) (fun _ _ => True) rest s) :
      Fit rt host₀ host ⟨task, .preparing rest checked⟩
  | other {task : Task} {rest : Program Work} (type : task.type ≠ .agentUpdate) (calls : rest.Uses Call.Sparing) :
      Fit rt host₀ host ⟨task, .preparing rest false⟩
  | concluding {task : Task} {rest : Program Unit} (calls : rest.Uses Call.Sparing) :
    Fit rt host₀ host ⟨task, .concluding rest⟩

variable {rt : Runtime} {host₀ host host' : State} {w : Worker} {task : Task}

theorem State.Alike.trans {s s' s'' : State} (h : s.Alike s') (h' : s'.Alike s'') : s.Alike s'' :=
  ⟨h'.installed.trans h.installed, h'.verified.trans h.verified⟩

theorem State.Alike.sound (h : host.Alike host') (sound : Sound rt host₀ host) : Sound rt host₀ host' := by
  unfold Sound at sound ⊢
  rw [h.installed, h.verified]
  exact sound

/-- What another worker does beside the installed files does not matter, and nothing does unless this one is
preparing an update. -/
theorem Fit.beside (h : Fit rt host₀ host w) (same : host.Alike host' ∨ w.updates = false) : Fit rt host₀ host' w := by
  cases h with
  | update type calls s alike safe =>
    rcases same with same | idle
    · exact .update type calls s (alike.trans same) safe
    · exact absurd type (of_decide_eq_false idle)
  | other type calls => exact .other type calls
  | concluding calls => exact .concluding calls

theorem Fit.checked (h : Fit rt host₀ host w) (checked : w.checked = true) : w.updates = true := by
  cases h with
  | update type calls s alike safe => exact decide_eq_true type
  | other type calls => cases checked
  | concluding calls => cases checked

/-- What has been verified, and the executable as long as it was, count for the agent as it started. -/
theorem Sound.trans {s s' : State} (h : Sound rt s s') (sound : Sound rt host₀ s)
    (verified : s.verified <:+ s'.verified) :
    Sound rt host₀ s' := by
  rcases h with same | verified'
  · rcases sound with same' | ⟨bytes, content, mem⟩
    · exact Or.inl (same.trans same')
    · exact Or.inr ⟨bytes, (congrArg (Option.map File.content) same).trans content, verified.subset mem⟩
  · exact Or.inr verified'

theorem safe_update {payload : AgentUpdatePayload} (sound : Sound rt host₀ host) :
    system.Safe (fun _ _ _ => True) (Sound rt host₀) (fun _ _ => True) (prepareAgentUpdate rt payload).run host := by
  have kept : system.Safe (fun _ _ _ => True) (fun s => host.verified <:+ s.verified) (fun _ s =>
    host.verified <:+ s.verified)
      (prepareAgentUpdate rt payload).run host :=
    System.Safe.keep (fun _ _ _ _ h => h.trans verified_answer) List.suffix_rfl
  have both := System.Safe.and safe_prepareAgentUpdate kept
  exact System.Safe.mono (System.Safe.weaken (fun _ h => h.1.trans sound h.2) both) fun _ _ _ => trivial

/-- A worker that takes a task. -/
theorem Fit.start (sound : Sound rt host₀ host) : Fit rt host₀ host ⟨task, .preparing (prepareTask rt task) false⟩ := by
  by_cases type : task.type = .agentUpdate
  · have update : prepareTask rt task = workOf "Unable to stage agent update: "
        (prepareAgentUpdate rt ⟨task.payload "target_version", task.payload "release_base_url",
            task.payload "release_layout"⟩) fun _ =>
          ⟨.completed, "Agent update staged; activation requested. Waiting for the new version heartbeat.",
            .update⟩ := by
      unfold prepareTask
      rw [type]
    rw [update]
    refine .update type (uses_workOf makes_prepareAgentUpdate) host ⟨rfl, rfl⟩ ?_
    refine (safe_update sound).bind fun r s _ => ?_
    cases r with
    | ok _ => exact System.safe_done.mpr trivial
    | error e => exact System.safe_done.mpr trivial
  · exact .other type (uses_prepareTask type)

/-! ### The crew -/

/-- How many updates the agent has not prepared yet. -/
def Crew.updates (crew : Crew) : Nat :=
  crew.queue.countP (·.type = .agentUpdate) + crew.workers.countP (·.any Worker.updates)

/-- What holds as long as the control plane is settled. -/
structure Together (a : Installation) (host₀ : State) (crew : Crew) : Prop where
  indexed : Indexed crew.db.tasks
  sound : Sound a.runtime host₀ crew.host
  sole : crew.updates ≤ 1
  fit : ∀ (i : Nat) (w : Worker), crew.workers[i]? = some (some w) → Fit a.runtime host₀ crew.host w

variable {a : Installation} {crew crew' : Crew} {i : Nat} {choice : Choice} {arrives : Bool} {c : Call}

theorem together_fresh (h : crew.Fresh) : Together a crew.host crew where
  indexed := h.indexed
  sound := Or.inl rfl
  sole := by
    unfold Crew.updates
    rw [h.queue, h.workers]
    decide
  fit i w hw := by
    rw [h.workers, List.getElem?_replicate] at hw
    split at hw
    · cases hw
    · cases hw

/-- Two workers that prepare updates are one. -/
theorem Together.one_updates (h : Together a host₀ crew) {j : Nat} {w' : Worker} (hw : crew.workers[i]? = some (some w))
    (hw' : crew.workers[j]? = some (some w')) (updates : w.updates = true) (updates' : w'.updates = true) : i = j :=
  index_eq_of_countP_le_one (Nat.le_trans (Nat.le_add_left ..) h.sole) hw hw' updates updates'

/-- A worker has gone on. -/
theorem Together.put (h : Together a host₀ crew) {new : Option Worker} (hw : crew.workers[i]? = some (some w))
    (queue : crew'.queue = crew.queue) (workers : crew'.workers = crew.workers) (indexed : Indexed crew'.db.tasks)
    (sound : Sound a.runtime host₀ crew'.host) (fewer : new.any Worker.updates = true → w.updates = true)
    (fit : ∀ w', new = some w' → Fit a.runtime host₀ crew'.host w')
    (beside : crew.host.Alike crew'.host ∨ w.updates = true) : Together a host₀ (crew'.put i new) where
  indexed := indexed
  sound := sound
  sole := by
    have counted := countP_set (p := (·.any Worker.updates)) new hw
    have before := h.sole
    unfold Crew.updates at before ⊢
    change crew'.queue.countP _ + (crew'.workers.set i new).countP _ ≤ 1
    rw [queue, workers]
    simp only [Option.any_some] at counted
    by_cases updates : new.any Worker.updates = true
    · simp only [updates, fewer updates, if_true] at counted
      omega
    · simp only [updates, Bool.false_eq_true, if_false] at counted
      omega
  fit j w' hw' := by
    change (crew'.workers.set i new)[j]? = some (some w') at hw'
    rw [workers, List.getElem?_set] at hw'
    split at hw'
    · split at hw'
      · exact fit w' (Option.some.inj hw')
      · cases hw'
    · refine (h.fit j w' hw').beside ?_
      rcases beside with same | updates
      · exact Or.inl same
      · refine Or.inr (Bool.eq_false_iff.mpr fun updates' => ?_)
        exact absurd (h.one_updates hw hw' updates updates') ‹_›

/-- A call of a self-update is one of the host alone. -/
theorem answer_update (hc : c.Installing) : crew.answer a task c choice arrives =
    ((State.answer c choice crew.host).1, { crew with host := (State.answer c choice crew.host).2 }) := by
  cases c with
  | report | writeFile | createNew | makeHelperDirectory | unixNano | execute | launch | confirm | restart |
    reboot => exact hc.elim
  | _ => rfl

/-- Another call leaves the installed files as they are. -/
theorem answer_other (hc : c.Sparing) (indexed : Indexed crew.db.tasks) :
    crew.host.Alike (crew.answer a task c choice arrives).2.host ∧
    Indexed (crew.answer a task c choice arrives).2.db.tasks := by
  cases c with
  | report taskId status result =>
    unfold Crew.answer Acting.answer Acting.report
    dsimp only
    split
    · exact ⟨.refl _, indexed.step (.reportTaskResult a.token taskId status result)⟩
    · exact ⟨.refl _, indexed⟩
  | _ => exact ⟨answer_sparing hc, indexed⟩

theorem Together.exit (h : Together a host₀ crew) : Together a host₀ crew.exit where
  indexed := h.indexed
  sound := h.sound
  sole := by
    change 0 + (List.replicate workerCount none).countP (·.any Worker.updates) ≤ 1
    decide
  fit i w hw := by
    change (List.replicate workerCount none)[i]? = some (some w) at hw
    rw [List.getElem?_replicate] at hw
    split at hw
    · cases hw
    · cases hw

/-- The same workers on another state of the control plane and the host. -/
theorem Together.elsewhere (h : Together a host₀ crew) (queue : crew'.queue = crew.queue)
    (workers : crew'.workers = crew.workers)
    (indexed : Indexed crew'.db.tasks) (alike : crew.host.Alike crew'.host) : Together a host₀ crew' where
  indexed := indexed
  sound := alike.sound h.sound
  sole := by
    unfold Crew.updates
    rw [queue, workers]
    exact h.sole
  fit i w hw := by
    rw [workers] at hw
    exact (h.fit i w hw).beside (Or.inl alike)

theorem Together.work (h : Together a host₀ crew) : Together a host₀ (crew.work a i choice arrives) := by
  unfold Crew.work
  split
  · rename_i task work checked hw
    exact h.put hw rfl rfl h.indexed h.sound (fun h => nomatch h) (fun w' hw' =>
      Option.some.inj hw' ▸ .concluding uses_concludeTask)
      (Or.inl (.refl _))
  · rename_i task c next checked hw
    dsimp only
    cases h.fit i _ hw with
    | update type calls s alike safe =>
      obtain ⟨hc, calls⟩ := Process.uses_call.mp calls
      obtain ⟨sound, safe⟩ := System.safe_call.mp safe choice trivial
      obtain ⟨reply, alike⟩ := answer_installing (o := choice) hc alike
      rw [answer_update hc]
      have updates : (Worker.mk task (.preparing (.call c next) checked)).updates = true := decide_eq_true type
      refine h.put hw rfl rfl h.indexed (alike.sound sound) (fun _ => updates) (fun w' hw' => ?_) (Or.inr updates)
      obtain rfl := Option.some.inj hw'
      refine .update type (calls _) _ alike ?_
      rw [← reply]
      exact safe
    | other type calls =>
      obtain ⟨hc, calls⟩ := Process.uses_call.mp calls
      obtain ⟨alike, indexed⟩ := answer_other (a := a) hc h.indexed
      have unchecked : c.checks false = false := by
        cases c with
        | mark m => exact hc.elim
        | _ => rfl
      refine h.put hw rfl rfl indexed (alike.sound h.sound) (fun updates => ?_) (fun w' hw' => ?_) (Or.inl alike)
      · exact absurd (of_decide_eq_true updates) type
      · obtain rfl := Option.some.inj hw'
        rw [unchecked]
        exact .other type (calls _)
  · rename_i hw
    exact h.put hw rfl rfl h.indexed h.sound (fun h => nomatch h) (fun _ h => nomatch h) (Or.inl (.refl _))
  · rename_i task c next hw
    dsimp only
    cases h.fit i _ hw with
    | concluding calls =>
      obtain ⟨hc, calls⟩ := Process.uses_call.mp calls
      obtain ⟨alike, indexed⟩ := answer_other (a := a) hc h.indexed
      have moved : Together a host₀ (crew.answer a task c choice arrives).2 := h.elsewhere rfl rfl indexed alike
      split
      · exact moved.exit
      · exact h.put hw rfl rfl indexed (alike.sound h.sound) (fun h => nomatch h)
          (fun w' hw' => Option.some.inj hw' ▸ .concluding (calls _)) (Or.inl alike)
  · exact h

theorem Together.take (h : Together a host₀ crew) : Together a host₀ (crew.take a i) := by
  unfold Crew.take
  split
  · rename_i task rest hw hq
    have counted := countP_set (p := (·.any Worker.updates))
      (some ⟨task, .preparing (prepareTask a.runtime task) false⟩) hw
    have before := h.sole
    refine ⟨h.indexed, h.sound, ?_, fun j w hj => ?_⟩
    · unfold Crew.updates at before ⊢
      change rest.countP _ + (crew.workers.set i _).countP _ ≤ 1
      rw [hq, List.countP_cons] at before
      by_cases type : task.type = .agentUpdate
      · simp [Worker.updates, type] at counted before
        omega
      · simp [Worker.updates, type] at counted before
        omega
    · change (crew.workers.set i _)[j]? = some (some w) at hj
      rw [List.getElem?_set] at hj
      split at hj
      · split at hj
        · obtain rfl := Option.some.inj (Option.some.inj hj)
          exact .start h.sound
        · cases hj
      · exact h.fit j w hj
  · exact h

/-- A task claimed is pending, of the server. -/
theorem pending_of_claimed {db : Db} {serverId : Uuid} {t : ServerTask} (h : t ∈ db.claimed serverId) :
    t ∈ db.tasks ∧ t.serverId = serverId ∧ t.status = .pending := by
  obtain ⟨mem, claimable_⟩ := List.mem_filter.mp (List.mem_mergeSort.mp (List.mem_of_mem_take h))
  simp only [claimable, Bool.and_eq_true, decide_eq_true_eq] at claimable_
  exact ⟨mem, claimable_.1⟩

/-- Of the updates that are pending, a heartbeat claims one at most. -/
theorem claimed_le_one {db : Db} (serverId : Uuid) (h : Indexed db.tasks) :
    (db.claimed serverId).countP (·.type = .agentUpdate) ≤ 1 := by
  refine countP_le_one ?_ fun t ht t' ht' htype htype' => ?_
  · have sorted := (List.mergeSort_perm (db.tasks.filter (claimable db.now serverId)) claimOrder).nodup_iff.mpr
      (h.distinct.of_map.filter _)
    exact sorted.sublist (List.take_sublist ..)
  · obtain ⟨mem, server, pending⟩ := pending_of_claimed ht
    obtain ⟨mem', server', pending'⟩ := pending_of_claimed ht'
    exact h.one t mem t' mem' (activeUpdate_iff.mpr ⟨of_decide_eq_true htype, Or.inl pending⟩)
      (activeUpdate_iff.mpr ⟨of_decide_eq_true htype', Or.inl pending'⟩) (server.trans server'.symm)

/-- The agent has no update that it has not prepared. -/
theorem updates_eq_zero (h : ∀ task, ¬crew.Unprepared task) : crew.updates = 0 := by
  unfold Crew.updates
  rw [Nat.add_eq_zero_iff, List.countP_eq_zero, List.countP_eq_zero]
  refine ⟨fun task mem update => h task ⟨of_decide_eq_true update, Or.inl mem⟩, fun slot mem updates => ?_⟩
  obtain ⟨w, rfl, preparing⟩ := (Option.any_eq_true _ _).mp updates
  refine h w.task ⟨?_, Or.inr ⟨w, mem, preparing, rfl⟩⟩
  unfold Worker.updates at preparing
  split at preparing
  · exact of_decide_eq_true preparing
  · cases preparing

theorem Together.heartbeat (h : Together a host₀ crew) (settled : Settled a crew .heartbeat) :
    Together a host₀ (crew.heartbeat a) where
  indexed := h.indexed.claimTasks
  sound := h.sound
  sole := by
    have before := h.sole
    have claimed := claimed_le_one a.serverId h.indexed
    have after : (crew.heartbeat a).updates =
        crew.updates + (crew.db.claimed a.serverId).countP (·.type = .agentUpdate) := by
      have sent : ((crew.db.claimed a.serverId).map Task.sent).countP (·.type = .agentUpdate) =
          (crew.db.claimed a.serverId).countP (·.type = .agentUpdate) := List.countP_map
      simp only [Crew.updates, Crew.heartbeat, List.countP_append, sent]
      omega
    by_cases update : ∃ t ∈ crew.db.claimed a.serverId, t.type = .agentUpdate
    · have none_ : crew.updates = 0 := by
        refine updates_eq_zero fun task unprepared => ?_
        obtain ⟨t, ht, htype⟩ := update
        obtain ⟨mem, server, pending⟩ := pending_of_claimed ht
        obtain ⟨t', mem', processing⟩ := List.any_eq_true.mp (settled ⟨t, ht, htype⟩ task unprepared)
        simp only [Bool.and_eq_true, decide_eq_true_eq] at processing
        obtain ⟨⟨⟨-, server'⟩, htype'⟩, processing⟩ := processing
        -- the update claimed and the one in processing would both be active
        have same := h.indexed.one t mem t' mem' (activeUpdate_iff.mpr ⟨htype, Or.inl pending⟩)
          (activeUpdate_iff.mpr ⟨htype', Or.inr processing⟩) (server.trans server'.symm)
        rw [← same, pending] at processing
        cases processing
      omega
    · have none_ : (crew.db.claimed a.serverId).countP (·.type = .agentUpdate) = 0 :=
        List.countP_eq_zero.mpr fun t ht htype => update ⟨t, ht, of_decide_eq_true htype⟩
      omega
  fit i w hw := h.fit i w hw

theorem Together.step (h : Together a host₀ crew) (move : Move) (settled : Settled a crew move) :
    Together a host₀ (crew.step a move) := by
  cases move with
  | control op => exact h.elsewhere rfl rfl (h.indexed.step op) (.refl _)
  | heartbeat => exact h.heartbeat settled
  | take i => exact h.take
  | work i choice arrives => exact h.work
  | exit => exact h.exit

/-! ### Runs -/

theorem not_disturbs (hc : c.Sparing) (files : Files) : c.disturbs rt files = false := by
  cases c with
  | create dir path | createNew dir path | write dir file offset bytes | writeFile dir path bytes =>
    subst hc
    rfl
  | _ => rfl

/-- Only an update under way disturbs the staged file. -/
theorem Fit.disturbs (h : Fit rt host₀ host w) (next : w.next? = some c) {files : Files}
    (disturbs : c.disturbs rt files = true) :
    w.updates = true := by
  cases h with
  | update type calls s alike safe => exact decide_eq_true type
  | @other task rest type calls =>
    cases rest with
    | done work => cases next
    | call c' rest =>
      obtain rfl := Option.some.inj next
      rw [not_disturbs (Process.uses_call.mp calls).1] at disturbs
      cases disturbs
  | @concluding task rest calls =>
    cases rest with
    | done work => cases next
    | call c' rest =>
      obtain rfl := Option.some.inj next
      rw [not_disturbs (Process.uses_call.mp calls).1] at disturbs
      cases disturbs

theorem Together.undisturbed (h : Together a host₀ crew) (move : Move) : Undisturbed a.runtime crew move := by
  cases move with
  | work i choice arrives =>
    intro w c hw next disturbs j w' hne hw'
    rw [← Bool.not_eq_true]
    intro checked
    exact hne (h.one_updates hw' hw ((h.fit j w' hw').checked checked) ((h.fit i w hw).disturbs next disturbs))
  | _ => trivial

/-- In every run in which no heartbeat hands out an update after the control plane has ended one that the
    agent has not prepared yet, no worker truncates or writes the staged file of another that has checked it,
    and the executable is what it was or what a worker has verified. -/
theorem updates_undisturbed (a : Installation) (fresh : crew.Fresh) (run : List Move)
    (settled : (crewMachine a).Each (Settled a) crew run) :
    (crewMachine a).Always (fun crew' => Sound a.runtime crew.host crew'.host) crew run ∧
      (crewMachine a).Each (Undisturbed a.runtime) crew run := by
  have start : Together a crew.host crew := together_fresh fresh
  have keep : ∀ s move, Together a crew.host s → Settled a s move →
      Together a crew.host ((crewMachine a).step s move) :=
    fun s move h settled => h.step move settled
  exact ⟨(Machine.always_of_each keep start settled).mono fun _ h => h.sound,
    Machine.Each.imp keep (fun _ move h _ => h.undisturbed move) start settled⟩

/-! ### An update cancelled under a worker -/

/-- The payload of an update. -/
def release : Jsonb := [("target_version", "1.5.0"), ("release_base_url", "https://releases.example"),
    ("release_layout", "default")]

/-- The agent of `linuxServer`, an update being pending. -/
def installation : Installation := ⟨plainPlatform, runtime, "agent-token", 1⟩

/-- Its agent has just started, and the update is pending. -/
def started : Crew where
  db := ⟨1, [linuxServer], [.inserted 0 1 .agentUpdate release none none 300 hour 5]⟩
  host := older
  queue := []
  workers := List.replicate workerCount none

theorem started_fresh : started.Fresh where
  queue := rfl
  workers := rfl
  indexed := {
    one := fun _ ht _ ht' _ _ _ => (List.mem_singleton.mp ht).trans (List.mem_singleton.mp ht').symm
    distinct := List.nodup_singleton _ }

/-- A worker makes its first `calls` calls on a network that works. -/
def goes (i calls : Nat) : List Move := (List.range calls).map fun n => .work i (responses n) true

/-- The first update is installed, reported, and confirmed by the new version; a second one is then staged and
    checked by another worker. -/
def updating : List Move := [.heartbeat, .take 0] ++ goes 0 22 ++
  [.control (.confirmAgentUpdate 1 "1.5.0"), .control (.createTask 1 7 ⟨.agentUpdate, release, "", 300⟩ 6),
    .heartbeat, .take 1] ++
    goes 1 18

/-- For examples: a heartbeat finds the agent with nothing to do. -/
def rested (crew : Crew) : Move → Bool
  | .heartbeat => crew.queue.isEmpty && crew.workers.all (·.isNone)
  | _ => true

theorem settled_of_rested {move : Move} (h : rested crew move = true) : Settled a crew move := by
  cases move with
  | heartbeat =>
    obtain ⟨queue, workers⟩ := Bool.and_eq_true_iff.mp h
    rintro - task ⟨-, queued | ⟨w, mem, -⟩⟩
    · rw [List.isEmpty_iff.mp queue] at queued
      cases queued
    · cases List.all_eq_true.mp workers _ mem
  | _ => trivial

theorem updating_rested :
    (crewMachine installation).Each (fun crew move => rested crew move = true) started updating := by
  decide +kernel

theorem updates_undisturbed_started :
    ((crewMachine installation).exec started updating).host.installed.content runtime.executablePath = some binary ∧
      ((crewMachine installation).exec started updating).workers.map (·.any Worker.checked) =
      [false, true, false, false] ∧
        (crewMachine installation).Always (fun crew => Sound runtime older crew.host) started updating ∧
          (crewMachine installation).Each (Undisturbed runtime) started updating := by
  have settled : (crewMachine installation).Each (Settled installation) started updating :=
    Machine.Each.imp (I := fun _ => True) (fun _ _ _ _ => trivial) (fun _ _ _ =>
      settled_of_rested) trivial updating_rested
  exact ⟨by decide +kernel, by decide +kernel, updates_undisturbed installation started_fresh updating settled⟩

/-- An update is staged and checked. It is cancelled, and the next one is handed to a second worker, which
    truncates the staged file; the first renames it over the executable. -/
def racing : List Move := [.heartbeat, .take 0] ++ goes 0 18 ++
  [.control (.cancelTask 5 1), .control (.createTask 1 7 ⟨.agentUpdate, release, "", 300⟩ 6), .heartbeat,
    .take 1] ++ goes 1 5 ++
    [.work 0 {} true]

theorem racing_empties :
    ((crewMachine installation).exec started racing).host.installed.content runtime.executablePath = some [] ∧
    [] ∉ ((crewMachine installation).exec started racing).host.verified := by decide +kernel

theorem cancelled_update_races : ¬∀ (a : Installation) (crew : Crew) (run : List Move), crew.Fresh →
    (crewMachine a).Always (fun crew' => Sound a.runtime crew.host crew'.host) crew run ∧
      (crewMachine a).Each (Undisturbed a.runtime) crew run := by
  intro claim
  obtain ⟨empty, unverified⟩ := racing_empties
  rcases (claim installation started racing started_fresh).1.last with same | ⟨bytes, content, verified⟩
  · have before := (congrArg (Option.map File.content) same).symm.trans empty
    exact absurd before (by decide)
  · rw [← Option.some.inj (empty.symm.trans content)] at verified
    exact unverified verified

end Host
end DatrixOps
