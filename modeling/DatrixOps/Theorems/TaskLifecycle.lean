import DatrixOps.Postgres.Schedule
import DatrixOps.Theorems.HandlerRules
import DatrixOps.Theorems.UninstallProgress

/-! The life of a task under any interleaving of the handlers. Every statement that changes a task's
    status is guarded by the status it starts from, and a claim holds the lock of the pending row it
    claims: statuses only move forward, and no task is handed out twice. -/

namespace DatrixOps
namespace Lifecycle
open Postgres Prog

/-! ### What a commit may do to a task -/

/-- The exception: a failed confirmation fails the uninstall task it names. -/
def FailsUninstall (q : Request) (t : ServerTask) : Prop :=
  ∃ req, q = .confirmUninstall req ∧ req.status = .failed ∧ t.id = req.taskId ∧ t.type = .agentUninstall

/-- What a request may make of a task. -/
structure Follows (q : Request) (t t' : ServerTask) : Prop where
  id : t'.id = t.id
  serverId : t'.serverId = t.serverId
  type : t'.type = t.type
  expiresAt : t'.expiresAt = t.expiresAt
  status : Forward t.status t'.status ∨ (FailsUninstall q t ∧ t'.status = .failed)

variable {p : Platform} {q : Request} {t t' t'' : ServerTask}

theorem Follows.refl (q : Request) (t : ServerTask) : Follows q t t := ⟨rfl, rfl, rfl, rfl, Or.inl (Or.inl rfl)⟩

theorem Follows.trans (h₁ : Follows q t t') (h₂ : Follows q t' t'') : Follows q t t'' where
  id := h₂.id.trans h₁.id
  serverId := h₂.serverId.trans h₁.serverId
  type := h₂.type.trans h₁.type
  expiresAt := h₂.expiresAt.trans h₁.expiresAt
  status := by
    rcases h₁.status with h | ⟨hf, h⟩ <;> rcases h₂.status with h' | ⟨⟨req, hq, hs, hid, htype⟩, h'⟩
    · exact Or.inl (h.trans h')
    · exact Or.inr ⟨⟨req, hq, hs, h₁.id ▸ hid, h₁.type ▸ htype⟩, h'⟩
    · rw [h] at h'
      rcases h' with h' | h' | ⟨h', -⟩
      · exact Or.inr ⟨hf, h'⟩
      · cases h'
      · cases h'
    · exact Or.inr ⟨hf, h'⟩

/-- The task in a version of a row. -/
def taskIn (version : Option Row) : Option ServerTask := version.bind Row.task?

@[simp] theorem taskIn_task : taskIn (some (.task t)) = some t := rfl

@[simp] theorem taskIn_server {s : Server} : taskIn (some (.server s)) = none := rfl

@[simp] theorem taskIn_none : taskIn none = none := rfl

/-- A change of a row inserts a pending task under a new key, or follows the task that was there. -/
def Lawful (q : Request) (c : Change Row) : Prop :=
  ∀ t', taskIn c.new = some t' →
    (c.base = none ∧ c.fresh = true ∧ t'.status = .pending) ∨ ∃ t, taskIn c.base = some t ∧ Follows q t t'

/-- The claim of a task: what the transition to processing sets. -/
def started (now : Time) (t : ServerTask) : ServerTask :=
  { t with status := .processing, startedAt := some now, updatedAt := now }

/-- A dispatch of `tx` is due: it answers a heartbeat of the server's token, and it moves to processing a
    committed task of that server, pending and not expired at the time of the statement. -/
def Due (p : Platform) (q : Request) (tx : Tx Uuid Row Dispatch) (d : Dispatch) : Prop :=
  (∃ req release, q = .heartbeat req release ∧ d.server.ownsToken req.agentToken (p.sha256Hex req.agentToken) = true) ∧
    ∃ t, tx.changes t.id = some ⟨some (.task t), some (.task d.task), false⟩ ∧
      claimable tx.start d.server.id t = true ∧ d.task = started tx.start t

/-- A commit moves rows lawfully, and hands out tasks that are due, each once. -/
structure Guarded (p : Platform) (q : Request) (tx : Tx Uuid Row Dispatch) : Prop where
  lawful : ∀ k c, tx.changes k = some c → Lawful q c
  due : ∀ d ∈ tx.events, Due p q tx d
  once : (tx.events.map (·.task.id)).Nodup

/-- Rows stand under their identifiers, commits are guarded, and the tasks of a heartbeat's response are
    those one of its transactions dispatched. -/
def spec (p : Platform) : Spec Request Uuid Row Dispatch Response where
  row k
    | .server s => s.id = k
    | .task t => t.id = k
  commit q _ tx := Guarded p q tx
  answer _ past a := ∀ tasks, a = .heartbeat tasks → tasks = [] ∨ ∃ tx ∈ past, tasks = tx.events.map (·.task)

/-! ### Statements that move tasks forward -/

/-- A transaction that so far has only moved tasks forward. -/
structure Moving (q : Request) (tx : Tx Uuid Row Dispatch) : Prop where
  follows : ∀ k c, tx.changes k = some c → c.fresh = false ∧
    ∀ t', taskIn c.new = some t' → ∃ t, taskIn c.base = some t ∧ Follows q t t'
  silent : tx.events = []

theorem Moving.empty {now : Time} : Moving q (.empty now) := ⟨fun _ _ h => (by cases h), rfl⟩

theorem Moving.guarded {tx : Tx Uuid Row Dispatch} (h : Moving q tx) : Guarded p q tx where
  lawful k c hc t' ht' := Or.inr ((h.follows k c hc).2 t' ht')
  due d hd := by
    rw [h.silent] at hd
    cases hd
  once := by
    rw [h.silent]
    exact List.nodup_nil

theorem Moving.write {tx : Tx Uuid Row Dispatch} {k : Uuid} {base new : Option Row} {r : Row} (h : Moving q tx)
    (hv : tx.view k base = some r) (hf : ∀ t', taskIn new = some t' → ∃ t, r = .task t ∧ Follows q t t') :
    Moving q (tx.write k base new) := by
  refine ⟨fun k' c hc => ?_, h.silent⟩
  by_cases hk : k' = k
  · subst hk
    rw [Tx.changes_write] at hc
    cases hold : tx.changes k' with
    | none =>
      rw [hold] at hc
      obtain rfl := Option.some.inj hc
      rw [Tx.view_of_unchanged hold] at hv
      refine ⟨rfl, fun t' ht' => ?_⟩
      obtain ⟨t, rfl, hft⟩ := hf t' ht'
      exact ⟨t, by simp [hv], hft⟩
    | some c₀ =>
      rw [hold] at hc
      obtain rfl := Option.some.inj hc
      rw [Tx.view_of_changes hold] at hv
      obtain ⟨hfresh, hfollows⟩ := h.follows k' c₀ hold
      refine ⟨hfresh, fun t' ht' => ?_⟩
      obtain ⟨t, rfl, hft⟩ := hf t' ht'
      obtain ⟨t₀, ht₀, hf₀⟩ := hfollows t (by simp [hv])
      exact ⟨t₀, ht₀, hf₀.trans hft⟩
  · rw [Tx.changes_write_of_ne hk] at hc
    exact h.follows k' c hc

/-- Inserting a pending task completes a transaction that only moved tasks forward. -/
theorem Moving.create {tx : Tx Uuid Row Dispatch} {k : Uuid} (h : Moving q tx) (ht : t.status = .pending) :
    Guarded p q (tx.create k (.task t)) where
  lawful k' c hc t' ht' := by
    by_cases hk : k' = k
    · subst hk
      rw [Tx.changes_create] at hc
      obtain rfl := Option.some.inj hc
      obtain rfl := Option.some.inj ht'
      exact Or.inl ⟨rfl, rfl, ht⟩
    · rw [Tx.changes_create_of_ne hk] at hc
      exact Or.inr ((h.follows k' c hc).2 t' ht')
  due d hd := by
    rw [Tx.events_create, h.silent] at hd
    cases hd
  once := by
    rw [Tx.events_create, h.silent]
    exact List.nodup_nil

section Statements
variable {past : List (Tx Uuid Row Dispatch)} {tx : Tx Uuid Row Dispatch}

/-- `UPDATE servers` touches no task. -/
theorem safe_servers {u : List (Uuid × Row) → Update Server} {next : List (Uuid × Server) → Handler}
    (hu : ∀ snapshot s, ((u snapshot).set s).id = s.id) (hJ : Moving q tx)
    (done : ∀ found tx, Moving q tx → (next found).Safe (spec p) q past (some tx)) :
    (update servers u next).Safe (spec p) q past (some tx) :=
  safe_update (J := fun _ => Moving q) hJ (fun snapshot _ _ _ _ s hJ _ hrow valid _ =>
    ⟨(hu snapshot s).trans valid, hJ.write hrow fun _ ht' => by cases ht'⟩) done

end Statements

/-! ### The handlers -/

/-- A program is fine between transactions, whatever its session has committed. -/
def Fine (p : Platform) (q : Request) (prog : Handler) : Prop := ∀ past, prog.Safe (spec p) q past none

theorem Follows.of_advances (h : t.Advances t') : Follows q t t' :=
  ⟨h.id, h.serverId, h.type, h.expiresAt, Or.inl h.status⟩

theorem keeping : Keeping (spec p) q (Moving q) where
  rowTask _ _ _ h valid := h.id.trans valid
  rowServer _ _ _ h valid := h.trans valid
  rowQueued _ _ h := h
  empty _ := .empty
  task _ _ _ t _ hJ hv h := hJ.write hv fun _ ht' => ⟨t, rfl, Option.some.inj ht' ▸ .of_advances h⟩
  server _ _ _ _ _ hJ hv _ _ := hJ.write hv fun _ ht' => by cases ht'
  delete _ _ _ _ hJ hv := hJ.write hv fun _ ht' => by cases ht'
  commit _ _ hJ := hJ.guarded
  queued _ _ _ _ hJ ht := hJ.create ht
  answer _ _ h tasks ha := Or.inl (h tasks ha)

theorem fine_confirmUninstall {req : ConfirmUninstallRequest} :
    Fine p (.confirmUninstall req) (confirmUninstall p req) := by
  intro past now snapshot sees _
  -- the task locked is the uninstall task the request names
  let J (found : List (Uuid × Row)) (tx : Tx Uuid Row Dispatch) : Prop :=
    Moving (.confirmUninstall req) tx ∧
      ∀ kr ∈ found, ∃ t c, kr.1 = req.taskId ∧ t.type = .agentUninstall ∧
        tx.changes req.taskId = some c ∧ c.new = some (.task t)
  refine safe_on (J := fun _ => Moving _) (nodup_matching sees.nodup) .empty
    (fun _ tx k base s hJ _ hrow valid _ => ⟨fun _ h => Option.some.inj h ▸ valid, hJ.write hrow fun _ h => by cases h⟩)
    fun lockedServers tx hJ => safe_on (J := J) (nodup_matching sees.nodup) ⟨hJ, fun _ h => by cases h⟩ ?_ ?_
  · intro found tx k base t hJ hk hrow valid hw
    simp only [confirmableTask, Bool.and_eq_true, decide_eq_true_eq] at hw
    refine ⟨fun _ h => Option.some.inj h ▸ valid, hJ.1.write hrow fun _ h =>
      ⟨t, rfl, Option.some.inj h ▸ Follows.refl _ t⟩, fun kr hkr => ?_⟩
    obtain rfl : k = req.taskId := valid.symm.trans hw.1.1
    rcases List.mem_append.mp hkr with hkr | hkr
    · obtain ⟨_, _, hid, _⟩ := hJ.2 kr hkr
      exact absurd (List.mem_map.mpr ⟨kr, hkr, hid⟩) hk
    · obtain rfl := List.mem_singleton.mp hkr
      refine ⟨t, _, rfl, hw.1.2, Tx.changes_write, ?_⟩
      split <;> rfl
  · intro lockedTasks tx hJ
    split
    · exact keeping.refused _
    · rename_i hlocked
      cases hstatus : req.status with
      | completed => exact keeping.deleteServers hJ.1 fun _ hJ => keeping.committed hJ keeping.accepted
      | failed =>
        have hne : lockedTasks ≠ [] := by
          rintro rfl
          simp at hlocked
        obtain ⟨kr, hkr⟩ := List.exists_mem_of_ne_nil _ hne
        obtain ⟨t, c, -, htype, hc, hnew⟩ := hJ.2 kr hkr
        -- the update of the server leaves the lock of the task
        refine safe_update (J := fun _ tx => Moving (.confirmUninstall req) tx ∧ ∃ t c, t.type = .agentUninstall ∧
            tx.changes req.taskId = some c ∧ c.new = some (.task t)) ⟨hJ.1, t, c, htype, hc, hnew⟩ ?_ ?_
        · rintro _ _ tx k base s ⟨hJ, t, c, htype, hc, hnew⟩ _ hrow valid _
          refine ⟨valid, hJ.write hrow fun _ h => (by cases h), t, c, htype, ?_, hnew⟩
          have hk : req.taskId ≠ k := by
            rintro rfl
            rw [Tx.view_of_changes hc, hnew] at hrow
            cases hrow
          rwa [Tx.changes_write_of_ne hk]
        · rintro _ tx ⟨hJ, t, c, htype, hc, hnew⟩
          refine safe_update (J := fun _ tx => Moving (.confirmUninstall req) tx ∧ ∃ t c, t.type = .agentUninstall ∧
            tx.changes req.taskId = some c ∧ c.new = some (.task t)) ⟨hJ, t, c, htype, hc, hnew⟩ ?_
            fun _ tx hJ => keeping.committed hJ.1 keeping.accepted
          rintro _ _ tx k base t' ⟨hJ, t, c, htype, hc, hnew⟩ _ hrow valid hw
          simp only [failUninstallTask, decide_eq_true_eq] at hw
          obtain rfl : k = req.taskId := valid.symm.trans hw
          rw [Tx.view_of_changes hc, hnew] at hrow
          obtain rfl : t = t' := by simpa using hrow
          have hf : Follows (.confirmUninstall req) t (t.finish now .failed (some req.error)) :=
            ⟨rfl, rfl, rfl, rfl, Or.inr ⟨⟨req, rfl, hstatus, hw, htype⟩, rfl⟩⟩
          exact ⟨valid, hJ.write (by rw [Tx.view_of_changes hc, hnew]) fun _ h => ⟨t, rfl, Option.some.inj h ▸ hf⟩,
            t.finish now .failed (some req.error), _, htype, Tx.changes_write, by rw [hc]; rfl⟩

theorem fine_requestAgentUninstall {id userId : Uuid} {payload : Jsonb} {hash : String} :
    Fine p q (requestAgentUninstall p id userId payload hash) := by
  intro past now
  refine keeping.lockServers .empty fun found tx hJ => ?_
  cases found with
  | nil => exact keeping.refused _
  | cons ks _ =>
    dsimp only
    split
    · exact keeping.refused _
    · refine safe_servers (fun _ _ => rfl) hJ fun _ _ hJ => keeping.tasks (fun _ t hw => Keeping.finish (Or.inl ?_)) hJ
        fun _ _ hJ => ⟨keeping.refused _, fun k _ hk _ => Option.some.inj hk ▸ ⟨rfl, hJ.create rfl, keeping.accepted _⟩⟩
      simp only [expireQueued, Bool.and_eq_true, decide_eq_true_eq] at hw
      exact hw.2

/-! ### Heartbeat -/

theorem claimable_iff {now : Time} {serverId : Uuid} :
    claimable now serverId t = true ↔ t.serverId = serverId ∧ t.status = .pending ∧ t.overdue now = false := by
  simp [claimable, and_assoc]

/-- A claimed row: locked in the version found, which was claimable, or already moved to processing. -/
def Claimed (now : Time) (serverId : Uuid) (tx : Tx Uuid Row Dispatch) (k : Uuid) (t : ServerTask) : Prop :=
  t.id = k ∧ claimable now serverId t = true ∧
    (tx.changes k = some ⟨some (.task t), some (.task t), false⟩ ∨
      tx.changes k = some ⟨some (.task t), some (.task (started now t)), false⟩)

theorem Claimed.write_of_ne {now : Time} {serverId k k' : Uuid} {tx : Tx Uuid Row Dispatch} {base new : Option Row}
    (h : Claimed now serverId tx k t) (hk : k ≠ k') : Claimed now serverId (tx.write k' base new) k t := by
  unfold Claimed
  rw [Tx.changes_write_of_ne hk]
  exact h

theorem Claimed.lawful {now : Time} {serverId k : Uuid} {tx : Tx Uuid Row Dispatch} {c : Change Row}
    (h : Claimed now serverId tx k t) (hc : tx.changes k = some c) : Lawful q c := by
  obtain ⟨-, hclaim, h | h⟩ := h <;> rw [h] at hc <;> obtain rfl := Option.some.inj hc <;> intro t' ht' <;>
    obtain rfl := Option.some.inj ht' <;> refine Or.inr ⟨t, rfl, ?_⟩
  · exact Follows.refl q t
  · exact ⟨rfl, rfl, rfl, rfl, Or.inl (Or.inr (Or.inl (claimable_iff.mp hclaim).2.1))⟩

section Claim
variable {now : Time} {serverId k : Uuid} {tx : Tx Uuid Row Dispatch} {base : Option Row}
  {claimed returned : List (Uuid × ServerTask)}

/-- After the selection: the rows found are claimed, and no other is changed. -/
structure Selected (now : Time) (serverId : Uuid) (claimed : List (Uuid × ServerTask)) (tx : Tx Uuid Row Dispatch) :
    Prop where
  start : tx.start = now
  silent : tx.events = []
  locked : ∀ kt ∈ claimed, Claimed now serverId tx kt.1 kt.2
  only : ∀ k c, tx.changes k = some c → ∃ t, (k, t) ∈ claimed

theorem Selected.lock (h : Selected now serverId claimed tx) (hk : k ∉ claimed.map Prod.fst)
    (hrow : tx.view k base = some (.task t)) (hid : t.id = k) (hclaim : claimable now serverId t = true) :
    Selected now serverId (claimed ++ [(k, t)]) (tx.write k base (some (.task t))) := by
  have hnone : tx.changes k = none := Option.eq_none_iff_forall_ne_some.mpr fun c hc =>
    hk (List.mem_map.mpr ⟨_, (h.only k c hc).choose_spec, rfl⟩)
  refine ⟨h.start, h.silent, fun kt hkt => ?_, fun k' c hc => ?_⟩
  · rcases List.mem_append.mp hkt with hkt | hkt
    · exact (h.locked kt hkt).write_of_ne fun heq => hk (List.mem_map.mpr ⟨kt, hkt, heq⟩)
    · obtain rfl := List.mem_singleton.mp hkt
      refine ⟨hid, hclaim, Or.inl ?_⟩
      rw [Tx.view_of_unchanged hnone] at hrow
      rw [Tx.changes_write, hnone, hrow]
  · by_cases hk' : k' = k
    · exact ⟨t, hk' ▸ List.mem_append_right _ (List.mem_singleton_self _)⟩
    · rw [Tx.changes_write_of_ne hk'] at hc
      obtain ⟨t', ht'⟩ := h.only k' c hc
      exact ⟨t', List.mem_append_left _ ht'⟩

/-- After the update: what is returned has moved to processing. -/
structure Started (now : Time) (serverId : Uuid) (claimed returned : List (Uuid × ServerTask))
    (tx : Tx Uuid Row Dispatch) : Prop extends Selected now serverId claimed tx where
  nodup : (returned.map Prod.fst).Nodup
  moved : ∀ kt ∈ returned, ∃ t, t.id = kt.1 ∧ claimable now serverId t = true ∧ kt.2 = started now t ∧
    tx.changes kt.1 = some ⟨some (.task t), some (.task (started now t)), false⟩

/-- The update only asks for the identifiers of the rows selected; the version it finds is the one locked. -/
theorem Started.move {t₀ : ServerTask} (h : Started now serverId claimed returned tx) (hk : k ∉ returned.map Prod.fst)
    (hrow : tx.view k base = some (.task t₀)) (hid : t₀.id = k) (hw : t₀.id ∈ claimed.map fun kt => kt.2.id) :
    Started now serverId claimed (returned ++ [(k, started now t₀)])
      (tx.write k base (some (.task (started now t₀)))) := by
  obtain ⟨⟨k₁, t⟩, hmem, hid₁⟩ := List.mem_map.mp hw
  obtain ⟨hk₁, hclaim, hchange⟩ := h.locked _ hmem
  obtain rfl : k₁ = k := hk₁.symm.trans (hid₁.trans hid)
  have hset : started now t₀ = started now t ∧ (tx.write k₁ base (some (.task (started now t)))).changes k₁ =
      some ⟨some (.task t), some (.task (started now t)), false⟩ := by
    rcases hchange with hc | hc <;> rw [Tx.view_of_changes hc] at hrow <;>
      obtain rfl := Row.task.inj (Option.some.inj hrow) <;> exact ⟨rfl, by rw [Tx.changes_write, hc]⟩
  rw [hset.1]
  refine ⟨⟨h.start, h.silent, fun kt hkt => ?_, fun k' c hc => ?_⟩, ?_, fun kt hkt => ?_⟩
  · by_cases hkt' : kt.1 = k₁
    · obtain ⟨hid', hclaim', hchange'⟩ := h.locked kt hkt
      rw [hkt'] at hchange'
      have heq : kt.2 = t := by
        rcases hchange with hc | hc <;> rcases hchange' with hc' | hc' <;> rw [hc] at hc' <;>
          simp only [Option.some.injEq, Change.mk.injEq, Row.task.injEq] at hc' <;> exact hc'.1.symm
      exact ⟨hid', hclaim', Or.inr (by rw [hkt', heq]; exact hset.2)⟩
    · exact (h.locked kt hkt).write_of_ne hkt'
  · by_cases hk' : k' = k₁
    · exact ⟨t, hk' ▸ hmem⟩
    · rw [Tx.changes_write_of_ne hk'] at hc
      exact h.only k' c hc
  · rw [List.map_append, List.nodup_append]
    refine ⟨h.nodup, List.nodup_singleton _, fun a ha b hb hab => hk ?_⟩
    rw [List.map_singleton, List.mem_singleton] at hb
    have heq : a = k₁ := hab.trans hb
    exact heq ▸ ha
  · rcases List.mem_append.mp hkt with hkt | hkt
    · obtain ⟨t', hid', hclaim', heq, hc⟩ := h.moved kt hkt
      have hne : kt.1 ≠ k₁ := fun heq => hk (List.mem_map.mpr ⟨kt, hkt, heq⟩)
      exact ⟨t', hid', hclaim', heq, by rw [Tx.changes_write_of_ne hne]; exact hc⟩
    · obtain rfl := List.mem_singleton.mp hkt
      exact ⟨t, hk₁, hclaim, rfl, hset.2⟩

variable {server : Server} {req : HeartbeatRequest} {release : AgentRelease}

theorem Started.events (h : Started now serverId claimed returned tx) :
    (tx.emit ((returned.map Prod.snd).map (Dispatch.mk server))).events =
      returned.map fun kt => Dispatch.mk server kt.2 := by
  rw [Tx.events_emit, h.silent, List.nil_append, List.map_map]
  rfl

/-- The claim commits guarded: each dispatch is due, and none is made twice. -/
theorem Started.guarded (h : Started now server.id claimed returned tx)
    (htoken : server.ownsToken req.agentToken (p.sha256Hex req.agentToken) = true) :
    Guarded p (.heartbeat req release) (tx.emit ((returned.map Prod.snd).map (Dispatch.mk server))) := by
  refine ⟨fun k c hc => ?_, fun d hd => ?_, ?_⟩
  · obtain ⟨t, ht⟩ := h.only k c hc
    exact (h.locked _ ht).lawful hc
  · rw [h.events] at hd
    obtain ⟨kt, hkt, rfl⟩ := List.mem_map.mp hd
    obtain ⟨t, hid, hclaim, heq, hc⟩ := h.moved kt hkt
    refine ⟨⟨req, release, rfl, htoken⟩, t, ?_, ?_, ?_⟩
    · rw [Tx.changes_emit, hid, hc, heq]
    · rwa [Tx.start_emit, h.start]
    · rwa [Tx.start_emit, h.start]
  · rw [h.events, List.map_map]
    have hids : ∀ kt ∈ returned, ((fun d : Dispatch => d.task.id) ∘ fun kt => Dispatch.mk server kt.2) kt = kt.1 := by
      intro kt hkt
      obtain ⟨t, hid, -, heq, -⟩ := h.moved kt hkt
      simp only [Function.comp_apply, heq, started, hid]
    rw [List.map_congr_left hids]
    exact h.nodup

theorem fine_claimTasks (htoken : server.ownsToken req.agentToken (p.sha256Hex req.agentToken) = true) :
    Fine p (.heartbeat req release) (claimTasks server) := by
  intro past now
  refine safe_selectForUpdate (J := Selected now server.id)
    ⟨rfl, rfl, fun _ h => (by cases h), fun _ _ h => (by cases h)⟩
    (fun _ _ _ _ _ hJ hk hrow valid hw => hJ.lock hk hrow valid hw) fun claimed tx hJ => ?_
  refine safe_update (J := Started now server.id claimed) ⟨hJ, List.nodup_nil, fun _ h => (by cases h)⟩
    (fun _ _ _ _ _ _ hJ hk hrow valid hw => ⟨valid, hJ.move hk hrow valid (of_decide_eq_true hw)⟩)
    fun returned tx hJ => ⟨hJ.guarded htoken, fun tasks ha => Or.inr ⟨_, List.mem_cons_self .., ?_⟩⟩
  rw [hJ.events, List.map_map]
  exact (Response.heartbeat.inj ha).symm

end Claim

/-- Every handler keeps the specification. -/
theorem fine_serve : ∀ q, (serve p q).Safe (spec p) q [] none
  | .heartbeat _ _ => keeping.heartbeat (fun _ => fine_claimTasks) []
  | .reportTaskResult _ _ _ _ => keeping.reportTaskResult []
  | .confirmUninstall _ => fine_confirmUninstall []
  | .listServers _ => keeping.expireStale keeping.accepted []
  | .cancelTask _ _ _ => keeping.cancelTask []
  | .createTask _ _ _ => keeping.createTask []
  | .updateAllAgents _ _ => keeping.updateAllAgents []
  | .setAgentAutoUpdate _ _ _ => keeping.setAgentAutoUpdate []
  | .requestAgentUninstall _ _ _ _ => fine_requestAgentUninstall []
  | .removeServers _ => keeping.removeServers []
  | .editServers _ _ => fun _ => safe_servers (fun _ _ => rfl) .empty fun _ _ hJ =>
    keeping.committed hJ keeping.accepted

/-! ### Histories -/

/-- The dispatches of a log, newest first. -/
def dispatches (log : List (Commit Request Uuid Row Dispatch)) : List Dispatch := log.flatMap (·.tx.events)

theorem Follows.not_pending (h : Follows q t t') (ht : t.status ≠ .pending) : t'.status ≠ .pending := by
  rcases h.status with (hs | hs | ⟨-, hs⟩) | ⟨-, hs⟩
  · rwa [hs]
  · exact absurd hs ht
  · exact hs.1
  · rw [hs]
    decide

/-- In a serial history no task is dispatched twice, since a dispatched task is no longer pending. -/
theorem serial_dispatches {rows₀ rows : Uuid → Option Row} {log : List (Commit Request Uuid Row Dispatch)}
    (h : Serial (spec p) rows₀ log rows) :
    ((dispatches log).map (·.task.id)).Nodup ∧ ∀ d ∈ dispatches log,
      (∀ t, taskIn (rows d.task.id) = some t → t.status ≠ .pending) ∧
        ∃ e ∈ log, ∃ c, e.tx.changes d.task.id = some c := by
  induction h with
  | nil => exact ⟨List.nodup_nil, fun _ h => (by cases h)⟩
  | @cons log rows e _ ok base fresh ih =>
    obtain ⟨nodup, gone⟩ := ih
    -- a new dispatch moves a pending task, an old one has left pending
    have new : ∀ d ∈ e.tx.events, ∃ t, d.task.id = t.id ∧ rows t.id = some (.task t) ∧ t.status = .pending ∧
        e.tx.changes t.id = some ⟨some (.task t), some (.task d.task), false⟩ ∧ d.task.status = .processing := by
      intro d hd
      obtain ⟨-, t, hc, hclaim, heq⟩ := ok.due d hd
      exact ⟨t, by rw [heq, started], (base _ _ hc).symm, (claimable_iff.mp hclaim).2.1, hc, by rw [heq, started]⟩
    refine ⟨?_, fun d hd => ?_⟩
    · rw [dispatches, List.flatMap_cons, List.map_append, List.nodup_append]
      refine ⟨ok.once, nodup, fun a ha b hb hab => ?_⟩
      obtain ⟨d, hd, rfl⟩ := List.mem_map.mp ha
      obtain ⟨d', hd', rfl⟩ := List.mem_map.mp hb
      obtain ⟨t, hid, hrow, hpending, -⟩ := new d hd
      exact (gone d' hd').1 t (by rw [← hab, hid, hrow]; rfl) hpending
    · rw [dispatches, List.flatMap_cons, List.mem_append] at hd
      rcases hd with hd | hd
      · obtain ⟨t, hid, -, -, hc, hst⟩ := new d hd
        refine ⟨fun t' ht' => ?_, e, List.mem_cons_self .., _, hid ▸ hc⟩
        rw [hid, Tx.apply, Tx.view_of_changes hc] at ht'
        obtain rfl := Option.some.inj ht'
        rw [hst]
        decide
      · obtain ⟨hgone, e', he', c', hc'⟩ := gone d hd
        refine ⟨fun t' ht' => ?_, e', List.mem_cons_of_mem _ he', c', hc'⟩
        cases hc : e.tx.changes d.task.id with
        | none =>
          rw [Tx.apply, Tx.view_of_unchanged hc] at ht'
          exact hgone t' ht'
        | some c =>
          rw [Tx.apply, Tx.view_of_changes hc] at ht'
          rcases ok.lawful _ c hc t' ht' with ⟨-, hfresh, -⟩ | ⟨t, ht, hf⟩
          · rw [(fresh _ c hc hfresh).2 e' he'] at hc'
            cases hc'
          · rw [base _ c hc] at ht
            exact hf.not_pending (hgone t ht)

theorem serial_guarded {rows₀ rows : Uuid → Option Row} {log : List (Commit Request Uuid Row Dispatch)}
    (h : Serial (spec p) rows₀ log rows) : ∀ e ∈ log, Guarded p e.request e.tx := by
  induction h with
  | nil => exact fun _ h => (by cases h)
  | cons _ ok _ _ ih =>
    intro e' he'
    rcases List.mem_cons.mp he' with rfl | he'
    · exact ok
    · exact ih e' he'

/-- In every state that any interleaving of the handlers reaches: the versions of each row, from its
    first to its current one, follow the lifecycle; each task was dispatched at most once; each dispatch
    was to the task's own server, of a task pending and unexpired at the time of the claim; and each
    task of a heartbeat's response is one that its session dispatched. -/
theorem dispatch_once_and_forward {rows : Uuid → Option Row} {s : State Request Uuid Row Dispatch Bool Response}
    (keyed : ∀ k r, rows k = some r → (spec p).row k r) (h : Reachable (serve p) rows s) :
    (∀ k, Linked (rows k) (changesOf k s.log) (s.rows k) ∧ ∀ qc ∈ changesOf k s.log, Lawful qc.1 qc.2) ∧
    ((dispatches s.log).map (·.task.id)).Nodup ∧
    (∀ e ∈ s.log, ∀ d ∈ e.tx.events, Due p e.request e.tx d) ∧
    ∀ i session tasks, s.sessions i = some session → session.control = .answered (.heartbeat tasks) →
      ∀ t ∈ tasks, ∃ e ∈ s.log, e.session = i ∧ ∃ d ∈ e.tx.events, d.task = t := by
  have hs : Consistent (spec p) rows s := h.consistent fine_serve keyed
  have guarded := serial_guarded hs.history
  refine ⟨fun k => ⟨hs.history.linked k, ?_⟩, (serial_dispatches hs.history).1, fun e he => (guarded e he).due, ?_⟩
  · rintro ⟨q, c⟩ hqc
    obtain ⟨e, he, hc⟩ := List.mem_filterMap.mp hqc
    obtain ⟨c', hc', heq⟩ := Option.map_eq_some_iff.mp hc
    cases heq
    exact (guarded e he).lawful k c hc'
  · intro i session tasks hi hanswer t ht
    have safe := hs.safe i session hi
    rw [Session.Safe, hanswer] at safe
    rcases safe tasks rfl with rfl | ⟨tx, htx, rfl⟩
    · cases ht
    · obtain ⟨e, he, rfl⟩ := List.mem_map.mp htx
      obtain ⟨he, hsession⟩ := List.mem_filter.mp he
      obtain ⟨d, hd, rfl⟩ := List.mem_map.mp ht
      exact ⟨e, he, by simpa using hsession, d, hd, rfl⟩

/-! ### Two heartbeats at once -/

/-- A server without tasks. -/
def oneServer : List (Uuid × Row) := [(1, .server linuxServer)]

/-- Its user asks for a restart of its agent. -/
def restarted : Request := .createTask 7 1 ⟨.agentRestart, [], "", 60⟩

/-- Its agent asks for tasks. -/
def beat : Request := .heartbeat ⟨"agent-token", "1.5.0", [], ""⟩ ⟨"", "", []⟩

/-- A heartbeat up to its claim: the server is marked online, and two sweeps pass. -/
def upToClaim (i : Nat) : List (Move Request Uuid Bool) :=
  List.replicate 4 (.next i) ++ .reply i false :: List.replicate 3 (.next i) ++ .reply i false ::
    List.replicate 3 (.next i) ++ [.reply i false]

/-- A restart is queued; two heartbeats come, the second one claiming while the first holds the task; and then
its result is reported. -/
def dispatching : List (Move Request Uuid Bool) :=
  .arrive 0 restarted :: List.replicate 7 (.next 0) ++
    [.reply 0 true, .next 0, .insert 0 100, .next 0, .next 0, .arrive 1 beat, .arrive 2 beat] ++
    upToClaim 1 ++ List.replicate 5 (.next 1) ++ upToClaim 2 ++ List.replicate 7 (.next 2) ++
    List.replicate 3 (.next 1) ++
    .arrive 3 (.reportTaskResult "agent-token" 100 .completed "restarting") :: List.replicate 5 (.next 3)

/-- For examples: task 100 has been dispatched once, to session 1 and not to session 2, and is completed. -/
def dispatchedOnce (s : Listed Request Uuid Row Dispatch Bool Response) : Bool :=
  (dispatches s.log).map (·.task.id) = [100] && ((s.rows 100).bind Row.task?).any (fun t => t.status = .completed) &&
    match s.sessions.lookup 1, s.sessions.lookup 2 with
    | some ⟨_, .answered (.heartbeat first), _⟩, some ⟨_, .answered (.heartbeat second), _⟩ =>
      first.map (·.id) = [100] && second.isEmpty
    | _, _ => false

theorem dispatch_once_and_forward_oneServer :
    ∃ s : Listed Request Uuid Row Dispatch Bool Response, dispatchedOnce s = true ∧
    (∀ k, Linked (oneServer.lookup k) (changesOf k s.state.log) (s.state.rows k) ∧
      ∀ qc ∈ changesOf k s.state.log, Lawful qc.1 qc.2) ∧
    ((dispatches s.state.log).map (·.task.id)).Nodup ∧
    (∀ e ∈ s.state.log, ∀ d ∈ e.tx.events, Due plainPlatform e.request e.tx d) ∧
    ∀ i session tasks, s.state.sessions i = some session → session.control = .answered (.heartbeat tasks) →
      ∀ t ∈ tasks, ∃ e ∈ s.state.log, e.session = i ∧ ∃ d ∈ e.tx.events, d.task = t := by
  obtain ⟨s, reachable, h⟩ := Listed.reachable_of_check (serve plainPlatform) 0 oneServer dispatching dispatchedOnce
    (by decide +kernel)
  refine ⟨s, h, dispatch_once_and_forward (fun k r hr => ?_) reachable⟩
  simp only [oneServer, List.lookup_cons, List.lookup_nil] at hr
  split at hr
  · rename_i here
    obtain rfl := Option.some.inj hr
    exact (beq_iff_eq.mp here).symm
  · cases hr

end Lifecycle
end DatrixOps
