import DatrixOps.Postgres.Insertion
import DatrixOps.Postgres.Schedule
import DatrixOps.Server.TaskCreation

/-! A server has at most one task with an idempotency key, and CreateTask answers with it, or for an update of the agent
    with an update in flight. -/

namespace DatrixOps
namespace TaskCreation
open Postgres Prog

/-! ### What no transaction changes -/

/-- A later version of a task. -/
structure Same (t t' : ServerTask) : Prop where
  id : t'.id = t.id
  serverId : t'.serverId = t.serverId
  type : t'.type = t.type
  idempotencyKey : t'.idempotencyKey = t.idempotencyKey

theorem Same.refl (t : ServerTask) : Same t t := ⟨rfl, rfl, rfl, rfl⟩

theorem Same.trans {t t' t'' : ServerTask} (h : Same t t') (h' : Same t' t'') : Same t t'' :=
  ⟨h'.id.trans h.id, h'.serverId.trans h.serverId, h'.type.trans h.type, h'.idempotencyKey.trans h.idempotencyKey⟩

/-- The tasks there are stay. -/
def Remain (rows rows' : Uuid → Option Row) : Prop :=
  ∀ k t, rows k = some (.task t) → ∃ t', rows' k = some (.task t') ∧ Same t t'

/-- The tasks a transaction has changed are still there. -/
def Retains (tx : Tx Uuid Row Empty) : Prop :=
  ∀ k c t, tx.changes k = some c → c.base = some (.task t) → ∃ t', c.new = some (.task t') ∧ Same t t'

variable {tx : Tx Uuid Row Empty} {rows rows' : Uuid → Option Row}

theorem Retains.apply (h : Retains tx) (base : ∀ k c, tx.changes k = some c → c.base = rows k) :
    Remain rows (tx.apply rows) := by
  intro k t ht
  cases hc : tx.changes k with
  | none => exact ⟨t, by rw [Tx.apply, Tx.view_of_unchanged hc, ht], .refl t⟩
  | some c =>
    rw [Tx.apply, Tx.view_of_changes hc]
    exact h k c t hc ((base k c hc).trans ht)

theorem Retains.write {k : Uuid} {base new : Option Row} (h : Retains tx)
    (hv : ∀ t, tx.view k base = some (.task t) → ∃ t', new = some (.task t') ∧ Same t t') :
      Retains (tx.write k base new) := by
  intro k' c t hc hb
  by_cases hk : k' = k
  · subst hk
    rw [Tx.changes_write] at hc
    obtain rfl := Option.some.inj hc
    cases hc₀ : tx.changes k' with
    | none =>
      rw [hc₀] at hb
      exact hv t ((Tx.view_of_unchanged hc₀).trans hb)
    | some c₀ =>
      rw [hc₀] at hb
      obtain ⟨t₁, hn, h₁⟩ := h k' c₀ t hc₀ hb
      obtain ⟨t', hn', h'⟩ := hv t₁ ((Tx.view_of_changes hc₀).trans hn)
      exact ⟨t', hn', h₁.trans h'⟩
  · rw [Tx.changes_write_of_ne hk] at hc
    exact h k' c t hc hb

theorem Retains.create {k : Uuid} {row : Row} (h : Retains tx) : Retains (tx.create k row) := by
  intro k' c t hc hb
  by_cases hk : k' = k
  · subst hk
    rw [Tx.changes_create] at hc
    obtain rfl := Option.some.inj hc
    cases hb
  · rw [Tx.changes_create_of_ne hk] at hc
    exact h k' c t hc hb

theorem retains_empty {t : Time} : Retains (.empty t) := fun _ _ _ hc _ => by cases hc

/-! ### The specification -/

/-- Each task is stored under its id, and no commit removes one. -/
def spec : Spec Request Uuid Row Empty Response where
  row k r := ∀ t, r = .task t → t.id = k
  commit _ _ tx := Retains tx
  answer _ _ _ := True

/-- The entry of a task in `idx_server_tasks_idempotency`. -/
def entry (r : Row) : Option (Uuid × String) := r.task?.bind fun t => t.idempotencyKey.map fun key => (t.serverId, key)

theorem entry_task {t : ServerTask} {serverId : Uuid} {key : String} :
    entry (.task t) = some (serverId, key) ↔ t.serverId = serverId ∧ t.idempotencyKey = some key := by
  simp only [entry, Row.task?, Option.bind_some, Option.map_eq_some_iff, Prod.mk.injEq]
  constructor
  · rintro ⟨key, hk, hs, rfl⟩
    exact ⟨hs, hk⟩
  · rintro ⟨hs, hk⟩
    exact ⟨key, hk, hs, rfl⟩

/-- The task `t` stands for the request. -/
def StandsFor (serverId : Uuid) (req : CreateTaskRequest) (status : TaskStatus) (t : ServerTask) : Prop :=
  t.serverId = serverId ∧ (t.idempotencyKey = nullIfEmpty req.idempotencyKey ∨
    (req.type = .agentUpdate ∧ t.type = .agentUpdate ∧ (status = .pending ∨ status = .processing)))

theorem StandsFor.same {serverId : Uuid} {req : CreateTaskRequest} {status : TaskStatus} {t t' : ServerTask}
    (h : StandsFor serverId req status t) (same : Same t t') : StandsFor serverId req status t' :=
  ⟨same.serverId.trans h.1, h.2.imp (same.idempotencyKey.trans ·) fun ⟨ht, htype, hs⟩ =>
    ⟨ht, same.type.trans htype, hs⟩⟩

/-- What the answer of a request promises of the rows. -/
def promise : Request → Response → (Uuid → Option Row) → Prop
  | .createTask _ serverId req, .created id status, rows =>
    ∃ k t, rows k = some (.task t) ∧ t.id = id ∧ StandsFor serverId req status t
  | .createTask .., .failed, _ => False
  | .createTask .., .done, _ => False
  | _, _, _ => True

/-- What a program owes between two transactions. -/
structure Fine (q : Request) (prog : Handler) : Prop where
  respects : prog.Respects entry
  safe : ∀ past, prog.Safe spec q past none
  keeps : ∀ rows, prog.Keeps Remain (promise q) none rows

/-- What it owes in a transaction. -/
structure FineIn (q : Request) (prog : Handler) : Prop where
  respects : prog.Respects entry
  safe : ∀ past tx, Retains tx → prog.Safe spec q past (some tx)
  keeps : ∀ tx rows, prog.Keeps Remain (promise q) (some tx) rows

variable {q : Request} {next : Handler}

theorem Fine.answer {a : Response} (h : ∀ rows, promise q a rows) : Fine q (.answer a) :=
  ⟨trivial, fun _ => trivial, fun _ => Onward.of_forall h⟩

theorem Fine.ask {next : Bool → Handler} (h : ∀ a, Fine q (next a)) : Fine q (.ask next) :=
  ⟨fun a => (h a).respects, fun past a => (h a).safe past, fun _ => Onward.of_forall fun rows a => (h a).keeps rows⟩

theorem Fine.start {next : Time → Handler} (h : ∀ t, FineIn q (next t)) : Fine q (.start next) :=
  ⟨fun t => (h t).respects, fun past t => (h t).safe past _ retains_empty,
    fun _ => Onward.of_forall fun rows t => (h t).keeps _ rows⟩

theorem FineIn.commit (h : Fine q next) : FineIn q (.commit next) :=
  ⟨h.respects, fun past tx ht => ⟨ht, h.safe (tx :: past)⟩, fun _ _ => Onward.of_forall fun _ => h.keeps _⟩

theorem FineIn.scan {next : List (Uuid × Row) → Handler}
    (h : ∀ snapshot, (snapshot.map Prod.fst).Nodup → FineIn q (next snapshot)) : FineIn q (.scan next) :=
  ⟨fun snapshot nodup => (h snapshot nodup).respects, fun past tx ht snapshot sees _ =>
    (h snapshot sees.nodup).safe past tx ht,
    fun tx _ => Onward.of_forall fun rows snapshot nodup _ => (h snapshot nodup).keeps tx rows⟩

/-- An update of the tasks a statement has chosen. -/
theorem FineIn.visitTasks {u : Update ServerTask} {ks : List Uuid} {next : List (Uuid × Row) → Handler}
    (nodup : ks.Nodup)
    (same : ∀ t, Same t (u.set t)) (h : ∀ found, FineIn q (next found)) :
    FineIn q (visit false none (on serverTasks u.where_ fun t => some (u.set t)) ks [] next) := by
  refine ⟨respects_visit (fun r new hf => ?_) (fun found => (h found).respects) ks [], fun past tx ht => ?_,
    keeps_visit (fun found => (h found).keeps) ks []⟩
  · obtain ⟨t, rfl, -, rfl⟩ := on_eq_some hf
    refine ⟨_, rfl, ?_⟩
    simp only [serverTasks_put, entry, Row.task?, Option.bind_some, (same t).serverId, (same t).idempotencyKey]
  · refine safe_on (J := fun _ => Retains) nodup ht (fun found tx k base t ht _ hv valid _ => ⟨?_, ?_⟩)
        fun found tx ht =>
      (h found).safe past tx ht
    · rintro t' ⟨⟩ _ ⟨⟩
      exact (same t).id.trans (valid t rfl)
    · refine ht.write fun t₀ ht₀ => ?_
      obtain rfl := Row.task.inj (Option.some.inj (hv.symm.trans ht₀))
      exact ⟨_, rfl, same t⟩

theorem FineIn.visitServers {u : Update Server} {ks : List Uuid} {next : List (Uuid × Row) → Handler} (nodup : ks.Nodup)
    (h : ∀ found, FineIn q (next found)) :
    FineIn q (visit false none (on servers u.where_ fun s => some (u.set s)) ks [] next) := by
  refine ⟨respects_visit (fun r new hf => ?_) (fun found => (h found).respects) ks [], fun past tx ht => ?_,
    keeps_visit (fun found => (h found).keeps) ks []⟩
  · obtain ⟨s, rfl, -, rfl⟩ := on_eq_some hf
    exact ⟨_, rfl, rfl⟩
  · refine safe_on (J := fun _ => Retains) nodup ht (fun found tx k base s ht _ hv _ _ => ⟨?_, ?_⟩) fun found tx ht =>
      (h found).safe past tx ht
    · rintro s' ⟨⟩ t ⟨⟩
    · exact ht.write fun t₀ ht₀ => by cases hv.symm.trans ht₀

theorem FineIn.tasks {u : List (Uuid × Row) → Update ServerTask} {next : List (Uuid × ServerTask) → Handler}
    (same : ∀ snapshot t, Same t ((u snapshot).set t)) (h : ∀ found, FineIn q (next found)) :
    FineIn q (update serverTasks u next) :=
  .scan fun snapshot nodup => .visitTasks (nodup_matching nodup) (same snapshot) fun _ => h _

theorem FineIn.servers {u : List (Uuid × Row) → Update Server} {next : List (Uuid × Server) → Handler}
    (h : ∀ found, FineIn q (next found)) : FineIn q (update DatrixOps.servers u next) :=
  .scan fun _ nodup => .visitServers (nodup_matching nodup) fun _ => h _

theorem Fine.attempt {statement : Handler → Handler} (hs : Fine q (statement next)) (hn : Fine q next) :
    Fine q (attempt statement next) :=
  .ask fun fails => by
    cases fails with
    | true => exact hn
    | false => exact hs

theorem Fine.updateTasks {u : Time → Update ServerTask} (same : ∀ now t, Same t ((u now).set t)) (h : Fine q next) :
    Fine q (updateTasks u next) :=
  .start fun now => .tasks (fun _ => same now) fun _ => .commit h

theorem Fine.expireStaleAgentUninstalls {userId : Uuid} (h : Fine q next) :
    Fine q (expireStaleAgentUninstalls userId next) :=
  .start fun _ => .scan fun _ nodup => .visitTasks (nodup_matching nodup) (fun _ => ⟨rfl, rfl, rfl, rfl⟩) fun _ =>
    .visitServers (nodup_matching nodup) fun _ => .servers fun _ => .commit h

theorem Fine.getServer {id userId : Uuid} {next : Server → Handler} (h : ∀ s, Fine q (next s)) :
    Fine q (getServer id userId next) :=
  .expireStaleAgentUninstalls <| .start fun _ => .scan fun snapshot _ => .commit <| by
    dsimp only
    split
    · exact h _
    · exact .answer fun _ => by cases q <;> trivial

theorem Fine.expireStaleAgentUpdateTasks {serverId : Uuid} (h : Fine q next) :
    Fine q (expireStaleAgentUpdateTasks serverId next) :=
  have inner := Fine.attempt (.updateTasks (u := (timeOutStaleUpdates · serverId)) (fun _ _ =>
    ⟨rfl, rfl, rfl, rfl⟩) h) h
  .attempt (.updateTasks (fun _ _ => ⟨rfl, rfl, rfl, rfl⟩) inner) inner

/-! ### The inserts -/

/-- An inserted task gives way to every task with its entry. -/
theorem conflicts_of_entry {t t' : ServerTask} (key : t.idempotencyKey = t'.idempotencyKey)
    (server : t.serverId = t'.serverId)
    {r : Row} (hsome : entry (.task t) ≠ none) (same : entry r = entry (.task t)) :
    conflicting t' r = true := by
  cases r with
  | server s =>
    rw [← same] at hsome
    exact absurd rfl hsome
  | task x =>
    obtain ⟨⟨serverId, k⟩, he⟩ := Option.ne_none_iff_exists'.mp hsome
    obtain ⟨hs, hk⟩ := entry_task.mp he
    obtain ⟨hs', hk'⟩ := entry_task.mp (same.trans he)
    simp [conflicting, Row.task?, ServerTask.conflicts, hs', hk', ← server, hs, ← key, hk]

/-- A statement that inserts a task without a key. -/
theorem FineIn.queue {row : Uuid → ServerTask} (keyed : ∀ id, (row id).id = id)
    (keyless : ∀ id, (row id).idempotencyKey = none)
    {conflict : Row → Bool} (h : FineIn q next) :
      FineIn q (.insert (fun id => some (.task (row id))) conflict fun _ => next) := by
  refine ⟨⟨?_, fun _ => h.respects⟩, fun past tx ht => ⟨h.safe past tx ht, ?_⟩,
      fun tx rows => Onward.of_forall fun rows =>
    ⟨fun _ => h.keeps tx rows, fun k r _ _ _ => h.keeps _ rows⟩⟩
  · rintro k _ r' ⟨⟩ hsome -
    simp [entry, Row.task?, keyless] at hsome
  · rintro k _ ⟨⟩ -
    refine ⟨?_, h.safe past _ ht.create⟩
    rintro _ ⟨⟩
    exact keyed k

theorem fineIn_perform {edits : List Edit} (now : Time) : FineIn (.transact edits) (perform now edits) := by
  suffices ∀ rest, FineIn (.transact edits) (perform now rest) from this edits
  intro rest
  induction rest with
  | nil => exact .commit (.answer fun _ => trivial)
  | cons edit rest ih =>
    cases edit with
    | tasks u => exact .tasks (fun _ _ => ⟨rfl, rfl, rfl, rfl⟩) fun _ => ih
    | servers u => exact .servers fun _ => ih
    | queue => exact .queue (fun _ => rfl) (fun _ => rfl) ih

/-! ### The statement of CreateTask -/

variable {userId serverId : Uuid} {req : CreateTaskRequest}

/-- The task `t` was read for the request. -/
def Reads (serverId : Uuid) (req : CreateTaskRequest) (rows : Uuid → Option Row) (t : ServerTask) : Prop :=
  ∃ k t', rows k = some (.task t') ∧ t'.id = t.id ∧ StandsFor serverId req t.status t'

theorem Reads.remain {t : ServerTask} (h : Reads serverId req rows t) (remain : Remain rows rows') :
    Reads serverId req rows' t := by
  obtain ⟨k, t₁, hr, hid, hs⟩ := h
  obtain ⟨t', hr', same⟩ := remain k t₁ hr
  exact ⟨k, t', hr', same.id.trans hid, hs.same same⟩

theorem keeps_limitOne : ∀ {found : List ServerTask} {rows : Uuid → Option Row}, found ≠ [] →
    (∀ t ∈ found, Reads serverId req rows t) →
    (limitOne (.answer .failed) (fun t => .answer (.created t.id t.status)) found).Keeps Remain
      (promise (.createTask userId serverId req)) none rows
  | [], _, nonempty, _ => absurd rfl nonempty
  | [t], _, _, h => Onward.of_stable (J := fun rows => Reads serverId req rows t) (h t (List.mem_singleton_self t))
      (fun _ _ h move => h.remain move) fun _ h => h
  | t :: t' :: rest, _, _, h => by
    refine Onward.of_stable (J := fun rows => ∀ x ∈ t :: t' :: rest, Reads serverId req rows x) h
      (fun _ _ h move x hx => (h x hx).remain move) fun rows h first => ?_
    cases first with
    | true =>
      exact Onward.of_stable (J := fun rows => Reads serverId req rows t) (h t (List.mem_cons_self ..))
        (fun _ _ h move => h.remain move) fun _ h => h
    | false => exact keeps_limitOne (List.cons_ne_nil t' rest) fun x hx => h x (List.mem_cons_of_mem _ hx)

theorem existing_standsFor {t : ServerTask} (h : existing serverId req t = true) :
    StandsFor serverId req t.status t := by
  simp only [existing, Bool.and_eq_true, Bool.or_eq_true, decide_eq_true_eq, ServerTask.activeUpdate,
    ServerTask.live] at h
  refine ⟨h.1, h.2.imp And.right fun ⟨htype, hupdate, hlive⟩ => ⟨htype, hupdate, hlive⟩⟩

/-- What the insert gives way to is what the lookup looks for. -/
theorem existing_of_conflicting {now : Time} {r : Row} (h : conflicting (newTask now userId serverId req 0) r = true)
    (valid : req.valid = true) : ∃ t, r = .task t ∧ existing serverId req t = true := by
  have notUninstall : req.type ≠ .agentUninstall := by
    simp only [CreateTaskRequest.valid, Bool.and_eq_true, decide_eq_true_eq] at valid
    rintro htype
    rw [htype] at valid
    exact absurd valid.1.1 (by decide)
  cases r with
  | server s => cases h
  | task t =>
    refine ⟨t, rfl, ?_⟩
    simp only [conflicting, Row.task?, Option.any_some, ServerTask.conflicts, Bool.and_eq_true, Bool.or_eq_true,
      decide_eq_true_eq] at h
    simp only [existing, Bool.and_eq_true, Bool.or_eq_true, decide_eq_true_eq]
    rcases h with ⟨hserver, (⟨hsome, hkey⟩ | ⟨hnew, hupdate⟩) | ⟨hnew, -⟩⟩
    · exact ⟨hserver, Or.inl ⟨by rw [hkey] at hsome; exact hsome, hkey⟩⟩
    · simp only [ServerTask.activeUpdate, newTask, ServerTask.inserted, Bool.and_eq_true] at hnew
      exact ⟨hserver, Or.inr ⟨of_decide_eq_true hnew.1, hupdate⟩⟩
    · simp [ServerTask.activeUninstall, newTask, ServerTask.inserted, notUninstall] at hnew

/-- What is answered is one of the rows found, or that there are none. -/
theorem limitOne_cases {P : Handler → Prop} (answer : ∀ a, P (.answer a))
    (ask : ∀ next, (∀ b, P (next b)) → P (.ask next)) :
    ∀ found, P (limitOne (.answer .failed) (fun t => .answer (.created t.id t.status)) found)
  | [] => answer _
  | [_] => answer _
  | t :: t' :: rest => ask _ fun b => by
    cases b with
    | true => exact answer _
    | false => exact limitOne_cases answer ask (t' :: rest)

/-- The tasks found are read, and one of them for every row in conflict. -/
structure Found (snapshot : List (Uuid × Row)) (serverId : Uuid) (req : CreateTaskRequest) (conflict : Row → Bool)
    (rows : Uuid → Option Row) : Prop where
  reads : ∀ t ∈ lookup serverId req snapshot, Reads serverId req rows t
  known : ∀ k r, rows k = some r → conflict r = true → ∃ r₀, (k, r₀) ∈ snapshot ∧ conflict r₀ = true

theorem mem_lookup {snapshot : List (Uuid × Row)} {t : ServerTask} :
    t ∈ lookup serverId req snapshot ↔ ∃ k, (k, .task t) ∈ snapshot ∧ existing serverId req t = true := by
  simp only [lookup, matching, List.mem_map, List.mem_filter, Prod.exists, exists_eq_right, Table.mem_rows,
    serverTasks_put]

theorem Reads.onward {ts : List ServerTask} {φ : (Uuid → Option Row) → Prop} (h : ∀ t ∈ ts, Reads serverId req rows t)
    (out : ∀ rows, (∀ t ∈ ts, Reads serverId req rows t) → φ rows) : Onward Remain φ rows :=
  .of_stable (J := fun rows => ∀ t ∈ ts, Reads serverId req rows t) h (fun _ _ h move t ht => (h t ht).remain move) out

/-- Once the statement has inserted its task, or given way to one that it finds, the request is answered with
what it reads. -/
theorem keeps_insertOrFind (valid : req.valid = true) :
    (insertOrFind userId serverId req).Keeps Remain (promise (.createTask userId serverId req)) none rows := by
  refine Onward.of_forall fun _ now => Onward.of_forall fun rows snapshot _ seen => ?_
  have seen : ∀ k r, (k, r) ∈ snapshot ↔ rows k = some r := seen
  refine Onward.of_stable (J := Found snapshot serverId req (conflicting (newTask now userId serverId req 0)))
    ⟨fun t ht => ?_,
    fun k r hr hc => ⟨r, (seen k r).mpr hr, hc⟩⟩ (fun rows rows' h move =>
      ⟨fun t ht => (h.reads t ht).remain move.1, fun k r hr hc => ?_⟩)
    fun rows h => ⟨?_, ?_⟩
  · obtain ⟨k, hmem, he⟩ := mem_lookup.mp ht
    exact ⟨k, t, (seen k _).mp hmem, rfl, existing_standsFor he⟩
  · obtain ⟨r₁, hr₁, hc₁⟩ := move.2 k r hr hc
    exact h.known k r₁ hr₁ hc₁
  · -- the row given way to was there already when the snapshot was taken
    rintro ⟨k, r, hr, hc⟩
    obtain ⟨r₀, hr₀, hc₀⟩ := h.known k r hr hc
    obtain ⟨t, rfl, he⟩ := existing_of_conflicting hc₀ valid
    exact Reads.onward h.reads fun rows h => keeps_limitOne (List.ne_nil_of_mem (mem_lookup.mpr ⟨k, hr₀, he⟩)) h
  · rintro k _ ⟨⟩ absent -
    refine Onward.of_stable (J := fun rows => ∀ t ∈ lookup serverId req snapshot, ∃ k' t', k' ≠ k ∧
      rows k' = some (.task t') ∧
      t'.id = t.id ∧ StandsFor serverId req t.status t') (fun t ht => ?_)
        (fun rows rows' h move t ht => ?_) fun rows h => ?_
    · obtain ⟨k', t', hr, hid, hs⟩ := h.reads t ht
      exact ⟨k', t', (fun hk => by rw [hk, absent] at hr; cases hr), hr, hid, hs⟩
    · obtain ⟨k', t₁, hk, hr, hid, hs⟩ := h t ht
      obtain ⟨t', hr', same⟩ := move k' t₁ hr
      exact ⟨k', t', hk, hr', same.id.trans hid, hs.same same⟩
    · refine keeps_limitOne (List.cons_ne_nil _ _) (List.forall_mem_cons.mpr ⟨?_, fun t ht => ?_⟩)
      · exact ⟨k, _, Tx.view_of_changes Tx.changes_create, rfl, rfl, Or.inl rfl⟩
      · obtain ⟨k', t', hk, hr, hid, hs⟩ := h t ht
        exact ⟨k', t', (Tx.view_of_unchanged (Tx.changes_create_of_ne hk)).trans hr, hid, hs⟩

theorem fine_insertOrFind (valid : req.valid = true) :
    Fine (.createTask userId serverId req) (insertOrFind userId serverId req) := by
  refine ⟨fun now snapshot _ => ⟨?_, fun id => ?_⟩, fun past now snapshot _ _ => ⟨?_, ?_⟩,
    fun _ => keeps_insertOrFind valid⟩
  · rintro k _ r' ⟨⟩ hsome same
    exact conflicts_of_entry rfl rfl hsome same
  · exact limitOne_cases (P := fun prog => prog.Respects entry) (fun _ => trivial) (fun _ h => h) _
  · exact ⟨retains_empty, limitOne_cases (P := fun prog => prog.Safe spec _ _ none) (fun _ => trivial) (fun _ h => h) _⟩
  · rintro k _ ⟨⟩ -
    refine ⟨?_, retains_empty.create, limitOne_cases (P := fun prog => prog.Safe spec _ _ none) (fun _ => trivial)
      (fun _ h => h) _⟩
    rintro _ ⟨⟩
    rfl

theorem fine_createTask : Fine (.createTask userId serverId req) (createTask userId serverId req) := by
  unfold createTask
  split
  · rename_i valid
    refine .getServer fun server => ?_
    split
    · exact .answer fun _ => trivial
    · refine .ask fun allowed => ?_
      split
      · split
        · exact .expireStaleAgentUpdateTasks (fine_insertOrFind valid)
        · exact fine_insertOrFind valid
      · exact .answer fun _ => trivial
  · exact .answer fun _ => trivial

theorem fine_serve : ∀ q, Fine q (serve q)
  | .createTask .. => fine_createTask
  | .transact _ => .start fun now => fineIn_perform now

/-! ### Every run -/

/-- Tasks stored under their ids, with at most one for each server and key. -/
structure OnePerKey (rows : Uuid → Option Row) : Prop where
  id : ∀ k t, rows k = some (.task t) → t.id = k
  one : ∀ k k' t t', rows k = some (.task t) → rows k' = some (.task t') → t.serverId = t'.serverId →
    t.idempotencyKey = t'.idempotencyKey → t.idempotencyKey ≠ none → k = k'

/-- Every CreateTask with a key that has been answered was refused, or succeeded with an answer as `right` has it. -/
def Answered (right : Uuid → CreateTaskRequest → Uuid → TaskStatus → (Uuid → Option Row) → Prop)
    (s : State Request Uuid Row Empty Bool Response) : Prop :=
  ∀ i userId serverId req a tx, s.sessions i = some ⟨.createTask userId serverId req, .answered a, tx⟩ →
    req.idempotencyKey ≠ "" →
    (∃ why, a = .refused why) ∨ ∃ id status, a = .created id status ∧ right serverId req id status s.rows

/-- The task `id` is that of the server with the request's key. -/
def WithKey (serverId : Uuid) (req : CreateTaskRequest) (id : Uuid) (_ : TaskStatus)
    (rows : Uuid → Option Row) : Prop :=
  ∃ t, rows id = some (.task t) ∧ t.serverId = serverId ∧ t.idempotencyKey = some req.idempotencyKey

/-- An update of the server's agent, in flight when it was looked for. -/
def UpdateInFlight (serverId : Uuid) (req : CreateTaskRequest) (id : Uuid) (status : TaskStatus)
    (rows : Uuid → Option Row) : Prop :=
  req.type = .agentUpdate ∧ (status = .pending ∨ status = .processing) ∧
    ∃ t, rows id = some (.task t) ∧ t.serverId = serverId ∧ t.type = .agentUpdate

variable {rows₀ : Uuid → Option Row}

theorem OnePerKey.reachable (h : OnePerKey rows₀) {s : State Request Uuid Row Empty Bool Response}
    (reached : Reachable serve rows₀ s) :
    OnePerKey s.rows := by
  have safe : ∀ q, (serve q).Safe spec q [] none := fun q => (fine_serve q).safe []
  have valid : ∀ k r, rows₀ k = some r → spec.row k r := by
    rintro k _ hr t rfl
    exact h.id k t hr
  have unique : UniqueIn entry s := reached.uniqueIn (fun q => (fine_serve q).respects) safe valid
      fun k k' r r' x hr hr' hx hx' => by
    obtain ⟨serverId, key⟩ := x
    cases r with
    | server _ => cases hx
    | task t =>
      cases r' with
      | server _ => cases hx'
      | task t' =>
        obtain ⟨hs, hk⟩ := entry_task.mp hx
        obtain ⟨hs', hk'⟩ := entry_task.mp hx'
        exact h.one k k' t t' hr hr' (hs.trans hs'.symm) (hk.trans hk'.symm) (hk ▸ Option.some_ne_none key)
  refine ⟨fun k t ht => (Reachable.consistent safe valid reached).valid k _ ht t rfl,
    fun k k' t t' ht ht' hs hk hsome => ?_⟩
  obtain ⟨key, hkey⟩ := Option.ne_none_iff_exists'.mp hsome
  exact unique.one k k' _ _ (t.serverId, key) (Or.inl ht) (Or.inl ht') (entry_task.mpr ⟨rfl, hkey⟩)
    (entry_task.mpr ⟨hs.symm, hk ▸ hkey⟩)

theorem created_once (h : OnePerKey rows₀) : (∀ s, Reachable serve rows₀ s → OnePerKey s.rows) ∧
    ∀ s, ReachableBy serve Unovertaken rows₀ s → Answered (fun serverId req id status rows =>
      WithKey serverId req id status rows ∨ UpdateInFlight serverId req id status rows) s := by
  refine ⟨fun s reached => h.reachable reached, fun s reached i userId serverId req a tx hs nonempty => ?_⟩
  have promised : Promised Remain promise s :=
    reached.promised (fun q => (fine_serve q).safe []) (fun q => (fine_serve q).keeps)
    (fun _ _ _ _ retains base => Retains.apply retains base) fun k _ hr t ht => h.id k t (ht ▸ hr)
  have kept : promise (.createTask userId serverId req) a s.rows := Onward.now (promised i _ hs)
  cases a with
  | refused why => exact Or.inl ⟨why, rfl⟩
  | failed => exact kept.elim
  | done => exact kept.elim
  | created id status =>
    obtain ⟨k, t, hr, hid, hserver, ht⟩ := kept
    obtain rfl : id = k := hid.symm.trans ((h.reachable reached.reachable).id k t hr)
    refine Or.inr ⟨id, status, rfl, ht.imp (fun hkey => ⟨t, hr, hserver, ?_⟩) fun ⟨htype, hupdate, live⟩ =>
      ⟨htype, live, t, hr, hserver, hupdate⟩⟩
    rw [hkey, nullIfEmpty, if_neg nonempty]

/-! ### Two runs -/

deriving instance DecidableEq for CreateTaskRequest

/-- Session `i` serves a CreateTask of user 7 on server 1 up to the question whether the task is allowed. -/
def asking (i : Nat) (req : CreateTaskRequest) : List (Move Request Uuid Bool) :=
  .arrive i (.createTask 7 1 req) :: List.replicate 7 (.next i)

/-- For examples: session `i` has answered the request with `a`. -/
def answeredWith (i : Nat) (req : CreateTaskRequest) (a : Response)
    (s : Listed Request Uuid Row Empty Bool Response) : Bool :=
  match s.served i with
  | some (.createTask userId serverId req', a') => userId = 7 && serverId = 1 && req' = req && a' = a
  | _ => false

theorem served_of_answeredWith {i : Nat} {a : Response} {s : Listed Request Uuid Row Empty Bool Response}
    (h : answeredWith i req a s = true) : ∃ tx, s.state.sessions i = some ⟨.createTask 7 1 req, .answered a, tx⟩ := by
  unfold answeredWith at h
  split at h
  · rename_i hs
    simp only [Bool.and_eq_true, decide_eq_true_eq] at h
    obtain ⟨⟨⟨rfl, rfl⟩, rfl⟩, rfl⟩ := h
    exact Listed.sessions_of_served hs
  · cases h

/-- Server 1, and an update of its agent, pending, that nobody gave a key. -/
def updating : List (Uuid × Row) :=
  [(1, .server linuxServer), (5, .task (.inserted 0 1 .agentUpdate [] (some 7) none 300 (24 * hour) 5))]

theorem onePerKey_updating : OnePerKey fun k => updating.lookup k := by
  have only : ∀ k t, updating.lookup k = some (.task t) → k = 5 ∧
      t = .inserted 0 1 .agentUpdate [] (some 7) none 300 (24 * hour) 5 := by
    intro k t h
    simp only [updating, List.lookup_cons, List.lookup_nil] at h
    split at h
    · cases h
    · split at h
      · rename_i hk
        exact ⟨beq_iff_eq.mp hk, (Row.task.inj (Option.some.inj h)).symm⟩
      · cases h
  refine ⟨fun k t h => ?_, fun k k' t t' h h' _ _ _ => (only k t h).1.trans (only k' t' h').1.symm⟩
  obtain ⟨rfl, rfl⟩ := only k t h
  rfl

/-- A request to restart a container. -/
def restart : CreateTaskRequest := ⟨.dockerRestart, [("container", "web")], "restart-web", 60⟩

/-- The request, and its repetition. -/
def repeated : List (Move Request Uuid Bool) :=
  asking 0 restart ++ [.reply 0 true, .next 0, .next 0, .insert 0 6, .next 0, .next 0] ++ asking 1 restart ++
    [.reply 1 true, .next 1, .next 1, .next 1, .next 1, .next 1]

theorem created_once_updating : (∀ s, Reachable serve (fun k => updating.lookup k) s → OnePerKey s.rows) ∧
    ∃ s, ReachableBy serve Unovertaken (fun k => updating.lookup k) s ∧
      (∃ tx, s.sessions 1 = some ⟨.createTask 7 1 restart, .answered (.created 6 .pending), tx⟩) ∧
      WithKey 1 restart 6 .pending s.rows := by
  refine ⟨(created_once onePerKey_updating).1, ?_⟩
  have valid : ∀ k r, updating.lookup k = some r → spec.row k r :=
    fun k _ hr t ht => onePerKey_updating.id k t (ht ▸ hr)
  obtain ⟨s, reached, hs⟩ := Listed.reachableBy_of_check serve 0 updating repeated Unovertaken Listed.unovertaken
    (fun s s' reachable step _ ok => Listed.unovertaken_of_check (fun k hk =>
      ((reachable.consistent (fun q => (fine_serve q).safe []) valid).step (fun q =>
        (fine_serve q).safe []) step).used hk) ok)
    (answeredWith 1 restart (.created 6 .pending)) (by decide +kernel)
  obtain ⟨tx, answered⟩ := served_of_answeredWith hs
  refine ⟨s.state, reached, ⟨tx, answered⟩, ?_⟩
  rcases (created_once onePerKey_updating).2 s.state reached 1 7 1 restart _ tx answered (by decide) with ⟨why, h⟩ |
    ⟨id, status, h, right⟩
  · cases h
  · obtain ⟨rfl, rfl⟩ := Response.created.inj h
    exact right.resolve_right fun other => by cases other.1

/-- The condition is needed: a request overtaken by its repetition between snapshot and insert finds neither task. -/
theorem fails_when_overtaken : ∃ s, Reachable serve (fun k => updating.lookup k) s ∧
    ∃ tx, s.sessions 0 = some ⟨.createTask 7 1 restart, .answered .failed, tx⟩ := by
  obtain ⟨s, reached, hs⟩ := Listed.reachable_of_check serve 0 updating
    (asking 0 restart ++ [.reply 0 true, .next 0, .next 0] ++ asking 1 restart ++
      [.reply 1 true, .next 1, .next 1, .insert 1 6, .next 1, .next 1] ++ List.replicate 3 (.next 0))
    (answeredWith 0 restart .failed) (by decide +kernel)
  exact ⟨s.state, reached, served_of_answeredWith hs⟩

/-- A request to update the agent. -/
def update : CreateTaskRequest := ⟨.agentUpdate, [], "update-web", 300⟩

/-- The first request with its key is answered with the update in flight, which has no key. -/
theorem update_answered_without_key : ¬∀ rows₀, OnePerKey rows₀ → ∀ s, Reachable serve rows₀ s → OnePerKey s.rows ∧
    Answered WithKey s := by
  intro claim
  obtain ⟨s, reached, hs⟩ := Listed.reachable_of_check serve 0 updating
    (asking 0 update ++ [.reply 0 true, .reply 0 true, .reply 0 true] ++ List.replicate 5 (.next 0))
    (fun s => answeredWith 0 update (.created 5 .pending) s &&
      ((s.rows 5).bind Row.task?).any fun t => t.idempotencyKey = none) (by decide +kernel)
  obtain ⟨hs, keyless⟩ := Bool.and_eq_true_iff.mp hs
  obtain ⟨tx, answered⟩ := served_of_answeredWith hs
  rcases (claim _ onePerKey_updating s.state reached).2 0 7 1 update _ tx answered (by decide) with ⟨why, h⟩ |
    ⟨id, status, h, t, ht, -, hkey⟩
  · cases h
  · obtain ⟨rfl, -⟩ := Response.created.inj h
    have ht : s.rows 5 = some (.task t) := ht
    rw [ht] at keyless
    simp [Row.task?, hkey] at keyless

end TaskCreation
end DatrixOps
