import DatrixOps.Postgres.Schedule
import DatrixOps.Theorems.TaskLifecycle

/-! Gates before the queue of a server: a column of its row that keeps tasks of a kind from its agent. The request that
    shuts a gate marks the row and then expires the tasks of that kind which its snapshot shows. Nothing but an insert
    makes a task pending, so the gate is kept in every run in which none is queued for a server whose gate is, or in an
    open request is being, shut. -/

namespace DatrixOps
open Postgres Prog Lifecycle

/-- The servers that a gate is shut for, the tasks that it bars, the requests that shut it, and the task that such a
    request queues itself. -/
structure Gate where
  shut : Server → Bool
  bars : ServerTask → Bool
  shuts : Uuid → Request → Bool
  own : Commit Request Uuid Row Dispatch → ServerTask → Prop
  bars_eq : ∀ {t t'}, t'.type = t.type → t'.payload = t.payload → bars t' = bars t
  own_eq : ∀ {e t t'}, t'.id = t.id → t'.type = t.type → own e t → own e t'

/-- `e` inserts the task `t`. -/
def Inserts (e : Commit Request Uuid Row Dispatch) (t : ServerTask) : Prop :=
  ∃ k c, e.tx.changes k = some c ∧ c.base = none ∧ c.new = some (.task t)

namespace Gate

/-- The version of a row is a server that the gate is shut for. -/
def shutIn (G : Gate) (version : Option Row) : Bool := (version.bind Row.server?).any G.shut

/-- The request that shut the gate of server `k` and since whose commit it has been shut. -/
def shutBy (G : Gate) (k : Uuid) : List (Commit Request Uuid Row Dispatch) → Option (Commit Request Uuid Row Dispatch)
  | [] => none
  | e :: log => match e.tx.changes k with
    | none => G.shutBy k log
    | some c =>
      if G.shutIn c.new then if G.shuts k e.request then some e else G.shutBy k log
      else none

/-- While a gate is shut no task that it bars is handed out, but the one of the request that shut it. -/
def Kept (G : Gate) (log : List (Commit Request Uuid Row Dispatch)) : Prop :=
  ∀ later e earlier, log = later ++ e :: earlier → ∀ d ∈ e.tx.events, G.bars d.task = true → ∀ e₀,
    G.shutBy d.task.serverId earlier = some e₀ → G.own e₀ d.task

/-- No barred task is queued for a server whose gate is shut, or that the open transaction of another session shuts. -/
def Clear (G : Gate) (s s' : State Request Uuid Row Dispatch Bool Response) : Prop :=
  ∀ e, s'.log = e :: s.log → ∀ t, Inserts e t → G.bars t = true → G.shutIn (s.rows t.serverId) = false ∧
    ∀ j tx, j ≠ e.session → s.Open j tx → G.shutIn (tx.view t.serverId (s.rows t.serverId)) = false

end Gate

/-! ### Payloads stay -/

/-- Every task that a transaction leaves is new, or has the payload it had. -/
def KeepsPayload (tx : Tx Uuid Row Dispatch) : Prop :=
  ∀ k c t', tx.changes k = some c → c.new = some (.task t') → c.base = none ∨ ∃ t, c.base = some (.task t) ∧
    t'.payload = t.payload

/-- Commits keep the payloads of the tasks that are there. -/
def payloads : Spec Request Uuid Row Dispatch Response where
  row _ _ := True
  commit _ _ tx := KeepsPayload tx
  answer _ _ _ := True

section Payloads
variable {p : Platform} {q : Request} {past : List (Tx Uuid Row Dispatch)} {tx : Tx Uuid Row Dispatch} {k : Uuid}
  {t : ServerTask}

theorem KeepsPayload.empty {now : Time} : KeepsPayload (.empty now) := fun _ _ _ h => by cases h

theorem KeepsPayload.write {base new : Option Row} {r : Row} (h : KeepsPayload tx) (hv : tx.view k base = some r)
    (hn : ∀ t', new = some (.task t') → ∃ t, r = .task t ∧ t'.payload = t.payload) :
      KeepsPayload (tx.write k base new) := by
  intro k' c t' hc ht'
  by_cases hk : k' = k
  · subst hk
    rw [Tx.changes_write] at hc
    obtain rfl := Option.some.inj hc
    cases hold : tx.changes k' with
    | none =>
      rw [hold] at ht'
      obtain ⟨t, rfl, same⟩ := hn t' ht'
      exact Or.inr ⟨t, (Tx.view_of_unchanged hold).symm.trans hv, same⟩
    | some c₀ =>
      rw [hold] at ht'
      obtain ⟨t, rfl, same⟩ := hn t' ht'
      rcases h k' c₀ t hold ((Tx.view_of_changes hold).symm.trans hv) with hb | ⟨t₀, hb, same₀⟩
      · exact Or.inl hb
      · exact Or.inr ⟨t₀, hb, same.trans same₀⟩
  · rw [Tx.changes_write_of_ne hk] at hc
    exact h k' c t' hc ht'

theorem KeepsPayload.create {r : Row} (h : KeepsPayload tx) : KeepsPayload (tx.create k r) := by
  intro k' c t' hc ht'
  by_cases hk : k' = k
  · subst hk
    rw [Tx.changes_create] at hc
    obtain rfl := Option.some.inj hc
    exact Or.inl rfl
  · rw [Tx.changes_create_of_ne hk] at hc
    exact h k' c t' hc ht'

theorem keepingPayloads : Keeping payloads q KeepsPayload where
  rowTask _ _ _ _ _ := trivial
  rowServer _ _ _ _ _ := trivial
  rowQueued _ _ _ := trivial
  empty _ := .empty
  task _ _ _ t _ hJ hv h := hJ.write hv fun _ hn => ⟨t, rfl, by cases hn; exact h.payload⟩
  server _ _ _ _ _ hJ hv _ _ := hJ.write hv fun _ hn => by cases hn
  delete _ _ _ _ hJ hv := hJ.write hv fun _ hn => by cases hn
  commit _ _ hJ := hJ
  queued _ _ _ _ hJ _ := hJ.create
  answer _ _ _ := trivial

/-- A statement that may end tasks out of turn keeps their payloads. -/
theorem payloads_tasks {u : List (Uuid × Row) → Update ServerTask} {next : List (Uuid × ServerTask) → Handler}
    (hu : ∀ snapshot t, ((u snapshot).set t).payload = t.payload) (hJ : KeepsPayload tx)
    (done : ∀ found tx, KeepsPayload tx → (next found).Safe payloads q past (some tx)) :
    (update serverTasks u next).Safe payloads q past (some tx) :=
  safe_update (J := fun _ => KeepsPayload) hJ (fun snapshot _ _ _ _ t hJ _ hv _ _ =>
    ⟨trivial, hJ.write hv fun _ hn => ⟨t, rfl, by cases hn; exact hu snapshot t⟩⟩) done

theorem payloads_servers {u : List (Uuid × Row) → Update Server} {next : List (Uuid × Server) → Handler}
    (hJ : KeepsPayload tx)
    (done : ∀ found tx, KeepsPayload tx → (next found).Safe payloads q past (some tx)) :
    (update servers u next).Safe payloads q past (some tx) :=
  safe_update (J := fun _ => KeepsPayload) hJ (fun _ _ _ _ _ _ hJ _ hv _ _ =>
    ⟨trivial, hJ.write hv fun _ hn => by cases hn⟩) done

theorem payloads_claimTasks {server : Server} : Sound payloads q (claimTasks server) := by
  intro past now
  refine safe_selectForUpdate (J := fun _ => KeepsPayload) .empty
    (fun _ _ _ _ t hJ _ hv _ _ => hJ.write hv fun _ hn => ⟨t, rfl, by cases hn; rfl⟩) fun claimed tx hJ => ?_
  exact payloads_tasks (fun _ _ => rfl) hJ fun _ _ hJ => ⟨hJ, trivial⟩

theorem payloads_confirmUninstall {req : ConfirmUninstallRequest} : Sound payloads q (confirmUninstall p req) := by
  intro past now snapshot sees _
  have lockedServer : ∀ {tx : Tx Uuid Row Dispatch} {k base} {s : Server}, KeepsPayload tx →
    tx.view k base = some (.server s) →
      KeepsPayload (tx.write k base (some (.server s))) := fun hJ hv => hJ.write hv fun _ hn => by cases hn
  have lockedTask : ∀ {tx : Tx Uuid Row Dispatch} {k base} {t : ServerTask}, KeepsPayload tx →
    tx.view k base = some (.task t) →
      KeepsPayload (tx.write k base (some (.task t))) :=
        fun {_ _ _ t} hJ hv => hJ.write hv fun _ hn => ⟨t, rfl, by cases hn; rfl⟩
  refine safe_on (J := fun _ => KeepsPayload) (nodup_matching sees.nodup) .empty
    (fun _ _ _ _ _ hJ _ hv _ _ => ⟨fun _ _ => trivial, lockedServer hJ hv⟩) fun found tx hJ =>
    safe_on (J := fun _ => KeepsPayload) (nodup_matching sees.nodup) hJ
      (fun _ _ _ _ _ hJ _ hv _ _ => ⟨fun _ _ => trivial, lockedTask hJ hv⟩) fun found' tx hJ => ?_
  split
  · exact keepingPayloads.refused _
  · cases req.status with
    | completed => exact keepingPayloads.deleteServers hJ fun _ hJ => ⟨hJ, trivial⟩
    | failed =>
      exact payloads_servers hJ fun _ _ hJ => payloads_tasks (fun _ _ => rfl) hJ fun _ _ hJ => ⟨hJ, trivial⟩

theorem payloads_requestAgentUninstall {id userId : Uuid} {payload : Jsonb} {hash : String} :
    Sound payloads q (requestAgentUninstall p id userId payload hash) := by
  intro past now
  refine keepingPayloads.lockServers .empty fun found tx hJ => ?_
  cases found with
  | nil => exact keepingPayloads.refused _
  | cons ks _ =>
    dsimp only
    split
    · exact keepingPayloads.refused _
    · exact payloads_servers hJ fun _ _ hJ => payloads_tasks (fun _ _ => rfl) hJ fun _ _ hJ =>
        ⟨trivial, fun k _ _ _ => ⟨trivial, hJ.create, trivial⟩⟩

theorem payloads_serve : ∀ q, (serve p q).Safe payloads q [] none
  | .heartbeat _ _ => keepingPayloads.heartbeat (fun _ _ => payloads_claimTasks) []
  | .reportTaskResult _ _ _ _ => keepingPayloads.reportTaskResult []
  | .confirmUninstall _ => payloads_confirmUninstall []
  | .listServers _ => keepingPayloads.expireStale keepingPayloads.accepted []
  | .cancelTask _ _ _ => keepingPayloads.cancelTask []
  | .createTask _ _ _ => keepingPayloads.createTask []
  | .updateAllAgents _ _ => keepingPayloads.updateAllAgents []
  | .setAgentAutoUpdate _ _ _ => keepingPayloads.setAgentAutoUpdate []
  | .requestAgentUninstall _ _ _ _ => payloads_requestAgentUninstall []
  | .removeServers _ => keepingPayloads.removeServers []
  | .editServers _ _ => fun _ => payloads_servers .empty fun _ _ hJ => ⟨hJ, trivial⟩

end Payloads

/-! ### What is kept while a gate is shut -/

namespace Gate

/-- While a gate is shut no barred task waits but the request's own. -/
structure Shut (G : Gate) (w : World Request Uuid Row Dispatch) : Prop where
  kept : G.Kept w.log
  shut : ∀ k e₀, G.shutBy k w.log = some e₀ → G.shutIn (w.rows k) = true
  queue : ∀ k e₀, G.shutBy k w.log = some e₀ → ∀ k' t, w.rows k' = some (.task t) → t.serverId = k →
    t.status = .pending →
    G.bars t = true → G.own e₀ t

/-- Guarded commits that keep payloads. -/
def gated (p : Platform) : Spec Request Uuid Row Dispatch Response := (spec p).both payloads

/-- The contract of the calls: while a gate is shut no barred task is inserted for its server. -/
def contract (G : Gate) (p : Platform) : Contract Request Uuid Row Dispatch Bool Response where
  spec := gated p
  inv := G.Shut
  admits w e := ∀ t, Inserts e t → G.bars t = true → G.shutIn (w.rows t.serverId) = false
  rely tx w e := ∀ mine, tx = some mine → ∀ t, Inserts e t → G.bars t = true →
    G.shutIn (mine.view t.serverId (w.rows t.serverId)) = false
  reply _ _ := True
  answer _ _ _ _ := True

variable {G : Gate} {p : Platform} {q : Request} {i : Nat} {id k : Uuid} {t t' : ServerTask} {tx : Tx Uuid Row Dispatch}
  {w w' : World Request Uuid Row Dispatch} {e : Commit Request Uuid Row Dispatch} {past : List (Tx Uuid Row Dispatch)}
  {log : List (Commit Request Uuid Row Dispatch)}

theorem gated_serve (q : Request) : (serve p q).Safe (gated p) q [] none := (fine_serve q).both (payloads_serve q)

/-- A commit leaves a task pending that was so before, or that it inserts. -/
theorem pending_before (ok : (gated p).commit e.request past e.tx)
    (base : ∀ k c, e.tx.changes k = some c → c.base = w.rows k)
    (hr : (w.commit e).rows k = some (.task t)) (pending : t.status = .pending) :
    Inserts e t ∨ ∃ t₀, w.rows k = some (.task t₀) ∧ t.id = t₀.id ∧ t.serverId = t₀.serverId ∧ t.type = t₀.type ∧
      t.payload = t₀.payload ∧ t₀.status = .pending := by
  cases hc : e.tx.changes k with
  | none => exact Or.inr ⟨t, (World.rows_commit_of_unchanged hc).symm.trans hr, rfl, rfl, rfl, rfl, pending⟩
  | some c =>
    have hn : c.new = some (.task t) := (World.rows_commit_of_changes hc).symm.trans hr
    rcases ok.1.lawful k c hc t (by rw [hn]; rfl) with ⟨hb, -, -⟩ | ⟨t₀, hb, follows⟩
    · exact Or.inl ⟨k, c, hc, hb, hn⟩
    · obtain ⟨r, hr₀, ht₀⟩ := Option.bind_eq_some_iff.mp hb
      obtain rfl := serverTasks.put_get r t₀ ht₀
      refine Or.inr ⟨t₀, (base k c hc).symm.trans hr₀, follows.id, follows.serverId, follows.type, ?_, ?_⟩
      · rcases ok.2 k c t hc hn with none_ | ⟨t₁, hb₁, same⟩
        · cases none_.symm.trans hr₀
        · cases hb₁.symm.trans hr₀
          exact same
      · by_contra no
        exact follows.not_pending no pending

/-- What `shutBy` reads of the newest commit. -/
theorem shutBy_cons {e₀ : Commit Request Uuid Row Dispatch} (h : G.shutBy k (e :: log) = some e₀) :
    (e.tx.changes k = none ∧ G.shutBy k log = some e₀) ∨ ∃ c, e.tx.changes k = some c ∧ G.shutIn c.new = true ∧
      ((G.shuts k e.request = true ∧ e₀ = e) ∨ G.shutBy k log = some e₀) := by
  unfold shutBy at h
  split at h
  · exact Or.inl ⟨‹_›, h⟩
  · rename_i c hc
    split at h
    · rename_i shut
      split at h
      · exact Or.inr ⟨c, hc, shut, Or.inl ⟨‹_›, (Option.some.inj h).symm⟩⟩
      · exact Or.inr ⟨c, hc, shut, Or.inr h⟩
    · cases h

/-- A gate stays shut until a commit opens it. -/
theorem shutBy_append (h : G.shutBy k log ≠ none) : ∀ more : List (Commit Request Uuid Row Dispatch),
    (∀ e ∈ more, ∀ c, e.tx.changes k = some c → G.shutIn c.new = true) → G.shutBy k (more ++ log) ≠ none
  | [], _ => h
  | e :: more, stays => by
    have before := shutBy_append h more fun e he => stays e (List.mem_cons_of_mem _ he)
    rw [List.cons_append, shutBy]
    split
    · exact before
    · rename_i c hc
      rw [if_pos (stays e (List.mem_cons_self ..) c hc)]
      split
      · exact Option.some_ne_none e
      · exact before

/-- A commit keeps the invariant if it sweeps the queue of the server whose gate it shuts. -/
theorem Shut.commit (h : G.Shut w) (base : ∀ k c, e.tx.changes k = some c → c.base = w.rows k)
    (ok : (gated p).commit e.request past e.tx) (admitted : (G.contract p).admits w e)
    (sweeps : ∀ k c, G.shuts k e.request = true → e.tx.changes k = some c → G.shutIn c.new = true → ∀ k' t,
      (w.commit e).rows k' = some (.task t) → t.serverId = k → t.status = .pending → G.bars t = true → G.own e t) :
    G.Shut (w.commit e) := by
  constructor
  · intro later e' earlier hlog d hd barred e₀ on
    cases later with
    | nil =>
      obtain ⟨rfl, rfl⟩ := List.cons.inj hlog
      obtain ⟨-, t, hc, claimed, heq⟩ := ok.1.due d hd
      have pending := (claimable_iff.mp claimed).2.1
      rw [heq] at on barred ⊢
      have same : G.bars (started e.tx.start t) = G.bars t := G.bars_eq rfl rfl
      have waited : G.own e₀ t := h.queue t.serverId e₀ on t.id t (base _ _ hc).symm rfl pending (same ▸ barred)
      exact G.own_eq (t := t) rfl rfl waited
    | cons x later =>
      obtain ⟨-, hlog⟩ := List.cons.inj hlog
      exact h.kept later e' earlier hlog d hd barred e₀ on
  · intro k e₀ on
    rcases shutBy_cons on with ⟨hc, on⟩ | ⟨c, hc, shut, -⟩
    · rw [World.rows_commit_of_unchanged hc]
      exact h.shut k e₀ on
    · rw [World.rows_commit_of_changes hc]
      exact shut
  · intro k e₀ on k' t hr hid pending barred
    -- the gate was shut before, so nothing is queued beside the request's own task
    have before : G.shutBy k w.log = some e₀ → G.own e₀ t := by
      intro on
      rcases pending_before ok base hr pending with inserts | ⟨t₀, hr₀, hid₀, hserver, htype, hpayload, pending₀⟩
      · have shut := h.shut k e₀ on
        rw [← hid, admitted t inserts barred] at shut
        cases shut
      · refine G.own_eq hid₀ htype (h.queue k e₀ on k' t₀ hr₀ (hserver.symm.trans hid) pending₀ ?_)
        exact (G.bars_eq htype hpayload).symm.trans barred
    rcases shutBy_cons on with ⟨-, on⟩ | ⟨c, hc, shut, ⟨shuts, rfl⟩ | on⟩
    · exact before on
    · exact sweeps k c shuts hc shut k' t hr hid pending barred
    · exact before on

/-! ### The sweep -/

/-- The version is a barred task of server `id` that waits. -/
def Waits (G : Gate) (id : Uuid) (r : Row) : Prop := ∃ t, r = .task t ∧ t.serverId = id ∧ t.status = .pending ∧
    G.bars t = true

/-- No change of the transaction leaves a barred task of server `id` waiting. -/
def Swept (G : Gate) (id : Uuid) (tx : Tx Uuid Row Dispatch) : Prop :=
  ∀ k c r, tx.changes k = some c → c.new = some r → ¬G.Waits id r

/-- The transaction shuts the gate of server `id`. -/
def Marked (G : Gate) (id : Uuid) (tx : Tx Uuid Row Dispatch) : Prop :=
  ∃ c, tx.changes id = some c ∧ G.shutIn c.new = true

theorem Swept.write {base new : Option Row} (h : G.Swept id tx) (hn : ∀ r, new = some r → ¬G.Waits id r) :
    G.Swept id (tx.write k base new) := by
  intro k' c r hc hr
  by_cases hk : k' = k
  · subst hk
    rw [Tx.changes_write] at hc
    obtain rfl := Option.some.inj hc
    refine hn r ?_
    cases hold : tx.changes k' <;> rwa [hold] at hr
  · rw [Tx.changes_write_of_ne hk] at hc
    exact h k' c r hc hr

theorem not_waits_server {s : Server} : ¬G.Waits id (.server s) := by
  rintro ⟨t, h, -⟩
  cases h

/-- A change of a task does not mark a server. -/
theorem Marked.of_write {base : Option Row} (h : G.Marked id (tx.write k base (some (.task t)))) : G.Marked id tx := by
  obtain ⟨c, hc, shut⟩ := h
  by_cases hk : id = k
  · subst hk
    rw [Tx.changes_write] at hc
    obtain rfl := Option.some.inj hc
    cases hold : tx.changes id <;> rw [hold] at shut <;> cases shut
  · rw [Tx.changes_write_of_ne hk] at hc
    exact ⟨c, hc, shut⟩

theorem Marked.of_create (h : G.Marked id (tx.create k (.task t))) : G.Marked id tx := by
  obtain ⟨c, hc, shut⟩ := h
  by_cases hk : id = k
  · subst hk
    rw [Tx.changes_create] at hc
    cases hc
    cases shut
  · rw [Tx.changes_create_of_ne hk] at hc
    exact ⟨c, hc, shut⟩

/-- While the server is marked, nobody queues a barred task for it. -/
theorem remaining_others {tx' : Tx Uuid Row Dispatch} {ks : List Uuid} (h : Remaining (G.Waits id) ks tx w)
    (marked : G.Marked id tx')
    (move : (G.contract p).Moves i (some tx') w w') : Remaining (G.Waits id) ks tx w' := by
  refine h.move fun k r' hr' => ?_
  rintro ⟨t, rfl, hid, pending, barred⟩
  cases move with
  | commit e other apart base ok admitted known good =>
    rcases pending_before ok base hr' pending with inserts | ⟨t₀, hr, -, hserver, htype, hpayload, pending₀⟩
    · obtain ⟨c, hc, shut⟩ := marked
      have clear : G.shutIn (tx'.view t.serverId (w.rows t.serverId)) = false := known tx' rfl t inserts barred
      rw [hid, Tx.view_of_changes hc, shut] at clear
      cases clear
    · exact ⟨_, hr, t₀, rfl, hserver.symm.trans hid, pending₀, (G.bars_eq htype hpayload).symm.trans barred⟩

/-- Where the request stands in its sweep of the server's queue. -/
def Sweeping (G : Gate) (id : Uuid) (ks : List Uuid) (tx : Tx Uuid Row Dispatch)
    (w : World Request Uuid Row Dispatch) : Prop :=
  G.Swept id tx ∧ (G.Marked id tx → Remaining (G.Waits id) ks tx w)

theorem Sweeping.move {ks : List Uuid} (h : G.Sweeping id ks tx w) (move : (G.contract p).Moves i (some tx) w w') :
    G.Sweeping id ks tx w' := ⟨h.1, fun marked => remaining_others (h.2 marked) marked move⟩

theorem always {φ : World Request Uuid Row Dispatch → Prop} {tx : Option (Tx Uuid Row Dispatch)}
    (good : (G.contract p).Good w)
    (out : ∀ w, (G.contract p).Good w → φ w) : (G.contract p).Always i tx φ w :=
  Contract.always good (J := fun _ => True) trivial (fun _ _ _ _ _ => trivial) fun w good _ => out w good

theorem answered {a : Response} {tx : Option (Tx Uuid Row Dispatch)} :
    (Prog.answer a : Handler).Holds (G.contract p) i q tx w :=
  fun _ _ _ _ => trivial

theorem rolledBack {a : Response} : (Prog.rollback (.answer a) : Handler).Holds (G.contract p) i q (some tx) w :=
  fun _ _ => answered

/-- A statement on servers leaves no task waiting. -/
theorem holds_servers (id : Uuid) {which : Server → Bool} {set : Server → Option Server}
    {next : List (Uuid × Row) → Handler} {ks : List Uuid}
    {found : List (Uuid × Row)} (good : (G.contract p).Good w) (swept : G.Swept id tx)
    (done : ∀ found tx w, (G.contract p).Good w → G.Swept id tx → (next found).Holds (G.contract p) i q (some tx) w) :
    (visit false none (on servers which set) ks found next).Holds (G.contract p) i q (some tx) w := by
  refine holds_visit (J := fun _ _ tx _ => G.Swept id tx) (fun _ _ _ _ _ _ h _ => h) (fun _ _ _ _ _ h _ => h)
    (fun k ks _ tx w row new _ h _ _ hf => h.write fun r hr => ?_) (fun _ found tx w good h _ =>
      done found tx w good h) _ _ _ _ good swept
  obtain ⟨s, rfl, -, rfl⟩ := on_eq_some hf
  obtain ⟨s', -, rfl⟩ := Option.map_eq_some_iff.mp hr
  exact not_waits_server

/-- The sweep: every barred task that waits is in its snapshot. -/
theorem holds_sweep {u : Update ServerTask} {next : List (Uuid × ServerTask) → Handler}
    (all : ∀ t, u.where_ t = true ↔ t.serverId = id ∧ t.status = .pending ∧ G.bars t = true)
    (ends : ∀ t, (u.set t).status ≠ .pending)
    (good : (G.contract p).Good w) (h : G.Swept id tx)
    (done : ∀ found tx w, (G.contract p).Good w → G.Sweeping id [] tx w →
      (next found).Holds (G.contract p) i q (some tx) w) :
    (update serverTasks (fun _ => u) next).Holds (G.contract p) i q (some tx) w := by
  refine always good fun w good snapshot seen _ => ?_
  refine holds_visit (J := fun ks _ tx w => G.Sweeping id ks tx w) (fun ks _ tx w w' _ h move => h.move move)
    (fun k ks _ tx w h no => ?_) (fun k ks _ tx w row new _ h _ _ hf => ?_)
      (fun ks found tx w good h ended => ?_) _ _ _ _ good
    ⟨h, fun _ => ?_⟩
  · refine ⟨h.1, fun marked => (h.2 marked).pass (no.resolve_left (by simp)) ?_⟩
    rintro r ⟨t, rfl, hw⟩
    simp [on, serverTasks, Row.task?, (all t).mpr hw]
  · obtain ⟨t, rfl, -, rfl⟩ := on_eq_some hf
    have ended : ∀ r, some (serverTasks.put (u.set t)) = some r → ¬G.Waits id r := by
      rintro r ⟨⟩ ⟨_, ⟨⟩, -, pending, -⟩
      exact ends t pending
    exact ⟨h.1.write ended, fun marked => (h.2 marked.of_write).hit ended⟩
  · rcases ended with rfl | ended
    · exact done _ tx w good h
    · cases ended
  · refine .of_snapshot seen fun r waits => ?_
    obtain ⟨t, hr, hw⟩ := waits
    exact ⟨t, hr, (all t).mpr hw⟩

/-- Once the sweep is committed no barred task waits in the rows it may have met. -/
theorem not_waits (swept : G.Swept id tx) (remaining : Remaining (G.Waits id) [] tx w) {r : Row}
    (same : e.tx.changes k = tx.changes k) (hr : (w.commit e).rows k = some r) : ¬G.Waits id r := by
  intro waits
  cases hc : e.tx.changes k with
  | none =>
    rw [World.rows_commit_of_unchanged hc] at hr
    rcases remaining k r hr waits with hmem | ⟨c, hc', -⟩
    · cases hmem
    · cases hc.symm.trans (same.trans hc')
  | some c =>
    rw [World.rows_commit_of_changes hc] at hr
    exact swept k c r (same.symm.trans hc) hr waits

/-! ### Runs -/

/-- The requests that shut no gate sweep nothing: they keep the invariant by what they commit alone. -/
theorem holds_other (other : ∀ k, G.shuts k q = false) (good : (G.contract p).Good w) (new : w.past i = []) :
    (serve p q).Holds (G.contract p) i q none w := by
  refine Safe.holds rfl (fun w tx good base ok _ _ admitted => ?_) (fun _ _ => trivial) good new (gated_serve q)
  refine good.2.commit base ok admitted fun k _ shuts => ?_
  cases (other k).symm.trans shuts

/-- A gate whose requests sweep is kept in every run in which no barred task is queued past it. -/
theorem kept {rows₀ : Uuid → Option Row} {s : State Request Uuid Row Dispatch Bool Response}
    (sweeps : ∀ i q k w, G.shuts k q = true → (G.contract p).Good w → (serve p q).Holds (G.contract p) i q none w)
    (valid : ∀ k r, rows₀ k = some r → (spec p).row k r) (h : ReachableBy (serve p) G.Clear rows₀ s) :
      G.Kept s.log := by
  have start : G.Shut ⟨rows₀, []⟩ := by
    refine ⟨fun later e earlier hlog => ?_, fun k e₀ on => ?_, fun k e₀ on => ?_⟩
    · cases later <;> cases hlog
    · cases on
    · cases on
  have holds : ∀ i q w, (G.contract p).Good w → w.past i = [] → (serve p q).Holds (G.contract p) i q none w := by
    intro i q w good new
    by_cases shuts : ∃ k, G.shuts k q = true
    · obtain ⟨k, shuts⟩ := shuts
      exact sweeps i q k w shuts good
    · exact holds_other (fun k => Bool.eq_false_iff.mpr fun hk => shuts ⟨k, hk⟩) good new
  have upheld := h.upheld (C := G.contract p) gated_serve holds (fun _ _ _ _ _ _ _ _ => trivial)
    (fun s i q next tx _ _ _ clear => ?_) (fun k r hr => ⟨valid k r hr, trivial⟩) start
  · exact upheld.2.inv.kept
  · refine ⟨fun t inserts barred => (clear _ rfl t inserts barred).1,
      fun j session hj hs mine hmine t inserts barred => ?_⟩
    exact (clear _ rfl t inserts barred).2 j mine hj ⟨session, hs, hmine⟩

/-- For examples: a barred task that the last commit inserted was for a server whose gate nobody was shutting. -/
def clear (G : Gate) (s s' : Listed Request Uuid Row Dispatch Bool Response) : Bool :=
  s'.log.length = s.log.length || s'.log.head?.all fun e => s'.keys.all fun k =>
    (e.tx.changes k).all fun c => c.base.isSome || ((c.new.bind Row.task?).all fun t =>
      !G.bars t || (!G.shutIn (s.rows t.serverId) &&
      (s.others e.session).all fun tx => !G.shutIn (tx.view t.serverId (s.rows t.serverId))))

theorem clear_of_check {rows₀ : Uuid → Option Row} (valid : ∀ k r, rows₀ k = some r → (spec p).row k r)
    {s s' : Listed Request Uuid Row Dispatch Bool Response} (h : Reachable (serve p) rows₀ s.state)
    (step : Step (serve p) s.state s'.state) (ok : G.clear s s' = true) : G.Clear s.state s'.state := by
  rintro e hlog t ⟨k, c, hc, hb, hn⟩ barred
  have hlog : s'.log = e :: s.log := hlog
  have consistent := (h.consistent fine_serve valid).step fine_serve step
  have hk : k ∈ s'.keys := consistent.usedLog e (by rw [show s'.state.log = e :: s.log from hlog]; simp) k c hc
  simp only [clear, hlog, List.length_cons, List.head?_cons, Option.all_some, Bool.or_eq_true, decide_eq_true_eq,
    Nat.succ_ne_self, false_or, List.all_eq_true] at ok
  have known := ok k hk
  simp only [hc, hb, hn, barred, Option.all_some, Option.isSome_none, Bool.false_or, Option.bind_some, Row.task?,
    Bool.not_true,
    Bool.and_eq_true, Bool.not_eq_true', List.all_eq_true] at known
  exact ⟨known.1, fun j tx hj ho => known.2 tx (Listed.mem_others.mpr ⟨j, hj, ho⟩)⟩

end Gate
end DatrixOps
