import DatrixOps.Postgres.Schedule
import DatrixOps.Theorems.HandlerRules

/-! The one-time token of an uninstall. It stands on the server's row from the request that drew it until a
    commit clears it or removes the row, and a confirmation that is accepted does one or the other: so the
    token found is that of the last request, and none is accepted twice. -/

namespace DatrixOps
namespace Confirmation
open Postgres Prog

/-- Edits leave the token of an uninstall alone: no other handler writes its columns. -/
def KeepsToken : Request → Prop
  | .editServers _ edit => ∀ s, (edit s).uninstallTokenHash = s.uninstallTokenHash ∧
      (edit s).uninstallTokenExpiresAt = s.uninstallTokenExpiresAt
  | _ => True

/-- The requests that keep the token. -/
abbrev Call := { q : Request // KeepsToken q }

/-- Their handlers. -/
def answerCall (p : Platform) (q : Call) : Handler := serve p q.1

/-! ### What a commit may do to a server -/

/-- A server whose token is left as it is, cleared, or drawn by a request for its uninstall. -/
def Passes (q : Request) (now : Time) (s s' : Server) : Prop :=
  s'.id = s.id ∧ ((s'.uninstallTokenHash = s.uninstallTokenHash ∧
    s'.uninstallTokenExpiresAt = s.uninstallTokenExpiresAt) ∨
    s'.uninstallTokenHash = none ∨ ∃ userId payload hash, q = .requestAgentUninstall s.id userId payload hash ∧
      s'.uninstallTokenHash = some hash ∧ s'.uninstallTokenExpiresAt = some (now + 15 * minute))

/-- The servers that a transaction leaves were there before. -/
def Tame (q : Request) (tx : Tx Uuid Row Dispatch) : Prop :=
  ∀ k c s', tx.changes k = some c → c.new = some (.server s') → ∃ s, c.base = some (.server s) ∧ s.id = k ∧
    Passes q tx.start s s'

/-- A request for an uninstall gives its server the token drawn. -/
def Marks (tx : Tx Uuid Row Dispatch) (id : Uuid) (hash : String) : Prop :=
  ∃ c s', tx.changes id = some c ∧ c.new = some (.server s') ∧ s'.uninstallTokenHash = some hash ∧
    s'.uninstallTokenExpiresAt = some (tx.start + 15 * minute)

/-- A confirmation changes the server that it names, which has the token presented, and takes the token. -/
structure Confirms (p : Platform) (req : ConfirmUninstallRequest) (tx : Tx Uuid Row Dispatch) : Prop where
  server : ∃ s c, tx.changes req.serverId = some c ∧ c.base = some (.server s) ∧
    confirmableServer tx.start req (p.sha256Hex req.token) s = true ∧ ∀ s', c.new = some (.server s') →
    s'.uninstallTokenHash = none
  only : ∀ k c s, tx.changes k = some c → c.base = some (.server s) → k = req.serverId

/-- The calls that commit one transaction at most. -/
def single : Request → Bool
  | .requestAgentUninstall .. | .confirmUninstall _ => true
  | _ => false

/-- Servers stand under their keys; a commit treats their tokens as it may; and a confirmation is accepted
    where it has committed, and refused where it has not. -/
def spec (p : Platform) : Spec Call Uuid Row Dispatch Response where
  row k
    | .server s => s.id = k
    | .task _ => True
  commit q past tx := Tame q.1 tx ∧ (single q.1 = true → past = []) ∧
    (∀ id userId payload hash, q.1 = .requestAgentUninstall id userId payload hash → Marks tx id hash) ∧
    ∀ req, q.1 = .confirmUninstall req → Confirms p req tx
  answer q past a := ∀ req, q.1 = .confirmUninstall req → (a = .accepted → past ≠ []) ∧ (a = .refused → past = [])

variable {p : Platform} {q : Request} {c : Call} {past : List
  (Tx Uuid Row Dispatch)} {tx : Tx Uuid Row Dispatch} {now : Time}
  {s s' s'' : Server} {k : Uuid}

theorem Passes.refl (q : Request) (now : Time) (s : Server) : Passes q now s s := ⟨rfl, Or.inl ⟨rfl, rfl⟩⟩

theorem Passes.trans (h : Passes q now s s') (h' : Passes q now s' s'') : Passes q now s s'' := by
  refine ⟨h'.1.trans h.1, ?_⟩
  rcases h'.2 with ⟨hash, expires⟩ | gone | ⟨userId, payload, hash, asked, drawn, expires⟩
  · rcases h.2 with ⟨hash', expires'⟩ | gone | ⟨userId, payload, hash', asked, drawn, expires'⟩
    · exact Or.inl ⟨hash.trans hash', expires.trans expires'⟩
    · exact Or.inr (Or.inl (hash.trans gone))
    · exact Or.inr (Or.inr ⟨userId, payload, hash', asked, hash.trans drawn, expires.trans expires'⟩)
  · exact Or.inr (Or.inl gone)
  · exact Or.inr (Or.inr ⟨userId, payload, hash, h.1 ▸ asked, drawn, expires⟩)

theorem Tame.empty : Tame q (.empty now) := fun _ _ _ h => by cases h

theorem Tame.write {base new : Option Row} {r : Row} (h : Tame q tx) (hv : tx.view k base = some r)
    (hf : ∀ s', new = some (.server s') → ∃ s, r = .server s ∧ s.id = k ∧ Passes q tx.start s s') :
      Tame q (tx.write k base new) := by
  intro k' c s' hc hn
  by_cases hk : k' = k
  · subst hk
    rw [Tx.changes_write] at hc
    obtain rfl := Option.some.inj hc
    cases hold : tx.changes k' with
    | none =>
      rw [hold] at hn
      obtain ⟨s, rfl, hid, passes⟩ := hf s' hn
      rw [Tx.view_of_unchanged hold] at hv
      exact ⟨s, hv, hid, passes⟩
    | some c =>
      rw [hold] at hn
      obtain ⟨s, rfl, -, passes⟩ := hf s' hn
      rw [Tx.view_of_changes hold] at hv
      obtain ⟨s₀, hb, hid, passes₀⟩ := h k' c s hold hv
      exact ⟨s₀, hb, hid, passes₀.trans passes⟩
  · rw [Tx.changes_write_of_ne hk] at hc
    exact h k' c s' hc hn

theorem Tame.create {t : ServerTask} (h : Tame q tx) : Tame q (tx.create k (.task t)) := by
  intro k' c s' hc hn
  by_cases hk : k' = k
  · subst hk
    rw [Tx.changes_create] at hc
    obtain rfl := Option.some.inj hc
    cases hn
  · rw [Tx.changes_create_of_ne hk] at hc
    exact h k' c s' hc hn

/-! ### The calls that draw or take no token -/

theorem Passes.of_spares (h : s.Spares s') : Passes q now s s' := by
  refine ⟨h.id, ?_⟩
  rcases h.token with kept | cleared
  · exact Or.inl kept
  · exact Or.inr (Or.inl cleared)

theorem commit_of_tame (other : single c.1 = false) (h : Tame c.1 tx) : (spec p).commit c past tx := by
  refine ⟨h, fun hs => ?_, fun _ _ _ _ asked => ?_, fun _ asked => ?_⟩
  · rw [other] at hs
    cases hs
  · rw [asked] at other
    cases other
  · rw [asked] at other
    cases other

theorem keeping (other : single c.1 = false) : Keeping (spec p) c (Tame c.1) where
  rowTask _ _ _ _ _ := trivial
  rowServer _ _ _ h valid := h.trans valid
  rowQueued _ _ _ := trivial
  empty _ := .empty
  task _ _ _ _ _ hJ hv _ := hJ.write hv fun _ hn => by cases hn
  server _ _ _ s _ hJ hv valid h := hJ.write hv fun _ hn => ⟨s, rfl, valid, by cases hn; exact .of_spares h⟩
  delete _ _ _ _ hJ hv := hJ.write hv fun _ hn => by cases hn
  commit _ _ hJ := commit_of_tame other hJ
  queued _ _ _ _ hJ _ := commit_of_tame other hJ.create
  answer _ _ _ req asked := by
    rw [asked] at other
    cases other

theorem sound_claimTasks (other : single c.1 = false) {server : Server} : Sound (spec p) c (claimTasks server) := by
  intro past now
  refine safe_selectForUpdate (J := fun _ => Tame c.1) .empty (fun _ _ _ _ _ hJ _ hv _ _ =>
    hJ.write hv fun _ h => by cases h)
    fun claimed tx hJ => ?_
  refine safe_update (J := fun _ => Tame c.1) hJ (fun _ _ _ _ _ _ hJ _ hv _ _ =>
    ⟨trivial, hJ.write hv fun _ hn => by cases hn⟩)
    fun started tx hJ => ⟨commit_of_tame other hJ, fun req asked => ?_⟩
  rw [asked] at other
  cases other

/-! ### The request -/

theorem Marks.write {id : Uuid} {hash : String} {base new : Option Row} {t : ServerTask} (h : Marks tx id hash)
    (hv : tx.view k base = some (.task t)) : Marks (tx.write k base new) id hash := by
  obtain ⟨c, s', hc, hn, drawn⟩ := h
  have hk : id ≠ k := by
    rintro rfl
    rw [Tx.view_of_changes hc, hn] at hv
    cases hv
  exact ⟨c, s', (Tx.changes_write_of_ne hk).trans hc, hn, drawn⟩

theorem Marks.create {id : Uuid} {hash : String} {r : Row} (h : Marks tx id hash) (unseen : tx.changes k = none) :
    Marks (tx.create k r) id hash := by
  obtain ⟨c, s', hc, hn, drawn⟩ := h
  have hk : id ≠ k := by
    rintro rfl
    cases unseen.symm.trans hc
  exact ⟨c, s', (Tx.changes_create_of_ne hk).trans hc, hn, drawn⟩

theorem owned_id {id userId : Uuid} (h : owned id userId s = true) : s.id = id := by
  simp only [owned, Bool.and_eq_true, decide_eq_true_eq] at h
  exact h.1

theorem safe_requestAgentUninstall {id userId : Uuid} {payload : Jsonb} {hash : String}
    (asked : c.1 = .requestAgentUninstall id userId payload hash) :
    (requestAgentUninstall p id userId payload hash).Safe (spec p) c [] none := by
  have answer : ∀ {a past}, (spec p).answer c past a := by
    intro a past req asked'
    cases asked.symm.trans asked'
  intro now
  refine safe_selectForUpdate (J := fun found tx => Tame c.1 tx ∧ tx.start = now ∧ ∀ kr ∈ found, kr.1 = id ∧
      owned id userId kr.2 = true ∧ ∃ c, tx.changes id = some c ∧ c.new = some (.server kr.2))
    ⟨.empty, rfl, fun _ h => (by cases h)⟩ ?_ fun found tx hJ => ?_
  · rintro found tx k base s ⟨tame, start, locked⟩ hk hv valid hw
    obtain rfl : k = id := (show s.id = k from valid).symm.trans (owned_id hw)
    refine ⟨tame.write hv fun s' hn => ⟨s, rfl, valid, by cases hn; exact .refl _ _ _⟩, start, fun kr hkr => ?_⟩
    rcases List.mem_append.mp hkr with hkr | hkr
    · exact absurd (List.mem_map.mpr ⟨kr, hkr, (locked kr hkr).1⟩) hk
    · obtain rfl := List.mem_singleton.mp hkr
      refine ⟨rfl, hw, _, Tx.changes_write, ?_⟩
      split <;> rfl
  · obtain ⟨tame, start, locked⟩ := hJ
    cases found with
    | nil => exact answer
    | cons kr rest =>
      obtain ⟨rfl, hw, c₀, held, left⟩ := locked kr (List.mem_cons_self ..)
      dsimp only
      split
      · exact answer
      · refine safe_update_held (fun k' s' valid hw' => ?_) held left hw (owned_id hw) fun base => ?_
        · exact (show s'.id = k' from valid).symm.trans (owned_id hw')
        -- the server is marked, and what follows leaves it alone
        · have marked : Tame c.1 (tx.write kr.1 base
              (some (.server ((markDeletionPending now kr.1 userId hash).set kr.2)))) := by
            refine tame.write ((Tx.view_of_changes held).trans left) fun s' hn => ⟨kr.2, rfl, owned_id hw, ?_⟩
            cases hn
            refine ⟨rfl, Or.inr (Or.inr ⟨userId, payload, hash, ?_, rfl, by rw [start]; rfl⟩)⟩
            rw [asked, owned_id hw]
          have drawn : Marks (tx.write kr.1 base
              (some (.server ((markDeletionPending now kr.1 userId hash).set kr.2)))) kr.1 hash :=
            ⟨_, (markDeletionPending now kr.1 userId hash).set kr.2, Tx.changes_write,
              by rw [held], rfl, by rw [← start]; rfl⟩
          refine safe_update (J := fun _ tx => Tame c.1 tx ∧ Marks tx kr.1 hash) ⟨marked, drawn⟩
            (fun _ _ tx k base t hJ _ hv _ _ => ⟨trivial, hJ.1.write hv fun _ hn => (by cases hn), hJ.2.write hv⟩)
            fun _ tx hJ => ⟨answer, fun k r hk unseen => ?_⟩
          obtain rfl := Option.some.inj hk
          refine ⟨trivial, ⟨hJ.1.create, fun _ => rfl, fun id' userId' payload' hash' asked' => ?_,
            fun req asked' => ?_⟩, answer⟩
          · obtain ⟨rfl, -, -, rfl⟩ := Request.requestAgentUninstall.inj (asked.symm.trans asked')
            exact hJ.2.create unseen
          · cases asked.symm.trans asked'

/-! ### The confirmation -/

/-- A statement on a task changes no row that was a server's. -/
theorem base_of_write {base new : Option Row} {t : ServerTask} {k' : Uuid} {ch : Change Row}
    (hv : tx.view k base = some (.task t))
    (hc : (tx.write k base new).changes k' = some ch) (hb : ch.base = some (.server s)) :
    ∃ ch₀, tx.changes k' = some ch₀ ∧ ch₀.base = some (.server s) := by
  by_cases hk : k' = k
  · subst hk
    rw [Tx.changes_write] at hc
    obtain rfl := Option.some.inj hc
    cases hold : tx.changes k' with
    | none =>
      rw [Tx.view_of_unchanged hold] at hv
      rw [hold, hv] at hb
      cases hb
    | some ch₀ =>
      rw [hold] at hb
      exact ⟨ch₀, rfl, hb⟩
  · rw [Tx.changes_write_of_ne hk] at hc
    exact ⟨ch, hc, hb⟩

/-- The transaction of a confirmation, which has changed no server but the one named, and left that one so that `P`
    holds of it. -/
structure Holding (p : Platform) (q : Request) (req : ConfirmUninstallRequest) (P : Option Row → Prop)
    (tx : Tx Uuid Row Dispatch) :
    Prop where
  tame : Tame q tx
  only : ∀ k c s, tx.changes k = some c → c.base = some (.server s) → k = req.serverId
  server : ∃ s c, tx.changes req.serverId = some c ∧ c.base = some (.server s) ∧
    confirmableServer tx.start req (p.sha256Hex req.token) s = true ∧ P c.new

theorem Holding.write_task {req : ConfirmUninstallRequest} {P : Option Row → Prop} {base new : Option Row}
    {t : ServerTask}
    (h : Holding p q req P tx) (hv : tx.view k base = some (.task t)) (hn : ∀ s, new ≠ some (.server s))
    (no : ∀ t, ¬P (some (.task t))) :
    Holding p q req P (tx.write k base new) := by
  obtain ⟨s, ch, hc, hb, confirmable, hP⟩ := h.server
  have hk : req.serverId ≠ k := by
    rintro rfl
    rw [Tx.view_of_changes hc] at hv
    exact no t (hv ▸ hP)
  refine ⟨h.tame.write hv fun s' hs' => absurd hs' (hn s'), fun k' c s hc hb => ?_, s, ch,
    (Tx.changes_write_of_ne hk).trans hc, hb,
    confirmable, hP⟩
  obtain ⟨ch₀, hc₀, hb₀⟩ := base_of_write hv hc hb
  exact h.only k' ch₀ s hc₀ hb₀

/-- The rows locked by the confirmation's `SELECT`: the server at most, in the version found. -/
structure Locked (p : Platform) (req : ConfirmUninstallRequest) (now : Time) (found : List (Uuid × Row))
    (tx : Tx Uuid Row Dispatch) :
    Prop where
  start : tx.start = now
  only : ∀ k c, tx.changes k = some c → k ∈ found.map Prod.fst
  server : ∀ kr ∈ found, kr.1 = req.serverId ∧ ∃ s, confirmableServer now req (p.sha256Hex req.token) s = true ∧
    tx.changes req.serverId = some ⟨some (.server s), some (.server s), false⟩

theorem confirmable_id {req : ConfirmUninstallRequest} {hash : String} (h : confirmableServer now req hash s = true) :
    s.id = req.serverId := by
  simp only [confirmableServer, Bool.and_eq_true, decide_eq_true_eq] at h
  exact h.1.1.1

theorem Locked.holding {req : ConfirmUninstallRequest} {found : List (Uuid × Row)} (h : Locked p req now found tx)
    (some_ : found ≠ []) : ∃ s, s.id = req.serverId ∧ Holding p q req (· = some (.server s)) tx := by
  obtain ⟨kr, hkr⟩ := List.exists_mem_of_ne_nil _ some_
  obtain ⟨-, s, confirmable, hc⟩ := h.server kr hkr
  have one : ∀ {k c}, tx.changes k = some c → k = req.serverId := by
    intro k c hc
    obtain ⟨kr, hkr, rfl⟩ := List.mem_map.mp (h.only k c hc)
    exact (h.server kr hkr).1
  refine ⟨s, confirmable_id confirmable, ⟨fun k c s' hc' hn => ?_, fun k c s' hc' _ => one hc', s, _, hc, rfl,
    by rw [h.start]; exact confirmable, rfl⟩⟩
  obtain rfl := one hc'
  obtain rfl := Option.some.inj (hc.symm.trans hc')
  cases hn
  exact ⟨s, rfl, confirmable_id confirmable, .refl _ _ _⟩

/-- What a confirmation leaves of its server. -/
def Spent (left : Option Row) : Prop := left = none ∨ ∃ s, left = some (.server s) ∧ s.uninstallTokenHash = none

/-- The server that the confirmation holds is taken its token, or removed. -/
theorem Holding.spend {req : ConfirmUninstallRequest} {base new : Option Row}
    (h : Holding p q req (· = some (.server s)) tx)
    (hid : s.id = req.serverId) (hn : ∀ s', new = some (.server s') → Passes q tx.start s s') (spent : Spent new) :
    Holding p q req Spent (tx.write req.serverId base new) := by
  obtain ⟨s₀, ch, hc, hb, confirmable, hP⟩ := h.server
  refine ⟨h.tame.write ((Tx.view_of_changes hc).trans hP) fun s' hs' => ⟨s, rfl, hid, hn s' hs'⟩,
    fun k c s' hc' hb' => ?_,
    s₀, _, Tx.changes_write, by rw [hc]; exact hb, confirmable, by rw [hc]; exact spent⟩
  by_cases hk : k = req.serverId
  · exact hk
  · rw [Tx.changes_write_of_ne hk] at hc'
    exact h.only k c s' hc' hb'

theorem safe_confirmUninstall {req : ConfirmUninstallRequest} (asked : c.1 = .confirmUninstall req) :
    (confirmUninstall p req).Safe (spec p) c [] none := by
  have refused : ∀ tx, (Prog.rollback (.answer .refused) : Handler).Safe (spec p) c [] (some tx) :=
    fun tx req' _ => ⟨fun h => (by cases h), fun _ => rfl⟩
  -- once the server's row is spent, the transaction commits
  have accepted : ∀ tx, Holding p c.1 req Spent tx →
      (Prog.commit (.answer .accepted) : Handler).Safe (spec p) c [] (some tx) := by
    intro tx h
    refine ⟨⟨h.tame, fun _ => rfl, fun _ _ _ _ asked' => ?_, fun req' asked' => ?_⟩,
      fun req' _ => ⟨fun _ => by simp, fun h => by cases h⟩⟩
    · cases asked.symm.trans asked'
    · obtain rfl := Request.confirmUninstall.inj (asked.symm.trans asked')
      obtain ⟨s, ch, hc, hb, confirmable, spent⟩ := h.server
      refine ⟨⟨s, ch, hc, hb, confirmable, fun s' hs' => ?_⟩, h.only⟩
      rcases spent with gone | ⟨s'', hs'', cleared⟩
      · cases gone.symm.trans hs'
      · cases hs''.symm.trans hs'
        exact cleared
  intro now snapshot sees _
  refine safe_on (J := Locked p req now) (nodup_matching sees.nodup) ⟨rfl, fun _ _ h => (by cases h),
    fun _ h => by cases h⟩ ?_ ?_
  · intro found tx k base s hJ hk hv valid hw
    obtain rfl : k = req.serverId := (show s.id = k from valid).symm.trans (confirmable_id hw)
    have untouched : tx.changes req.serverId = none :=
      Option.eq_none_iff_forall_ne_some.mpr fun ch hc => hk (hJ.only _ ch hc)
    rw [Tx.view_of_unchanged untouched] at hv
    have written : (tx.write req.serverId base (some (.server s))).changes req.serverId =
        some ⟨some (.server s), some (.server s), false⟩ := by
      rw [Tx.changes_write, untouched, hv]
      rfl
    refine ⟨fun s' hs' => Option.some.inj hs' ▸ valid, hJ.start, fun k' c hc => ?_, fun kr hkr => ?_⟩
    · by_cases hk' : k' = req.serverId
      · simp [hk']
      · rw [Tx.changes_write_of_ne hk'] at hc
        simp [List.mem_map.mp (hJ.only k' c hc)]
    · rcases List.mem_append.mp hkr with hkr | hkr
      · exact absurd (List.mem_map.mpr ⟨kr, hkr, (hJ.server kr hkr).1⟩) hk
      · obtain rfl := List.mem_singleton.mp hkr
        exact ⟨rfl, s, hw, written⟩
  · intro lockedServers tx locked
    by_cases some_ : lockedServers = []
    · refine safe_on (J := fun _ _ => True) (nodup_matching sees.nodup) trivial
        (fun _ _ _ _ _ _ _ _ _ _ => ⟨fun _ _ => trivial, trivial⟩) fun lockedTasks tx _ => ?_
      rw [some_]
      exact refused tx
    obtain ⟨s, hid, holding⟩ := locked.holding (q := c.1) some_
    refine safe_on (J := fun _ => Holding p c.1 req (· = some (.server s))) (nodup_matching sees.nodup) holding
      (fun _ tx k base t hJ _ hv _ _ => ⟨fun _ _ => trivial,
        hJ.write_task hv (fun _ h => by cases h) fun _ h => by cases h⟩)
      fun lockedTasks tx hJ => ?_
    have ⟨s₀, ch, hc, hb, confirmable, left⟩ := hJ.server
    have only : ∀ k' s', (spec p).row k' (servers.put s') → s'.id = req.serverId → k' = req.serverId :=
        fun k' s' valid h =>
      (show s'.id = k' from valid).symm.trans h
    have spentTask : ∀ t, ¬Spent (some (.task t)) := by
      rintro t (h | ⟨s, h, -⟩) <;> cases h
    split
    · exact refused tx
    cases req.status with
    | completed =>
      refine safe_delete_held (fun k' s' valid h => only k' s' valid (by simpa using h)) hc left (by simp [hid])
        fun base => ?_
      refine safe_delete (J := Holding p c.1 req Spent) (hJ.spend hid (fun _ h => by cases h) (Or.inl rfl))
        (fun tx k base t hJ hv _ _ => hJ.write_task hv (fun _ h => by cases h) spentTask) accepted
    | failed =>
      refine safe_update_held (fun k' s' valid h => only k' s' valid (of_decide_eq_true h)) hc left
        (decide_eq_true hid) hid
        fun base => ?_
      refine safe_update (J := fun _ => Holding p c.1 req Spent) (hJ.spend hid (fun s' h => ?_) (Or.inr ⟨_, rfl, rfl⟩))
        (fun _ _ tx k base t hJ _ hv _ _ => ⟨trivial, hJ.write_task hv (fun _ h => by cases h) spentTask⟩)
          fun _ => accepted
      cases h
      exact ⟨rfl, Or.inr (Or.inl rfl)⟩

theorem serves : ∀ c : Call, (answerCall p c).Safe (spec p) c [] none
  | ⟨.heartbeat _ _, _⟩ => (keeping rfl).heartbeat (fun _ _ => sound_claimTasks rfl) []
  | ⟨.reportTaskResult _ _ _ _, _⟩ => (keeping rfl).reportTaskResult []
  | ⟨.confirmUninstall _, _⟩ => safe_confirmUninstall rfl
  | ⟨.listServers _, _⟩ => (keeping rfl).expireStale (keeping rfl).accepted []
  | ⟨.cancelTask _ _ _, _⟩ => (keeping rfl).cancelTask []
  | ⟨.createTask _ _ _, _⟩ => (keeping rfl).createTask []
  | ⟨.updateAllAgents _ _, _⟩ => (keeping rfl).updateAllAgents []
  | ⟨.setAgentAutoUpdate _ _ _, _⟩ => (keeping rfl).setAgentAutoUpdate []
  | ⟨.requestAgentUninstall _ _ _ _, _⟩ => safe_requestAgentUninstall rfl
  | ⟨.removeServers _, _⟩ => (keeping rfl).removeServers []
  | ⟨.editServers _ _, keeps⟩ => fun _ => (keeping rfl).servers (fun _ s =>
        ⟨rfl, Or.inl (keeps s)⟩) .empty fun _ _ hJ =>
      (keeping rfl).committed hJ (keeping rfl).accepted

/-! ### The history -/

/-- `e` is a request for the uninstall of server `k` that was granted, with a token of that digest. -/
def Requests (e : Commit Call Uuid Row Dispatch) (k : Uuid) (hash : String) : Prop :=
  ∃ userId payload, e.request.1 = .requestAgentUninstall k userId payload hash

/-- `e` accepts `token` to confirm the uninstall of server `k`. -/
def Accepts (e : Commit Call Uuid Row Dispatch) (k : Uuid) (token : String) : Prop :=
  ∃ req, e.request.1 = .confirmUninstall req ∧ req.serverId = k ∧ req.token = token

/-- Since then the uninstall of server `k` has neither been requested nor confirmed. -/
def Pending (k : Uuid) (since : List (Commit Call Uuid Row Dispatch)) : Prop :=
  ∀ e ∈ since, (∀ hash, ¬Requests e k hash) ∧ ∀ token, ¬Accepts e k token

/-- The token with that digest and expiry is the one drawn by the last request for server `k`, and not yet used. -/
def Drawn (rows₀ : Uuid → Option Row) (log : List (Commit Call Uuid Row Dispatch)) (k : Uuid) (hash : String)
    (expires : Option Time) : Prop :=
  (∃ since e first, log = since ++ e :: first ∧ Requests e k hash ∧ expires = some (e.tx.start + 15 * minute) ∧
    Pending k since) ∨
    ∃ s₀, rows₀ k = some (.server s₀) ∧ s₀.uninstallTokenHash = some hash ∧
    s₀.uninstallTokenExpiresAt = expires ∧ Pending k log

variable {rows₀ rows : Uuid → Option Row} {log : List (Commit Call Uuid Row Dispatch)}
  {e : Commit Call Uuid Row Dispatch}
  {hash token : String} {expires : Option Time}

theorem Drawn.cons (h : Drawn rows₀ log k hash expires) (requests : ∀ hash, ¬Requests e k hash)
    (accepts : ∀ token, ¬Accepts e k token) :
    Drawn rows₀ (e :: log) k hash expires := by
  rcases h with ⟨since, e', first, rfl, asked, expiry, pending⟩ | ⟨s₀, hs₀, drawn, expiry, pending⟩
  · exact Or.inl ⟨e :: since, e', first, rfl, asked, expiry, List.forall_mem_cons.mpr ⟨⟨requests, accepts⟩, pending⟩⟩
  · exact Or.inr ⟨s₀, hs₀, drawn, expiry, List.forall_mem_cons.mpr ⟨⟨requests, accepts⟩, pending⟩⟩

/-- The token that a server has is the one that its last request drew. -/
theorem drawn (h : Serial (spec p) rows₀ log rows) : ∀ s, rows k = some (.server s) → s.uninstallTokenHash = some hash →
    Drawn rows₀ log k hash s.uninstallTokenExpiresAt := by
  induction h with
  | nil => exact fun s hs held => Or.inr ⟨s, hs, held, rfl, fun _ h => by cases h⟩
  | @cons log rows e _ ok base _ ih =>
    intro s hs held
    obtain ⟨tame, -, marks, confirms⟩ := ok
    by_cases requests : ∃ hash', Requests e k hash'
    · obtain ⟨hash', userId, payload, asked⟩ := requests
      obtain ⟨ch, s', hc, hn, given, expiry⟩ := marks k userId payload hash' asked
      have hs : some (Row.server s') = some (.server s) := hn.symm.trans ((Tx.view_of_changes hc).symm.trans hs)
      obtain rfl := Row.server.inj (Option.some.inj hs)
      obtain rfl := Option.some.inj (given.symm.trans held)
      exact Or.inl ⟨[], e, log, rfl, ⟨userId, payload, asked⟩, expiry, fun _ h => by cases h⟩
    have requests := fun hash' h => requests ⟨hash', h⟩
    by_cases accepts : ∃ token, Accepts e k token
    · obtain ⟨_, req, asked, rfl, -⟩ := accepts
      obtain ⟨s₀, ch, hc, -, -, cleared⟩ := (confirms req asked).server
      cases (cleared s ((Tx.view_of_changes hc).symm.trans hs)).symm.trans held
    have accepts := fun token h => accepts ⟨token, h⟩
    cases hc : e.tx.changes k with
    | none => exact (ih s ((Tx.view_of_unchanged hc).symm.trans hs) held).cons requests accepts
    | some ch =>
      obtain ⟨s₀, hb, rfl, passes⟩ := tame k ch s hc ((Tx.view_of_changes hc).symm.trans hs)
      rcases passes.2 with ⟨hash', expiry⟩ | cleared | ⟨userId, payload, hash', asked, -⟩
      · have before := ih s₀ ((base _ ch hc).symm.trans hb) (hash'.symm.trans held)
        exact expiry ▸ before.cons requests accepts
      · cases cleared.symm.trans held
      · exact absurd ⟨userId, payload, asked⟩ (requests hash')

/-! ### The run -/

/-- Every token is drawn once: no two requests of the run drew the same, nor one that was stored before it, and none was
    stored for two servers. -/
structure DrawnOnce (rows₀ : Uuid → Option Row) (s : State Call Uuid Row Dispatch Bool Response) : Prop where
  requests : ∀ i j session session' id id' userId userId' payload payload' hash, s.sessions i = some session →
    s.sessions j = some session' → session.request.1 = .requestAgentUninstall id userId payload hash →
    session'.request.1 = .requestAgentUninstall id' userId' payload' hash → i = j
  stored : ∀ k s₀ i session id userId payload hash, rows₀ k = some (.server s₀) → s₀.uninstallTokenHash = some hash →
    s.sessions i = some session → session.request.1 ≠ .requestAgentUninstall id userId payload hash
  servers : ∀ k k' s₀ s₀' hash, rows₀ k = some (.server s₀) → rows₀ k' = some (.server s₀') →
    s₀.uninstallTokenHash = some hash →
    s₀'.uninstallTokenHash = some hash → k = k'

/-- What confirmations promise of a state that a run has reached. -/
structure Authentic (p : Platform) (rows₀ : Uuid → Option Row)
    (s : State Call Uuid Row Dispatch Bool Response) : Prop where
  /-- the server that a confirmation changes or removes has the unused token presented, drawn by its last request -/
  authentic : ∀ later e earlier req k c s₁, s.log = later ++ e :: earlier → e.request.1 = .confirmUninstall req →
    e.tx.changes k = some c → c.base = some (.server s₁) → k = req.serverId ∧ s₁.deleting = true ∧
      ∃ expires, Drawn rows₀ earlier k (p.sha256Hex req.token) (some expires) ∧ e.tx.start < expires
  once : s.log.Pairwise fun e e' => ∀ k k' token, Accepts e k token → ¬Accepts e' k' token
  accepted : ∀ i session req, s.sessions i = some session → session.request.1 = .confirmUninstall req →
    session.control = .answered .accepted → ∃ e ∈ s.log, e.session = i ∧ Accepts e req.serverId req.token
  rejected : ∀ i session req, s.sessions i = some session → session.request.1 = .confirmUninstall req →
    session.control = .answered .refused → ∀ e ∈ s.log, e.session ≠ i

variable {s : State Call Uuid Row Dispatch Bool Response}

/-- What a confirmation found. -/
theorem Accepts.found (h : Accepts e k token) (commit : (spec p).commit e.request past e.tx)
    (before : Serial (spec p) rows₀ log rows)
    (base : ∀ k c, e.tx.changes k = some c → c.base = rows k) :
    ∃ expires, Drawn rows₀ log k (p.sha256Hex token) (some expires) ∧ e.tx.start < expires := by
  obtain ⟨req, asked, rfl, rfl⟩ := h
  obtain ⟨s, ch, hc, hb, confirmable, -⟩ := (commit.2.2.2 req asked).server
  simp only [confirmableServer, Bool.and_eq_true, decide_eq_true_eq, Option.any_eq_true] at confirmable
  obtain ⟨⟨⟨-, held⟩, expires, expiry, unexpired⟩, -⟩ := confirmable
  exact ⟨expires, expiry ▸ drawn before s ((base _ ch hc).symm.trans hb) held, unexpired⟩

/-- A token that is drawn and unused has not been accepted before, for any server. -/
theorem Drawn.unused (distinct : DrawnOnce rows₀ s) (attributed : Attributed s)
    (alone : s.log.Pairwise fun e e' => e.session = e'.session → ¬single e.request.1 = true) {later between earlier}
    (hlog : s.log = later ++ (between ++ e :: earlier)) {k' : Uuid} {expires' : Option Time}
    (d : Drawn rows₀ (between ++ e :: earlier) k hash expires) (d' : Drawn rows₀ earlier k' hash expires') :
    ¬Accepts e k' token := by
  intro accepts
  have session : ∀ e ∈ s.log, ∃ session, s.sessions e.session = some session ∧ session.request = e.request := attributed
  rcases d with ⟨since, e₀, first, hsplit, requests, -, pending⟩ | ⟨s₀, hs₀, held, -, pending⟩
  · rcases d' with ⟨since', e₀', first', rfl, requests', -⟩ | ⟨s₀', hs₀', held', -⟩
    · obtain ⟨userId, payload, asked⟩ := requests
      obtain ⟨userId', payload', asked'⟩ := requests'
      have he₀ : e₀ ∈ s.log := by simp [hlog, hsplit]
      have he₀' : e₀' ∈ s.log := by simp [hlog]
      obtain ⟨x, hx, hq⟩ := session e₀ he₀
      obtain ⟨x', hx', hq'⟩ := session e₀' he₀'
      have same : e₀.session = e₀'.session :=
        distinct.requests _ _ x x' k k' userId userId' payload payload' hash hx hx'
        (hq ▸ asked) (hq' ▸ asked')
      -- the two requests are one, made before the token was accepted
      have at_ : s.log = (later ++ since) ++ e₀ :: first := by rw [hlog, hsplit, List.append_assoc]
      have at_' : s.log = (later ++ (between ++ e :: since')) ++ e₀' :: first' := by simp [hlog]
      obtain ⟨before, rfl, -⟩ := split_unique alone at_ at_' (fun h => h same (by rw [asked]; rfl))
        fun h => h same.symm (by rw [asked']; rfl)
      obtain ⟨rfl, -⟩ := Request.requestAgentUninstall.inj (asked.symm.trans asked')
      have mem : e ∈ since := by
        rw [List.append_cancel_left before]
        simp
      exact (pending e mem).2 token accepts
    · obtain ⟨userId, payload, asked⟩ := requests
      obtain ⟨x, hx, hq⟩ := session e₀ (by simp [hlog, hsplit])
      exact distinct.stored k' s₀' _ x k userId payload hash hs₀' held' hx (hq ▸ asked)
  · rcases d' with ⟨since', e₀', first', rfl, ⟨userId, payload, asked⟩, -⟩ | ⟨s₀', hs₀', held', -⟩
    · obtain ⟨x, hx, hq⟩ := session e₀' (by simp [hlog])
      exact distinct.stored k s₀ _ x k' userId payload hash hs₀ held hx (hq ▸ asked)
    · obtain rfl := distinct.servers k k' s₀ s₀' hash hs₀ hs₀' held held'
      exact (pending e (by simp)).2 token accepts

theorem confirmation_authentic (distinct : DrawnOnce rows₀ s) (valid : ∀ k r, rows₀ k = some r → (spec p).row k r)
    (h : Reachable (answerCall p) rows₀ s) : Authentic p rows₀ s := by
  have consistent : Consistent (spec p) rows₀ s := h.consistent serves valid
  have history := consistent.history
  have attributed := h.attributed
  have answered : ∀ {i session a}, s.sessions i = some session → session.control = .answered a →
      (spec p).answer session.request (s.past i) a := by
    intro i session a hs ha
    have safe := consistent.safe i session hs
    rwa [Session.Safe, ha] at safe
  refine ⟨?_, ?_, ?_, ?_⟩
  · intro later e earlier req k ch s₁ hlog asked hc hb
    obtain ⟨rows', before, ok, base⟩ := Serial.before (hlog ▸ history)
    have confirms := ok.2.2.2 req asked
    obtain rfl := confirms.only k ch s₁ hc hb
    obtain ⟨s, ch', hc', hb', confirmable, -⟩ := confirms.server
    obtain rfl := Option.some.inj (hc.symm.trans hc')
    cases hb.symm.trans hb'
    simp only [confirmableServer, Bool.and_eq_true] at confirmable
    exact ⟨rfl, confirmable.2, Accepts.found ⟨req, asked, rfl, rfl⟩ ok before base⟩
  · refine List.pairwise_iff_forall_sublist.mpr fun {e e'} hsub k k' token accepts accepts' => ?_
    obtain ⟨r₁, r₂, hsplit, he, hrest⟩ := List.cons_sublist_iff.mp hsub
    obtain ⟨later, m, rfl⟩ := List.mem_iff_append.mp he
    obtain ⟨m', earlier, rfl⟩ := List.mem_iff_append.mp (List.singleton_sublist.mp hrest)
    have hlog : s.log = later ++ e :: ((m ++ m') ++ e' :: earlier) := by simp [hsplit]
    have hlog' : s.log = (later ++ e :: (m ++ m')) ++ e' :: earlier := by simp [hsplit]
    obtain ⟨rows', before, ok, base⟩ := Serial.before (hlog ▸ history)
    obtain ⟨rows'', before', ok', base'⟩ := Serial.before (hlog' ▸ history)
    obtain ⟨_, d, -⟩ := accepts.found ok before base
    obtain ⟨_, d', -⟩ := accepts'.found ok' before' base'
    have alone := history.commits_once (P := fun c => single c.1 = true)
      fun c past tx (ok : (spec p).commit c past tx) => ok.2.1
    exact d.unused distinct attributed alone (show s.log =
      (later ++ [e]) ++ ((m ++ m') ++ e' :: earlier) by simp [hsplit]) d' accepts'
  · intro i session req hs asked ha
    obtain ⟨tx, htx⟩ := List.exists_mem_of_ne_nil _ ((answered hs ha req asked).1 rfl)
    obtain ⟨e, he, hi, -, hq⟩ := attributed.request hs htx
    exact ⟨e, he, hi, req, hq ▸ asked, rfl, rfl⟩
  · rintro i session req hs asked ha e he rfl
    have past := (answered hs ha req asked).2 rfl
    rw [State.past, List.map_eq_nil_iff, List.filter_eq_nil_iff] at past
    exact past e he (by simp)

/-! ### A run -/

/-- One server with its agent. -/
def oneServer : List (Uuid × Row) := [(1, .server linuxServer)]

theorem oneServer_rows {r : Row} (h : oneServer.lookup k = some r) : k = 1 ∧ r = .server linuxServer := by
  simp only [oneServer, List.lookup_cons, List.lookup_nil] at h
  split at h
  · rename_i hk
    exact ⟨beq_iff_eq.mp hk, (Option.some.inj h).symm⟩
  · cases h

/-- The request to uninstall it. -/
def requested : Call := ⟨.requestAgentUninstall 1 7 [] "token", trivial⟩

/-- The confirmation by its agent. -/
def confirmed : Call := ⟨.confirmUninstall ⟨1, 100, "token", .completed, ""⟩, trivial⟩

/-- Server 1 is uninstalled: the request and its confirmation. -/
def uninstalling : List (Move Call Uuid Bool) :=
  .arrive 0 requested :: List.replicate 6 (.next 0) ++ [.insert 0 100, .next 0, .next 0, .arrive 1 confirmed] ++
    List.replicate 10 (.next 1)

/-- For examples: session 1 is answered that its confirmation is accepted, and only session 0 has requested an
uninstall. -/
def uninstalled (s : Listed Call Uuid Row Dispatch Bool Response) : Bool :=
  (match s.sessions.lookup 1 with
    | some ⟨_, .answered .accepted, _⟩ => true
    | _ => false) &&
  s.sessions.all fun x => match x.2.request.1 with
    | .requestAgentUninstall .. => x.1 = 0
    | _ => true

theorem drawnOnce_of_check {s : Listed Call Uuid Row Dispatch Bool Response} (h : uninstalled s = true) :
    DrawnOnce (fun k => oneServer.lookup k) s.state := by
  have only : ∀ i session id userId payload hash, s.state.sessions i = some session →
      session.request.1 = .requestAgentUninstall id userId payload hash → i = 0 := by
    intro i session id userId payload hash hs asked
    obtain ⟨l₁, l₂, hl, -⟩ := List.lookup_eq_some_iff.mp (show s.sessions.lookup i = some session from hs)
    have checked := List.all_eq_true.mp (Bool.and_eq_true_iff.mp h).2 (i, session) (by simp [hl])
    simpa [asked] using checked
  have none_stored : ∀ k s₀ hash, oneServer.lookup k = some (.server s₀) → s₀.uninstallTokenHash ≠ some hash := by
    intro k s₀ hash hs held
    obtain ⟨-, hr⟩ := oneServer_rows hs
    cases hr
    cases held
  refine ⟨fun i j session session' id id' userId userId' payload payload' hash hs hs' asked asked' => ?_, ?_, ?_⟩
  · exact (only i session id userId payload hash hs asked).trans
      (only j session' id' userId' payload' hash hs' asked').symm
  · exact fun k s₀ _ _ _ _ _ hash hs held => absurd held (none_stored k s₀ hash hs)
  · exact fun k _ s₀ _ hash hs _ held => absurd held (none_stored k s₀ hash hs)

theorem confirmation_authentic_oneServer : ∃ s, Reachable (answerCall plainPlatform) (fun k => oneServer.lookup k) s ∧
    (∃ session, s.sessions 1 = some session ∧ session.control = .answered .accepted) ∧
    Authentic plainPlatform (fun k => oneServer.lookup k) s := by
  obtain ⟨s, reachable, h⟩ := Listed.reachable_of_check (answerCall plainPlatform) 0 oneServer uninstalling uninstalled
    (by decide +kernel)
  have accepted : ∃ session, s.state.sessions 1 = some session ∧ session.control = .answered .accepted := by
    obtain ⟨h, -⟩ := Bool.and_eq_true_iff.mp h
    split at h
    · exact ⟨_, ‹_›, rfl⟩
    · cases h
  refine ⟨s.state, reachable, accepted, confirmation_authentic (drawnOnce_of_check h) (fun k r hr => ?_) reachable⟩
  obtain ⟨rfl, rfl⟩ := oneServer_rows hr
  rfl

end Confirmation
end DatrixOps
