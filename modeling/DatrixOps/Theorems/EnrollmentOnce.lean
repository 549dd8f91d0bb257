import DatrixOps.Postgres.Rules
import DatrixOps.Postgres.Schedule
import DatrixOps.Agent.Enrollment

/-! Enrollment is exactly-once and rollback-safe. An enrollment finds its server unused and marks it used, a
    rollback finds it used and not completed, a heartbeat completes it; who changes a server's row found the
    version that the change before left, so along the log these exclude each other. The synchronisation of the
    host's own record is the one thing that gives or takes credentials besides. -/

namespace DatrixOps
namespace Agent
open Postgres Prog

/-- What a call may do to one row. -/
inductive Lawful (p : Credentials) (q : Request) (tx : Tx Key Row Empty) : Key → Change Row → Prop
  | draw (n : Nat) : Lawful p q tx (.draw n) ⟨none, some .draw, true⟩
  | lock (id : Uuid) (r : Server) : Lawful p q tx (.server id) ⟨some (.server r), some (.server r), false⟩
  | enroll (id : Uuid) (r : Server) {req : EnrollmentRequest} (n : Nat) (asked : q = .enroll req)
      (token : r.enrollmentTokenHash = some (p.sha256Hex (req.cleaned p).token)) (unused : r.enrollmentUsedAt = none)
      (drawn : tx.changes (.draw n) = some ⟨none, some .draw, true⟩) :
      Lawful p q tx (.server id) ⟨some (.server r), some (.server (r.activated p n (req.cleaned p) tx.start)), false⟩
  | rollback (id : Uuid) (r : Server) {rollbackToken serverId : String}
      (asked : q = .enrollRollback rollbackToken serverId) (simple : p.simpleProtocol = true)
      (used : r.enrollmentUsedAt ≠ none)
      (incomplete : r.bootstrapCompletedAt = none) :
      Lawful p q tx (.server id) ⟨some (.server r), some (.server (r.released tx.start)), false⟩
  | heartbeat (id : Uuid) (r : Server) {agentToken : String} (asked : q = .heartbeat agentToken)
      (accepted : r.accepts p agentToken = true) :
      Lawful p q tx (.server id) ⟨some (.server r), some (.server (r.seen tx.start)), false⟩
  | adopt (id : Uuid) (r : Server) (userId : Uuid) (tokenHash : String) {agentToken : String}
      (asked : q = .heartbeat agentToken) :
      Lawful p q tx (.server id) ⟨some (.server r), some (.server (r.adopted userId tokenHash tx.start)), false⟩
  | remove (id : Uuid) (r : Server) {agentToken : String} (asked : q = .heartbeat agentToken) :
      Lawful p q tx (.server id) ⟨some (.server r), none, false⟩
  | install (id userId : Uuid) (tokenHash : String) (r : Server) {agentToken : String}
    (asked : q = .heartbeat agentToken)
      (row : controlPlane userId tokenHash tx.start (.server id) = some (.server r)) :
      Lawful p q tx (.server id) ⟨none, some (.server r), true⟩

/-- A transaction gives the credential made of the bytes `n` to the server under key `k`. -/
def Activates (p : Credentials) (tx : Tx Key Row Empty) (k : Key) (n : Nat) : Prop :=
  tx.changes (.draw n) = some ⟨none, some .draw, true⟩ ∧ ∃ r r', tx.changes k =
    some ⟨some (.server r), some (.server r'), false⟩ ∧
    r.enrollmentUsedAt = none ∧ r'.enrollmentUsedAt ≠ none ∧ r'.agentTokenHash = some (p.sha256Hex (p.credential n))

/-- A transaction marks the server under key `k`, which was enrolled, as one that is not. -/
def Releases (tx : Tx Key Row Empty) (k : Key) : Prop :=
  ∃ r r', tx.changes k = some ⟨some (.server r), some (.server r'), false⟩ ∧ r.enrollmentUsedAt ≠ none ∧
    r'.enrollmentUsedAt = none

/-- Rows stand under their keys; a commit changes rows lawfully and enrolls one server at most; and each
    answer is one that the call's transactions bear out. -/
def spec (p : Credentials) : Spec Request Key Row Empty Response where
  row
    | .server id, .server r => r.id = id ∧ (r.bootstrapRollbackTokenHash ≠ none → r.enrollmentUsedAt ≠ none)
    | .draw _, .draw => True
    | _, _ => False
  commit q past tx := (∀ k c, tx.changes k = some c → Lawful p q tx k c) ∧
    (∀ k k' n n', Activates p tx k n → Activates p tx k' n' → k = k') ∧
    ((∀ agentToken, q ≠ .heartbeat agentToken) → past = [])
  answer q past a :=
    (∀ id agentToken rollbackToken, a = .enrolled id agentToken rollbackToken → ∃ req, q = .enroll req ∧
      ∃ tx ∈ past, ∃ n,
      agentToken = p.credential n ∧ Activates p tx (.server id) n) ∧
    (∀ id, a = .recorded id → ∃ agentToken, q = .heartbeat agentToken ∧ ∃ tx ∈ past, ∃ r,
      tx.changes (.server id) = some ⟨some (.server r), some (.server (r.seen tx.start)), false⟩ ∧
      r.accepts p agentToken = true) ∧
    (a = .noContent → ∃ rollbackToken serverId, q = .enrollRollback rollbackToken serverId ∧
      ∃ tx ∈ past, ∃ k, Releases tx k)

variable {p : Credentials} {q : Request} {past : List (Tx Key Row Empty)} {tx : Tx Key Row Empty} {k : Key} {now : Time}

/-! ### Statements -/

theorem row_server {k : Key} {r : Server} (h : (spec p).row k (.server r)) :
    k = .server r.id ∧ (r.bootstrapRollbackTokenHash ≠ none → r.enrollmentUsedAt ≠ none) := by
  cases k with
  | server id => exact ⟨by rw [h.1], h.2⟩
  | draw n => cases h

/-- The call has changed nothing that it tells of. -/
def Response.refusal : Response → Bool
  | .enrolled .. | .recorded _ | .noContent => false
  | _ => true

theorem safe_refusal {a : Response} {tx : Option (Tx Key Row Empty)} (h : a.refusal = true) :
    (Prog.answer a : Handler).Safe (spec p) q past tx := by
  refine ⟨fun _ _ _ ha => ?_, fun _ ha => ?_, fun ha => ?_⟩ <;> (subst ha; cases h)

theorem safe_rollback {a : Response} (h : a.refusal = true) :
    (Prog.rollback (.answer a) : Handler).Safe (spec p) q past (some tx) :=
  show (Prog.answer a : Handler).Safe (spec p) q past none from safe_refusal h

/-- A lawful transaction that marks no server as used. -/
theorem commit_of_lawful (lawful : ∀ k c, tx.changes k = some c → Lawful p q tx k c) (asked : ∀ req, q ≠ .enroll req)
    (first : (∀ agentToken, q ≠ .heartbeat agentToken) → past = []) : (spec p).commit q past tx := by
  refine ⟨lawful, fun k k' n n' h => ?_, first⟩
  obtain ⟨-, r, r', hc, unused, used, -⟩ := h
  generalize hd : (⟨some (.server r), some (.server r'), false⟩ : Change Row) = c at hc
  have := lawful k c hc
  cases this with
  | enroll _ _ _ asked' => exact absurd asked' (asked _)
  | rollback _ r₀ => cases hd; exact absurd rfl used
  | lock | heartbeat | adopt => cases hd; exact absurd unused used
  | draw | remove | install => cases hd

theorem commit_heartbeat {agentToken : String}
    (lawful : ∀ k c, tx.changes k = some c → Lawful p (.heartbeat agentToken) tx k c) :
    (spec p).commit (.heartbeat agentToken) past tx :=
  commit_of_lawful lawful (fun _ h => by cases h) fun h => absurd rfl (h agentToken)

/-- What locks a row and leaves it as it is. -/
def lockOf (r : Server) : Change Row := ⟨some (.server r), some (.server r), false⟩

/-- Besides what `pre` did, the transaction has locked the rows found, which satisfy `P`. -/
structure Locks (p : Credentials) (P : Server → Bool) (pre : Tx Key Row Empty) (found : List (Key × Server))
    (tx : Tx Key Row Empty) :
    Prop where
  start : tx.start = pre.start
  changes : ∀ k c, tx.changes k = some c → pre.changes k = some c ∨ ∃ r, (k, r) ∈ found ∧ c = lockOf r
  keep : ∀ k c, pre.changes k = some c → tx.changes k = some c
  found : ∀ k r, (k, r) ∈ found → tx.changes k = some (lockOf r) ∧ P r = true ∧ (spec p).row k (.server r)

theorem safe_selectForUpdate {P : Server → Bool} {pre : Tx Key Row Empty} {next : List (Key × Server) → Handler}
    (clean : ∀ id, pre.changes (.server id) = none)
    (done : ∀ found tx, Locks p P pre found tx → (next found).Safe (spec p) q past (some tx)) :
    (selectForUpdate P next).Safe (spec p) q past (some pre) := by
  refine safe_update (J := Locks p P pre) ⟨rfl, fun _ _ h => Or.inl h, fun _ _ h => h, fun _ _ h => by cases h⟩
    (fun snapshot found tx k base r hJ hk hv valid hw => ⟨valid, ?_⟩) done
  obtain ⟨rfl, -⟩ := row_server valid
  have untouched : tx.changes (.server r.id) = none := by
    refine Option.eq_none_iff_forall_ne_some.mpr fun c hc => ?_
    rcases hJ.changes _ c hc with hc | ⟨r', hmem, -⟩
    · rw [clean] at hc
      cases hc
    · exact hk (List.mem_map.mpr ⟨_, hmem, rfl⟩)
  rw [Tx.view_of_unchanged untouched] at hv
  have written : (tx.write (.server r.id) base (some (.server r))).changes (.server r.id) = some (lockOf r) := by
    rw [Tx.changes_write, untouched, hv]
    rfl
  refine ⟨hJ.start, fun k' c hc => ?_, fun k' c hc => ?_, fun k' r' hmem => ?_⟩
  · by_cases hk' : k' = .server r.id
    · subst hk'
      exact Or.inr ⟨r, List.mem_append_right _ (List.mem_singleton_self _), Option.some.inj (hc.symm.trans written)⟩
    · rw [Tx.changes_write_of_ne hk'] at hc
      rcases hJ.changes k' c hc with hc | ⟨r', hmem, rfl⟩
      · exact Or.inl hc
      · exact Or.inr ⟨r', List.mem_append_left _ hmem, rfl⟩
  · have hk' : k' ≠ .server r.id := by
      rintro rfl
      rw [clean] at hc
      cases hc
    rw [Tx.changes_write_of_ne hk']
    exact hJ.keep k' c hc
  · rcases List.mem_append.mp hmem with hmem | hmem
    · have hk' : k' ≠ .server r.id := fun h => hk (List.mem_map.mpr ⟨_, hmem, h⟩)
      rw [Tx.changes_write_of_ne hk']
      exact hJ.found k' r' hmem
    · obtain ⟨rfl, rfl⟩ := Prod.mk.inj (List.mem_singleton.mp hmem)
      exact ⟨written, hw, valid⟩

/-- One of the rows found is changed. -/
theorem Locks.write {P : Server → Bool} {pre : Tx Key Row Empty} {found : List (Key × Server)} {r r' : Server}
    {base : Option Row}
    (h : Locks p P pre found tx) (hr : (k, r) ∈ found) :
    (tx.write k base (some (.server r'))).changes k = some ⟨some (.server r), some (.server r'), false⟩ ∧
    ∀ k' c, (tx.write k base (some (.server r'))).changes k' = some c →
      (k' = k ∧ c = ⟨some (.server r), some (.server r'), false⟩) ∨ pre.changes k' = some c ∨
        ∃ id r, k' = .server id ∧ c = lockOf r := by
  have written : (tx.write k base (some (.server r'))).changes k =
      some ⟨some (.server r), some (.server r'), false⟩ := by
    rw [Tx.changes_write, (h.found k r hr).1]
    rfl
  refine ⟨written, fun k' c hc => ?_⟩
  by_cases hk : k' = k
  · subst hk
    exact Or.inl ⟨rfl, Option.some.inj (hc.symm.trans written)⟩
  · rw [Tx.changes_write_of_ne hk] at hc
    rcases h.changes k' c hc with hc | ⟨r₀, hmem, rfl⟩
    · exact Or.inr (Or.inl hc)
    · obtain ⟨rfl, -⟩ := row_server (h.found k' r₀ hmem).2.2
      exact Or.inr (Or.inr ⟨r₀.id, r₀, rfl, rfl⟩)

/-! ### The calls -/

theorem safe_enroll {req : EnrollmentRequest} : (enroll p req).Safe (spec p) (.enroll req) [] none := by
  unfold enroll
  dsimp only
  split
  · exact safe_refusal rfl
  intro now
  have refused : (Prog.rollback (.answer .internalError) : Handler).Safe (spec p) (.enroll req) []
      (some (.empty now)) :=
    safe_rollback rfl
  refine ⟨refused, fun k r keyed _ => ?_⟩
  cases k with
  | server id => cases keyed
  | draw n =>
    obtain rfl := Option.some.inj keyed
    refine ⟨trivial, safe_selectForUpdate (fun id => Tx.changes_create_of_ne (by simp)) fun found tx hJ => ?_⟩
    cases found with
    | nil => exact safe_rollback rfl
    | cons kr rest =>
      obtain ⟨k, r⟩ := kr
      obtain ⟨held, enrollable, valid⟩ := hJ.found k r (List.mem_cons_self ..)
      obtain ⟨rfl, -⟩ := row_server valid
      simp only [Server.enrollable, Bool.and_eq_true, decide_eq_true_eq, Option.isNone_iff_eq_none] at enrollable
      obtain ⟨⟨⟨token, unused⟩, -⟩, -⟩ := enrollable
      refine safe_byKey_held held rfl (decide_eq_true rfl) (fun r' hr' => ?_) fun base => ?_
      · obtain rfl := Option.some.inj hr'
        exact ⟨rfl, fun _ => Option.some_ne_none _⟩
      · obtain ⟨written, changes⟩ := hJ.write (List.mem_cons_self ..)
        have drawn : (tx.write (.server r.id) base (some (.server (r.activated p n (req.cleaned p) now)))).changes
          (.draw n) =
            some ⟨none, some .draw, true⟩ := by
          rw [Tx.changes_write_of_ne (by simp)]
          exact hJ.keep _ _ Tx.changes_create
        have start : (tx.write (.server r.id) base (some (.server (r.activated p n (req.cleaned p) now)))).start =
          now := hJ.start
        simp only [Option.map_some, servers_put]
        generalize tx.write (.server r.id) base (some (.server (r.activated p n (req.cleaned p) now))) =
          tx' at written changes drawn start
        refine ⟨⟨fun k c hc => ?_, fun k k' n₁ n₂ h h' => ?_, fun _ => rfl⟩, fun id agentToken rollbackToken ha => ?_,
          fun id ha => (by cases ha), fun ha => by cases ha⟩
        · rcases changes k c hc with ⟨rfl, rfl⟩ | hc | ⟨id, r', rfl, rfl⟩
          · have := Lawful.enroll r.id r n rfl token unused drawn
            rwa [start] at this
          · obtain ⟨rfl, rfl⟩ := Tx.changes_create_empty hc
            exact .draw n
          · exact .lock id r'
        · -- only the row activated was unused before and is used now
          have only : ∀ {k n₁}, Activates p tx' k n₁ → k = .server r.id := by
            rintro k n₁ ⟨-, r₁, r₂, hc, unused, used, -⟩
            rcases changes k _ hc with ⟨rfl, -⟩ | hc | ⟨id, r', rfl, hlock⟩
            · rfl
            · cases (Tx.changes_create_empty hc).2
            · cases hlock
              exact absurd unused used
          exact (only h).trans (only h').symm
        · obtain ⟨rfl, rfl, rfl⟩ := Response.enrolled.inj ha
          exact ⟨req, rfl, _, List.mem_cons_self .., n, rfl, drawn, r, _, written, unused, Option.some_ne_none _, rfl⟩

theorem safe_enrollRollback {rollbackToken serverId : String} :
    (enrollRollback p rollbackToken serverId).Safe (spec p) (.enrollRollback rollbackToken serverId) [] none := by
  unfold enrollRollback
  dsimp only
  split
  · exact safe_refusal rfl
  split
  · exact safe_refusal rfl
  intro now
  dsimp only
  split
  · exact safe_rollback rfl
  rename_i compared
  have simple : p.simpleProtocol = true := by
    by_contra prepared
    rw [Credentials.comparedUuid, if_neg prepared] at compared
    cases compared
  refine safe_selectForUpdate (fun _ => rfl) fun found tx hJ => ?_
  cases found with
  | nil => exact safe_rollback rfl
  | cons kr rest =>
    obtain ⟨k, r⟩ := kr
    obtain ⟨held, releasable, valid⟩ := hJ.found k r (List.mem_cons_self ..)
    obtain ⟨rfl, used⟩ := row_server valid
    simp only [Server.releasable, Bool.and_eq_true, decide_eq_true_eq, Option.isNone_iff_eq_none] at releasable
    obtain ⟨⟨⟨⟨token, -⟩, incomplete⟩, -⟩, -⟩ := releasable
    refine safe_byKey_held held rfl (decide_eq_true rfl) (fun r' hr' => ?_) fun base => ?_
    · obtain rfl := Option.some.inj hr'
      exact ⟨rfl, fun h => absurd rfl h⟩
    · obtain ⟨written, changes⟩ := hJ.write (List.mem_cons_self ..)
      have used : r.enrollmentUsedAt ≠ none := used (by rw [token]; exact Option.some_ne_none _)
      refine ⟨commit_of_lawful (fun k c hc => ?_) (fun _ h => by cases h) fun _ => rfl, fun _ _ _ ha => (by cases ha),
        fun _ ha => (by cases ha), fun _ => ⟨_, _, rfl, _, List.mem_cons_self .., _, r, _, written, used, rfl⟩⟩
      rcases changes k c hc with ⟨rfl, rfl⟩ | hc | ⟨id, r', rfl, rfl⟩
      · have lawful : Lawful p (.enrollRollback rollbackToken serverId)
          (tx.write (.server r.id) base (some (.server (r.released now))))
            (.server r.id) _ := .rollback r.id r rfl simple used incomplete
        rwa [show (tx.write (.server r.id) base (some (.server (r.released now)))).start = now from hJ.start] at lawful
      · cases hc
      · exact .lock id r'

/-- The transaction has recorded a heartbeat on the rows found. -/
structure Seeing (p : Credentials) (agentToken : String) (now : Time) (found : List (Key × Server))
    (tx : Tx Key Row Empty) : Prop where
  start : tx.start = now
  changes : ∀ k c, tx.changes k = some c → k ∈ found.map Prod.fst
  found : ∀ k r', (k, r') ∈ found → k = .server r'.id ∧ ∃ r, r.accepts p agentToken = true ∧
    tx.changes k = some ⟨some (.server r), some (.server (r.seen now)), false⟩

theorem Seeing.lawful {agentToken : String} {found : List (Key × Server)}
    (h : Seeing p agentToken now found tx) {k : Key}
    {c : Change Row} (hc : tx.changes k = some c) : Lawful p (.heartbeat agentToken) tx k c := by
  obtain ⟨⟨_, r'⟩, hmem, rfl⟩ := List.mem_map.mp (h.changes k c hc)
  obtain ⟨hk, r, accepted, hc'⟩ := h.found _ r' hmem
  obtain rfl := Option.some.inj (hc'.symm.trans hc)
  rw [show (Prod.fst (_, r') : Key) = .server r'.id from hk, ← h.start]
  exact .heartbeat _ r rfl accepted

theorem safe_recordHeartbeat {agentToken : String} {other : Handler}
    (ho : ∀ tx, other.Safe (spec p) (.heartbeat agentToken) (tx :: past) none) :
    (recordHeartbeat p agentToken fun
      | some r => .answer (.recorded r.id)
      | none => other).Safe (spec p) (.heartbeat agentToken) past none := by
  intro now
  refine safe_update (J := Seeing p agentToken now) ⟨rfl, fun _ _ h => (by cases h), fun _ _ h => by cases h⟩
    (fun snapshot found tx k base r hJ hk hv valid hw => ?_) fun found tx hJ => ?_
  · obtain ⟨rfl, used⟩ := row_server valid
    have untouched : tx.changes (.server r.id) = none :=
      Option.eq_none_iff_forall_ne_some.mpr fun c hc => hk (hJ.changes _ c hc)
    rw [Tx.view_of_unchanged untouched] at hv
    refine ⟨⟨rfl, fun h => absurd rfl h⟩, hJ.start, fun k' c hc => ?_, fun k' r' hmem => ?_⟩
    · rw [List.map_append, List.mem_append]
      by_cases hk' : k' = .server r.id
      · exact Or.inr (hk' ▸ List.mem_singleton_self _)
      · rw [Tx.changes_write_of_ne hk'] at hc
        exact Or.inl (hJ.changes k' c hc)
    · rcases List.mem_append.mp hmem with hmem | hmem
      · have hk' : k' ≠ .server r.id := fun h => hk (List.mem_map.mpr ⟨_, hmem, h⟩)
        rw [Tx.changes_write_of_ne hk']
        exact hJ.found k' r' hmem
      · obtain ⟨rfl, rfl⟩ := Prod.mk.inj (List.mem_singleton.mp hmem)
        exact ⟨rfl, r, hw, by rw [Tx.changes_write, untouched, hv]; rfl⟩
  · refine ⟨commit_heartbeat fun k c hc => hJ.lawful hc, ?_⟩
    cases found with
    | nil => exact ho tx
    | cons kr rest =>
      obtain ⟨k, r'⟩ := kr
      obtain ⟨rfl, r, accepted, hc⟩ := hJ.found k r' (List.mem_cons_self ..)
      refine ⟨fun _ _ _ h => (by cases h), fun id ha => ?_, fun ha => by cases ha⟩
      obtain rfl := Response.recorded.inj ha
      exact ⟨agentToken, rfl, tx, List.mem_cons_self .., r, by rw [hJ.start]; exact hc, accepted⟩

theorem safe_findSelfHost {agentToken tokenHash : String} {next : Option (SelfHost.Server Unit) → Handler}
    (hn : ∀ found past, (next found).Safe (spec p) (.heartbeat agentToken) past none) :
    (findSelfHost p tokenHash next).Safe (spec p) (.heartbeat agentToken) past none := by
  intro o
  dsimp only
  split
  · exact hn none past
  · exact fun now snapshot _ _ => ⟨commit_heartbeat fun _ _ h => (by cases h), hn _ _⟩

theorem safe_syncSelfHost {agentToken : String} {next : Handler}
    (hn : ∀ past, next.Safe (spec p) (.heartbeat agentToken) past none) :
    (syncSelfHost p next).Safe (spec p) (.heartbeat agentToken) past none := by
  intro o
  dsimp only
  split
  swap
  · exact hn past
  rename_i rawToken userId _ _
  refine safe_findSelfHost fun found past o' => ?_
  dsimp only
  split
  · exact hn _
  cases found with
  | none =>
    intro now
    refine ⟨hn _, fun k r keyed _ => ?_⟩
    cases k with
    | draw n => cases keyed
    | server id =>
      obtain ⟨r, hr⟩ : ∃ r', controlPlane userId (p.sha256Hex rawToken) now (.server id) = some (.server r') := ⟨_, rfl⟩
      obtain rfl := Option.some.inj (keyed.symm.trans hr)
      refine ⟨by cases hr; exact ⟨rfl, fun h => absurd rfl h⟩, commit_heartbeat fun k c hc => ?_, hn _⟩
      obtain ⟨rfl, rfl⟩ := Tx.changes_create_empty hc
      exact .install id userId _ r rfl hr
  | some existing =>
    intro now
    -- whether or not the record is still there
    have rest : ∀ tx : Tx Key Row Empty, (∀ k c, tx.changes k = some c → Lawful p (.heartbeat agentToken) tx k c) →
        ∀ past, (Prog.commit (.ask fun o => if o.fails then next else .start fun _ =>
          delete servers (fun r => r.id ≠ existing.id && r.selfHost p && r.status = some "offline")
            (.commit next)) : Handler).Safe
          (spec p) (.heartbeat agentToken) past (some tx) := by
      intro tx lawful past
      refine ⟨commit_heartbeat lawful, fun o'' => ?_⟩
      dsimp only
      split
      · exact hn _
      intro now'
      refine safe_delete (J := fun tx => ∀ k c, tx.changes k = some c → ∃ id r, k = .server id ∧
        c = ⟨some (.server r), none, false⟩)
        (fun _ _ h => by cases h) (fun tx k base r hJ hv valid _ k' c hc => ?_) fun tx hJ => ⟨?_, hn _⟩
      · obtain ⟨rfl, -⟩ := row_server valid
        by_cases hk : k' = .server r.id
        · subst hk
          rw [Tx.changes_write] at hc
          obtain rfl := Option.some.inj hc
          cases hold : tx.changes (.server r.id) with
          | none =>
            rw [Tx.view_of_unchanged hold] at hv
            exact ⟨r.id, r, rfl, by rw [hv]; rfl⟩
          | some c =>
            obtain ⟨id, r₀, -, rfl⟩ := hJ _ c hold
            rw [Tx.view_of_changes hold] at hv
            cases hv
        · rw [Tx.changes_write_of_ne hk] at hc
          exact hJ k' c hc
      · refine commit_heartbeat fun k c hc => ?_
        obtain ⟨id, r, rfl, rfl⟩ := hJ k c hc
        exact .remove id r rfl
    refine safe_byKey (rest _ (fun _ _ h => by cases h) _) fun base r hv valid _ =>
      ⟨fun r' hr' => ?_, rest _ (fun k c hc => ?_) _⟩
    · obtain ⟨hk, used⟩ := row_server valid
      obtain rfl := Option.some.inj hr'
      exact ⟨(Key.server.inj hk).symm, used⟩
    · obtain ⟨hk, -⟩ := row_server valid
      rw [hk] at hc hv
      by_cases hk' : k = .server r.id
      · subst hk'
        rw [Tx.changes_write] at hc
        obtain rfl := Option.some.inj hc
        obtain rfl : base = some (.server r) := hv
        exact .adopt r.id r userId _ rfl
      · rw [Tx.changes_write_of_ne hk'] at hc
        cases hc

theorem serves (q : Request) : (serve p q).Safe (spec p) q [] none := by
  cases q with
  | enroll req =>
    show (enroll p req).Safe (spec p) _ _ _
    exact safe_enroll
  | enrollRollback rollbackToken serverId =>
    show (enrollRollback p rollbackToken serverId).Safe (spec p) _ _ _
    exact safe_enrollRollback
  | heartbeat agentToken =>
    show (heartbeat p agentToken).Safe (spec p) _ _ _
    refine safe_recordHeartbeat fun tx o => ?_
    dsimp only
    split
    · exact safe_syncSelfHost fun past => safe_recordHeartbeat fun _ => safe_refusal rfl
    · exact safe_refusal rfl

/-! ### The history -/

/-- `e` enrolls the server under `k` with the token, and issues the credential made of the bytes `n`. -/
def Enrolls (p : Credentials) (e : Commit Request Key Row Empty) (token : String) (k : Key) (n : Nat) : Prop :=
  (∃ req, e.request = .enroll req ∧ (req.cleaned p).token = token) ∧ Activates p e.tx k n

/-- `e` rolls back the enrollment of the server `r` under `k`. -/
def RollsBack (e : Commit Request Key Row Empty) (k : Key) (r : Server) : Prop :=
  (∃ rollbackToken serverId, e.request = .enrollRollback rollbackToken serverId) ∧
    ∃ r', e.tx.changes k = some ⟨some (.server r), some (.server r'), false⟩ ∧ r.enrollmentUsedAt ≠ none ∧
    r'.enrollmentUsedAt = none

/-- `e` records a heartbeat with the token on the server under `k`. -/
def Heartbeats (p : Credentials) (e : Commit Request Key Row Empty) (agentToken : String) (k : Key) : Prop :=
  e.request = .heartbeat agentToken ∧ ∃ r, r.accepts p agentToken = true ∧
    e.tx.changes k = some ⟨some (.server r), some (.server (r.seen e.tx.start)), false⟩

/-- `e` synchronises the host's own record and thereby removes the server under `k` or takes its credential. -/
def Overwrites (e : Commit Request Key Row Empty) (k : Key) : Prop :=
  (∃ agentToken, e.request = .heartbeat agentToken) ∧ ∃ c r, e.tx.changes k = some c ∧ c.base = some (.server r) ∧
    ∀ r', c.new = some (.server r') → r'.agentTokenHash ≠ r.agentTokenHash

/-- `e` synchronises the host's own record and thereby gives a server the credential of that digest. -/
def Installs (e : Commit Request Key Row Empty) (tokenHash : String) : Prop :=
  (∃ agentToken, e.request = .heartbeat agentToken) ∧ ∃ k c r', e.tx.changes k = some c ∧ c.new = some (.server r') ∧
    r'.agentTokenHash = some tokenHash ∧ ∀ r, c.base = some (.server r) → r.agentTokenHash ≠ some tokenHash

/-- A well-formed database: an enrollment token is that of one server, and no credential is stored that is still to be
    drawn. -/
structure WellFormed (p : Credentials) (rows₀ : Key → Option Row) : Prop where
  valid : ∀ k r, rows₀ k = some r → (spec p).row k r
  unique : ∀ k k' r r', rows₀ k = some (.server r) → rows₀ k' = some (.server r') → r.enrollmentTokenHash ≠ none →
    r.enrollmentTokenHash = r'.enrollmentTokenHash → k = k'
  drawn : ∀ k r n, rows₀ k = some (.server r) → r.accepts p (p.credential n) = true → rows₀ (.draw n) ≠ none

variable {rows₀ rows : Key → Option Row} {log : List (Commit Request Key Row Empty)} {e : Commit Request Key Row Empty}
  {n : Nat} {token : String} {r : Server}

/-- Whatever a call does to a server's row, the enrollment token stays, and rows it adds have none. -/
theorem Lawful.token_kept {c : Change Row} (h : Lawful p q tx k c) (hn : c.new = some (.server r))
    (ht : r.enrollmentTokenHash ≠ none) : ∃ r₀, c.base = some (.server r₀) ∧
      r₀.enrollmentTokenHash = r.enrollmentTokenHash := by
  cases h with
  | install id userId tokenHash r₀ _ row =>
    obtain rfl : r₀ = r := by cases hn; rfl
    cases row
    exact absurd rfl ht
  | draw | remove => cases hn
  | lock | enroll | rollback | heartbeat | adopt =>
    cases hn
    exact ⟨_, rfl, rfl⟩

theorem token_from_start (h : Serial (spec p) rows₀ log rows) :
    ∀ r, rows k = some (.server r) → r.enrollmentTokenHash ≠ none →
    ∃ r₀, rows₀ k = some (.server r₀) ∧ r₀.enrollmentTokenHash = r.enrollmentTokenHash := by
  induction h with
  | nil => exact fun r hr _ => ⟨r, hr, rfl⟩
  | @cons log rows e _ ok base _ ih =>
    intro r hr ht
    cases hc : e.tx.changes k with
    | none =>
      rw [show e.tx.apply rows k = rows k from Tx.view_of_unchanged hc] at hr
      exact ih r hr ht
    | some c =>
      rw [show e.tx.apply rows k = c.new from Tx.view_of_changes hc] at hr
      obtain ⟨r', hb, heq⟩ := (ok.1 k c hc).token_kept hr ht
      obtain ⟨r₀, hr₀, heq₀⟩ := ih r' ((base k c hc).symm.trans hb) (heq ▸ ht)
      exact ⟨r₀, hr₀, heq₀.trans heq⟩

/-- No two servers have the same enrollment token, at whatever two points of the history. -/
theorem WellFormed.same_server (wf : WellFormed p rows₀) {log' : List (Commit Request Key Row Empty)}
    {rows' : Key → Option Row}
    {k' : Key} {r' : Server} (h : Serial (spec p) rows₀ log rows) (h' : Serial (spec p) rows₀ log' rows')
    (hr : rows k = some (.server r)) (hr' : rows' k' = some (.server r')) (ht : r.enrollmentTokenHash = some token)
    (ht' : r'.enrollmentTokenHash = some token) : k = k' := by
  have some_ : ∀ {o : Option String}, o = some token → o ≠ none := fun h => by rw [h]; exact Option.some_ne_none _
  obtain ⟨r₀, hr₀, heq⟩ := token_from_start h r hr (some_ ht)
  obtain ⟨r₀', hr₀', heq'⟩ := token_from_start h' r' hr' (some_ ht')
  exact wf.unique k k' r₀ r₀' hr₀ hr₀' (heq ▸ some_ ht) (heq.trans (ht.trans (ht'.symm.trans heq'.symm)))

/-- An enrollment found the server unused, by its token. -/
theorem Enrolls.found (h : Enrolls p e token k n)
    (lawful : ∀ k c, e.tx.changes k = some c → Lawful p e.request e.tx k c) : ∃ r r' : Server,
      e.tx.changes k = some ⟨some (.server r), some (.server r'), false⟩ ∧
      r.enrollmentTokenHash = some (p.sha256Hex token) ∧
      r.enrollmentUsedAt = none ∧ r'.enrollmentUsedAt ≠ none ∧
      r'.agentTokenHash = some (p.sha256Hex (p.credential n)) := by
  obtain ⟨⟨req, asked, rfl⟩, -, r, r', hc, unused, used, hash⟩ := h
  refine ⟨r, r', hc, ?_, unused, used, hash⟩
  generalize hd : (⟨some (.server r), some (.server r'), false⟩ : Change Row) = c at hc
  have := lawful k c hc
  cases this with
  | enroll id r₀ n₀ asked' token =>
    obtain rfl : r = r₀ := by cases hd; rfl
    obtain rfl := Request.enroll.inj (asked.symm.trans asked')
    exact token
  | rollback => cases hd; exact absurd rfl used
  | lock | heartbeat | adopt => cases hd; exact absurd unused used
  | draw | remove | install => cases hd

/-- A rollback found the server used and not completed, by a statement that was not prepared. -/
theorem RollsBack.found (h : RollsBack e k r) (lawful : ∀ k c, e.tx.changes k = some c → Lawful p e.request e.tx k c) :
    p.simpleProtocol = true ∧ r.bootstrapCompletedAt = none := by
  obtain ⟨⟨rollbackToken, serverId, asked⟩, r', hc, used, unused⟩ := h
  generalize hd : (⟨some (.server r), some (.server r'), false⟩ : Change Row) = c at hc
  have := lawful k c hc
  cases this with
  | rollback id r₀ asked' simple held incomplete =>
    obtain rfl : r = r₀ := by cases hd; rfl
    exact ⟨simple, incomplete⟩
  | lock => cases hd; exact absurd unused used
  | enroll _ _ _ asked' | heartbeat _ _ asked' | adopt _ _ _ _ asked' | remove _ _ asked' | install _ _ _ _ asked' =>
    cases asked.symm.trans asked'
  | draw => cases hd

/-! ### Counting -/

open Classical in
/-- How many commits of the log satisfy `P`. -/
noncomputable def count (P : Commit Request Key Row Empty → Prop) (log : List (Commit Request Key Row Empty)) : Nat :=
  log.countP fun e => P e

theorem count_cons_of_pos {P : Commit Request Key Row Empty → Prop} (h : P e) :
    count P (e :: log) = count P log + 1 := by
  simp [count, h]

theorem count_cons_of_neg {P : Commit Request Key Row Empty → Prop} (h : ¬P e) : count P (e :: log) = count P log := by
  simp [count, h]

/-- `e` is a successful enrollment with the token. -/
def Enrolled (p : Credentials) (token : String) (e : Commit Request Key Row Empty) : Prop :=
  ∃ k n, Enrolls p e token k n

/-- `e` is a successful rollback of an enrollment with the token. -/
def Undone (p : Credentials) (token : String) (e : Commit Request Key Row Empty) : Prop :=
  ∃ k r, RollsBack e k r ∧ r.enrollmentTokenHash = some (p.sha256Hex token)

/-- The server of the token is enrolled. -/
def Used (p : Credentials) (token : String) (rows : Key → Option Row) : Prop :=
  ∃ k r, rows k = some (.server r) ∧ r.enrollmentTokenHash = some (p.sha256Hex token) ∧ r.enrollmentUsedAt ≠ none

/-- What is neither an enrollment with the token nor a rollback of one leaves its server used or unused. -/
theorem Lawful.used_kept (ideal : p.Ideal) (lawful : ∀ k c, e.tx.changes k = some c → Lawful p e.request e.tx k c)
    (notEnrolled : ¬Enrolled p token e) (notUndone : ¬Undone p token e) {c : Change Row} (hc : e.tx.changes k = some c)
    (hn : c.new = some (.server r)) (ht : r.enrollmentTokenHash = some (p.sha256Hex token)) :
    ∃ r₀, c.base = some (.server r₀) ∧ r₀.enrollmentTokenHash = some (p.sha256Hex token) ∧
      (r.enrollmentUsedAt ≠ none ↔ r₀.enrollmentUsedAt ≠ none) := by
  have h := lawful k c hc
  cases h with
  | lock | heartbeat | adopt =>
    cases hn
    exact ⟨_, rfl, ht, Iff.rfl⟩
  | enroll id r₀ n asked token' unused drawn =>
    cases hn
    obtain rfl := ideal.digest (Option.some.inj (token'.symm.trans ht))
    exact absurd ⟨_, n, ⟨_, asked, rfl⟩, drawn, r₀, _, hc, unused, Option.some_ne_none _, rfl⟩ notEnrolled
  | rollback id r₀ asked _ used =>
    cases hn
    exact absurd ⟨_, r₀, ⟨⟨_, _, asked⟩, _, hc, used, rfl⟩, ht⟩ notUndone
  | install id userId tokenHash r₀ _ row =>
    obtain rfl : r₀ = r := by cases hn; rfl
    cases row
    cases ht
  | draw | remove => cases hn

open Classical in
/-- One if the server of the token is enrolled. -/
noncomputable def standing (p : Credentials) (token : String) (rows : Key → Option Row) : Nat :=
  if Used p token rows then 1 else 0

/-- The enrollments with a token outnumber the rollbacks of them by one if its server is used, and by none if it is
    not. -/
theorem balance (ideal : p.Ideal) (wf : WellFormed p rows₀) (h : Serial (spec p) rows₀ log rows) : ∃ b ≤ 1,
    count (Enrolled p token) log + standing p token rows₀ = count (Undone p token) log + b ∧
    ∀ k r, rows k = some (.server r) → r.enrollmentTokenHash = some (p.sha256Hex token) →
    (r.enrollmentUsedAt ≠ none ↔ b = 1) := by
  induction h with
  | nil =>
    refine ⟨standing p token rows₀, ?_, by simp [count], fun k r hr ht => ?_⟩
    · unfold standing
      split <;> omega
    · unfold standing
      split
      · rename_i used
        obtain ⟨k', r', hr', ht', used⟩ := used
        obtain rfl := wf.same_server (.nil) .nil hr hr' ht ht'
        cases hr.symm.trans hr'
        exact ⟨fun _ => rfl, fun _ => used⟩
      · rename_i unused
        exact ⟨fun used => absurd ⟨k, r, hr, ht, used⟩ unused, fun h => by cases h⟩
  | @cons log rows e earlier ok base fresh ih =>
    have after : Serial (spec p) rows₀ (e :: log) (e.tx.apply rows) := .cons earlier ok base fresh
    obtain ⟨b, hb, sum, ih⟩ := ih
    -- where a commit changes the server of the token, that server alone tells the new balance
    have only : ∀ {k : Key} {r r' : Server} {b' : Nat}, e.tx.changes k =
      some ⟨some (.server r), some (.server r'), false⟩ →
        r.enrollmentTokenHash = some (p.sha256Hex token) → (r'.enrollmentUsedAt ≠ none ↔ b' = 1) → ∀ k₂ r₂,
          e.tx.apply rows k₂ = some (.server r₂) → r₂.enrollmentTokenHash = some (p.sha256Hex token) →
            (r₂.enrollmentUsedAt ≠ none ↔ b' = 1) := by
      intro k r r' b' hc ht used k₂ r₂ hr₂ ht₂
      obtain rfl := wf.same_server after earlier hr₂ (base k _ hc).symm ht₂ ht
      cases hr₂.symm.trans (show e.tx.apply rows k₂ = _ from Tx.view_of_changes hc)
      exact used
    by_cases enrolled : Enrolled p token e
    · have ⟨k, n, enrolls⟩ := enrolled
      obtain ⟨r, r', hc, ht, unused, used, -⟩ := enrolls.found ok.1
      have notUndone : ¬Undone p token e := by
        rintro ⟨_, _, ⟨⟨_, _, asked⟩, _⟩, -⟩
        obtain ⟨⟨_, asked', -⟩, -⟩ := enrolls
        cases asked.symm.trans asked'
      have was := ih k r (base k _ hc).symm ht
      rw [count_cons_of_pos enrolled, count_cons_of_neg notUndone]
      have : b ≠ 1 := fun h => was.mpr h unused
      exact ⟨1, le_rfl, by omega, only hc ht ⟨fun _ => rfl, fun _ => used⟩⟩
    by_cases undone : Undone p token e
    · have ⟨k, r, ⟨_, r', hc, used, unused⟩, ht⟩ := undone
      have was := (ih k r (base k _ hc).symm ht).mp used
      rw [count_cons_of_neg enrolled, count_cons_of_pos undone]
      exact ⟨0, by omega, by omega, only hc ht ⟨fun used => absurd unused used, fun h => by cases h⟩⟩
    · rw [count_cons_of_neg enrolled, count_cons_of_neg undone]
      refine ⟨b, hb, sum, fun k r hr ht => ?_⟩
      cases hc : e.tx.changes k with
      | none => exact ih k r ((Tx.view_of_unchanged hc).symm.trans hr) ht
      | some c =>
        obtain ⟨r₀, hr₀, ht₀, same⟩ :=
          Lawful.used_kept ideal ok.1 enrolled undone hc ((Tx.view_of_changes hc).symm.trans hr) ht
        exact same.trans (ih k r₀ ((base k c hc).symm.trans hr₀) ht₀)

/-! ### Credentials -/

/-- A row that accepts a credential accepted it before, or was given it by its enrollment or by the synchronisation. -/
theorem Lawful.accepted (ideal : p.Ideal) (lawful : ∀ k c, e.tx.changes k = some c → Lawful p e.request e.tx k c)
    {c : Change Row}
    (hc : e.tx.changes k = some c) (hn : c.new = some (.server r)) (accepts : r.accepts p (p.credential n) = true) :
    (∃ r₀, c.base = some (.server r₀) ∧ r₀.accepts p (p.credential n) = true ∧
      r₀.enrollmentUsedAt = r.enrollmentUsedAt) ∨
    ((∃ token, Enrolls p e token k n) ∧ r.enrollmentUsedAt ≠ none) ∨ Installs e (p.sha256Hex (p.credential n)) := by
  have h := lawful k c hc
  cases h with
  | lock | heartbeat =>
    cases hn
    exact Or.inl ⟨_, rfl, accepts, rfl⟩
  | enroll id r₀ n' asked _ unused drawn =>
    cases hn
    have hash : p.sha256Hex (p.credential n') = p.sha256Hex (p.credential n) := by
      simpa [SelfHost.Server.accepts, Server.activated] using accepts
    obtain rfl := ideal.credential (ideal.digest hash)
    have used : (some e.tx.start : Option Time) ≠ none := Option.some_ne_none _
    exact Or.inr (Or.inl ⟨⟨_, ⟨_, asked, rfl⟩, drawn, r₀, _, hc, unused, used, rfl⟩, used⟩)
  | rollback =>
    cases hn
    simp [SelfHost.Server.accepts, Server.released] at accepts
  | adopt id r₀ userId tokenHash asked =>
    cases hn
    by_cases had : r₀.accepts p (p.credential n) = true
    · exact Or.inl ⟨r₀, rfl, had, rfl⟩
    · simp only [SelfHost.Server.accepts, Bool.or_eq_true, decide_eq_true_eq, not_or] at had
      have hash : (r₀.adopted userId tokenHash e.tx.start).agentTokenHash = some (p.sha256Hex (p.credential n)) := by
        simpa [SelfHost.Server.accepts, Server.adopted, SelfHost.Server.adopted, had.1] using accepts
      exact Or.inr (Or.inr ⟨⟨_, asked⟩, _, _, _, hc, rfl, hash, fun r hr => by cases hr; exact had.2⟩)
  | install id userId tokenHash r₀ asked row =>
    obtain rfl : r₀ = r := by cases hn; rfl
    have hash : r₀.agentTokenHash = some (p.sha256Hex (p.credential n)) := by
      cases row
      simpa [SelfHost.Server.accepts, SelfHost.controlPlane] using accepts
    exact Or.inr (Or.inr ⟨⟨_, asked⟩, _, _, _, hc, rfl, hash, fun _ h => by cases h⟩)
  | draw | remove => cases hn

/-- A server that accepts a credential is the one it was issued for, and its enrollment stands. -/
theorem held (ideal : p.Ideal) (h : Serial (spec p) rows₀ log rows)
    (absent : ∀ k r, rows₀ k = some (.server r) → r.accepts p (p.credential n) = false)
    (own : ∀ e ∈ log, ¬Installs e (p.sha256Hex (p.credential n))) (hr : rows k = some (.server r))
    (accepts : r.accepts p (p.credential n) = true) : r.enrollmentUsedAt ≠ none ∧ ∃ later e earlier,
      log = later ++ e :: earlier ∧ (∃ token, Enrolls p e token k n) ∧ ∀ e' ∈ later, ∀ r', ¬RollsBack e' k r' := by
  induction h generalizing r with
  | nil =>
    rw [absent k r hr] at accepts
    cases accepts
  | @cons log rows e _ ok base _ ih =>
    have ih := fun r => @ih r fun e' he' => own e' (List.mem_cons_of_mem _ he')
    cases hc : e.tx.changes k with
    | none =>
      obtain ⟨used, later, e', earlier, rfl, enrolls, stands⟩ := ih r ((Tx.view_of_unchanged hc).symm.trans hr) accepts
      refine ⟨used, e :: later, e', earlier, rfl, enrolls, List.forall_mem_cons.mpr ⟨?_, stands⟩⟩
      rintro r' ⟨-, r'', hc', -⟩
      cases hc.symm.trans hc'
    | some c =>
      have hn : c.new = some (.server r) := (Tx.view_of_changes hc).symm.trans hr
      rcases Lawful.accepted ideal ok.1 hc hn accepts with ⟨r₀, hb, accepted, same⟩ | ⟨enrolls, used⟩ | installs
      · obtain ⟨used, later, e', earlier, rfl, enrolls, stands⟩ := ih r₀ ((base k c hc).symm.trans hb) accepted
        refine ⟨same ▸ used, e :: later, e', earlier, rfl, enrolls, List.forall_mem_cons.mpr ⟨?_, stands⟩⟩
        rintro r' ⟨-, r'', hc', -, unused⟩
        obtain rfl := Option.some.inj (hc.symm.trans hc')
        cases hn
        exact used (same.trans unused)
      · exact ⟨used, [], e, log, rfl, enrolls, fun _ h => by cases h⟩
      · exact absurd installs (own e (List.mem_cons_self ..))

/-- The server enrolled keeps its credential until a rollback or the synchronisation takes it. -/
theorem kept {later earlier : List (Commit Request Key Row Empty)}
    (h : Serial (spec p) rows₀ (later ++ e :: earlier) rows)
    (enrolls : Enrolls p e token k n) (stands : ∀ e' ∈ later, ∀ r, ¬RollsBack e' k r)
    (own : ∀ e' ∈ later, ¬Overwrites e' k) :
    ∃ r, rows k = some (.server r) ∧ r.agentTokenHash = some (p.sha256Hex (p.credential n)) ∧
      r.enrollmentUsedAt ≠ none := by
  induction later generalizing rows with
  | nil =>
    cases h with
    | cons _ ok =>
      obtain ⟨r, r', hc, -, -, used, hash⟩ := enrolls.found ok.1
      exact ⟨r', Tx.view_of_changes hc, hash, used⟩
  | cons x later ih =>
    cases h with
    | @cons _ rows _ before ok base _ =>
      obtain ⟨r, hr, hash, used⟩ := ih before (fun e' he' => stands e' (List.mem_cons_of_mem _ he'))
        fun e' he' => own e' (List.mem_cons_of_mem _ he')
      cases hc : x.tx.changes k with
      | none => exact ⟨r, (Tx.view_of_unchanged hc).trans hr, hash, used⟩
      | some c =>
        have hb := (base k c hc).trans hr
        have taken : ∀ {agentToken}, x.request = .heartbeat agentToken →
            ∃ r', c.new = some (.server r') ∧ r'.agentTokenHash = r.agentTokenHash := by
          intro agentToken asked
          by_contra no
          exact own x (List.mem_cons_self ..) ⟨⟨_, asked⟩, c, r, hc, hb, fun r' hr' same => no ⟨r', hr', same⟩⟩
        have now : ∀ {r'}, c.new = some (.server r') → x.tx.apply rows k = some (.server r') := fun hn =>
          (Tx.view_of_changes hc).trans hn
        have h := ok.1 k c hc
        cases h with
        | lock | heartbeat =>
          cases hb
          exact ⟨_, now rfl, hash, used⟩
        | enroll _ _ _ _ _ unused =>
          cases hb
          exact absurd unused used
        | rollback _ r₀ asked =>
          cases hb
          exact absurd ⟨⟨_, _, asked⟩, _, hc, used, rfl⟩ (stands x (List.mem_cons_self ..) _)
        | adopt _ _ _ _ asked =>
          cases hb
          obtain ⟨r', hn, same⟩ := taken asked
          cases hn
          exact ⟨_, now rfl, same.trans hash, used⟩
        | remove _ _ asked =>
          obtain ⟨r', hn, -⟩ := taken asked
          cases hn
        | draw | install => cases hb

/-- A server once seen after its enrollment is used and completed from then on. -/
theorem completed_kept {later earlier : List (Commit Request Key Row Empty)} {r₀ : Server}
    (h : Serial (spec p) rows₀ (later ++ e :: earlier) rows)
    (hc : e.tx.changes k = some ⟨some (.server r₀), some (.server (r₀.seen e.tx.start)), false⟩)
    (used₀ : r₀.enrollmentUsedAt ≠ none) (hr : rows k = some (.server r)) :
    r.bootstrapCompletedAt ≠ none ∧ r.enrollmentUsedAt ≠ none := by
  induction later generalizing rows r with
  | nil =>
    cases h with
    | cons =>
      cases (Tx.view_of_changes hc).symm.trans hr
      exact ⟨Option.some_ne_none _, used₀⟩
  | cons x later ih =>
    cases h with
    | @cons _ rows _ before ok base fresh =>
      cases hx : x.tx.changes k with
      | none => exact ih before ((Tx.view_of_unchanged hx).symm.trans hr)
      | some c =>
        have hn : c.new = some (.server r) := (Tx.view_of_changes hx).symm.trans hr
        have was : ∀ {r₁}, c.base = some (.server r₁) → r₁.bootstrapCompletedAt ≠ none ∧
            r₁.enrollmentUsedAt ≠ none := fun hb =>
          ih before ((base k c hx).symm.trans hb)
        have h := ok.1 k c hx
        cases h with
        | lock | adopt =>
          cases hn
          exact ⟨(was rfl).1, (was rfl).2⟩
        | enroll _ _ _ _ _ unused => exact absurd unused (was rfl).2
        | rollback _ _ _ _ _ incomplete => exact absurd incomplete (was rfl).1
        | heartbeat =>
          cases hn
          exact ⟨Option.some_ne_none _, (was rfl).2⟩
        | install =>
          -- the row is there, so its key is not a new one
          have := (fresh _ _ hx rfl).2 e (by simp)
          rw [hc] at this
          cases this
        | draw | remove => cases hn

/-! ### The run -/

/-- What enrollment promises of a state that a run has reached. -/
structure ExactlyOnce (p : Credentials) (rows₀ : Key → Option Row)
    (s : State Request Key Row Empty Outside Response) : Prop where
  /-- an enrollment or a rollback commits once at most -/
  single : s.log.Pairwise fun e e' => e.session = e'.session → ∃ agentToken, e.request = .heartbeat agentToken
  /-- what a call tells of, it has committed -/
  answers : ∀ i session a, s.sessions i = some session → session.control = .answered a →
    (∀ id agentToken rollbackToken, a = .enrolled id agentToken rollbackToken → ∃ e ∈ s.log, e.session = i ∧ ∃ token n,
      Enrolls p e token (.server id) n ∧ agentToken = p.credential n) ∧
    (a = .noContent → ∃ e ∈ s.log, e.session = i ∧ ∃ k r, RollsBack e k r) ∧
    ∀ id, a = .recorded id → ∃ e ∈ s.log, e.session = i ∧ ∃ agentToken, Heartbeats p e agentToken (.server id)
  balance : ∀ token, ∃ b ≤ 1, count (Enrolled p token) s.log + standing p token rows₀ = count (Undone p token) s.log + b
  accepted : ∀ later e earlier token k n, s.log = later ++ e :: earlier → Enrolls p e token k n →
    (∀ e' ∈ later, ∀ r, ¬RollsBack e' k r) → (∀ e' ∈ later, ¬Overwrites e' k) →
      ∃ r, s.rows k = some (.server r) ∧ r.accepts p (p.credential n) = true
  refused : ∀ later e earlier token k n, s.log = later ++ e :: earlier → Enrolls p e token k n →
    (∃ e' ∈ later, ∃ r, RollsBack e' k r) → (∀ e' ∈ s.log, ¬Installs e' (p.sha256Hex (p.credential n))) →
      ∀ k' r, s.rows k' = some (.server r) → r.accepts p (p.credential n) = false
  final : ∀ later e earlier k' n, s.log = later ++ e :: earlier → Heartbeats p e (p.credential n) k' →
    (∀ e' ∈ s.log, ¬Installs e' (p.sha256Hex (p.credential n))) → ∀ e₀ ∈ s.log, ∀ token k, Enrolls p e₀ token k n →
      ∀ e' ∈ later, (∀ r, ¬RollsBack e' k r) ∧ ¬Enrolled p token e'

variable {s : State Request Key Row Empty Outside Response}

/-- The credential that an enrollment issues is not stored before. -/
theorem WellFormed.absent (wf : WellFormed p rows₀) (h : Serial (spec p) rows₀ log rows) (he : e ∈ log)
    (enrolls : Enrolls p e token k n)
    (k' : Key) (r : Server) (hr : rows₀ k' = some (.server r)) : r.accepts p (p.credential n) = false := by
  obtain ⟨-, drawn, -⟩ := enrolls
  refine Bool.eq_false_iff.mpr fun accepts => wf.drawn k' r n hr accepts ?_
  exact h.unborn he drawn rfl

/-- What holds of the server that accepts a credential holds of the one it was issued for. -/
theorem held_by (ideal : p.Ideal) (wf : WellFormed p rows₀)
    {later earlier : List (Commit Request Key Row Empty)} {k' : Key}
    {rows' : Key → Option Row} (h : Serial (spec p) rows₀ log rows) (he : e ∈ log) (enrolls : Enrolls p e token k n)
    (own : ∀ e' ∈ log, ¬Installs e' (p.sha256Hex (p.credential n))) (hlog : log = later ++ earlier)
    (h' : Serial (spec p) rows₀ earlier rows') (hr : rows' k' = some (.server r))
    (accepts : r.accepts p (p.credential n) = true) :
    k' = k ∧ r.enrollmentUsedAt ≠ none ∧ ∃ l m, earlier = l ++ e :: m ∧ ∀ e' ∈ l, ∀ r', ¬RollsBack e' k r' := by
  subst hlog
  obtain ⟨used, l, e₁, m, rfl, ⟨token₁, enrolls₁⟩, stands⟩ := held ideal h' (wf.absent h he enrolls)
    (fun e' he' => own e' (List.mem_append_right _ he')) hr accepts
  -- the bytes of the credential were drawn by one commit
  obtain ⟨l₀, m₀, hsplit⟩ := List.mem_iff_append.mp he
  have h₀ := hsplit ▸ h
  obtain ⟨-, rfl, -⟩ :=
    Serial.creates_once h₀ (hsplit.symm.trans (List.append_assoc later l (e₁ :: m)).symm) enrolls.2.1 rfl
    enrolls₁.2.1 rfl
  obtain ⟨_, ok, -⟩ := h.ok he
  obtain rfl : k' = k := ok.2.1 k' k n n enrolls₁.2 enrolls.2
  exact ⟨rfl, used, l, m, rfl, stands⟩

/-- Where statements are prepared, as they are by default, PostgreSQL refuses to look for the enrollment: none is ever
    rolled back. -/
theorem not_rollsBack_of_prepared (prepared : p.simpleProtocol = false) (wf : WellFormed p rows₀)
    (h : Reachable (serve p) rows₀ s) : ∀ e ∈ s.log, ∀ k r, ¬RollsBack e k r := by
  intro e he k r rollsBack
  have consistent : Consistent (spec p) rows₀ s := h.consistent serves wf.valid
  obtain ⟨_, ok, -⟩ := consistent.history.ok he
  obtain ⟨simple, -⟩ := rollsBack.found ok.1
  rw [prepared] at simple
  cases simple

theorem enrolls_once (ideal : p.Ideal) (wf : WellFormed p rows₀) (h : Reachable (serve p) rows₀ s) :
    ExactlyOnce p rows₀ s := by
  have consistent : Consistent (spec p) rows₀ s := h.consistent serves wf.valid
  have history := consistent.history
  have attributed := h.attributed
  have once := history.commits_once (P := fun q => ∀ agentToken, q ≠ .heartbeat agentToken)
    fun q past tx (ok : (spec p).commit q past tx) => ok.2.2
  refine ⟨once.imp fun alone same => ?_, ?_, fun token => ?_, ?_, ?_, ?_⟩
  · by_contra no
    exact alone same fun agentToken asked => no ⟨agentToken, asked⟩
  · intro i session a hs ha
    have told : (spec p).answer session.request (s.past i) a := by
      have safe := consistent.safe i session hs
      rwa [Session.Safe, ha] at safe
    refine ⟨fun id agentToken rollbackToken h => ?_, fun h => ?_, fun id h => ?_⟩
    · obtain ⟨req, asked, tx, htx, n, rfl, activates⟩ := told.1 id agentToken rollbackToken h
      obtain ⟨e, he, hi, rfl, hq⟩ := attributed.request hs htx
      exact ⟨e, he, hi, _, n, ⟨⟨req, hq.trans asked, rfl⟩, activates⟩, rfl⟩
    · obtain ⟨rollbackToken, serverId, asked, tx, htx, k, r, r', hc, used, unused⟩ := told.2.2 h
      obtain ⟨e, he, hi, rfl, hq⟩ := attributed.request hs htx
      exact ⟨e, he, hi, k, r, ⟨_, _, hq.trans asked⟩, r', hc, used, unused⟩
    · obtain ⟨agentToken, asked, tx, htx, r, hc, accepts⟩ := told.2.1 id h
      obtain ⟨e, he, hi, rfl, hq⟩ := attributed.request hs htx
      exact ⟨e, he, hi, agentToken, hq.trans asked, r, accepts, hc⟩
  · obtain ⟨b, hb, sum, -⟩ := balance ideal wf history
    exact ⟨b, hb, sum⟩
  · intro later e earlier token k n hlog enrolls stands own
    obtain ⟨r, hr, hash, -⟩ := kept (hlog ▸ history) enrolls stands own
    exact ⟨r, hr, by simp [SelfHost.Server.accepts, hash]⟩
  · intro later e earlier token k n hlog enrolls undone own k' r hr
    refine Bool.eq_false_iff.mpr fun accepts => ?_
    have he : e ∈ s.log := by simp [hlog]
    obtain ⟨-, -, l, m, hsplit, stands⟩ :=
      held_by ideal wf history he enrolls own (List.nil_append _).symm history hr accepts
    obtain ⟨rfl, -, -⟩ := Serial.creates_once (hlog ▸ history) (hlog.symm.trans hsplit) enrolls.2.1 rfl enrolls.2.1 rfl
    obtain ⟨e', he', r', rollsBack⟩ := undone
    exact stands e' he' r' rollsBack
  · intro later e earlier k' n hlog heartbeats own e₀ he₀ token k enrolls e' he'
    obtain ⟨-, r, accepts, hc⟩ := heartbeats
    obtain ⟨rows', before, -, base⟩ := Serial.before (hlog ▸ history)
    obtain ⟨rfl, used, -⟩ := held_by ideal wf history he₀ enrolls own
      (show s.log = (later ++ [e]) ++ earlier by simp [hlog]) before
      (base k' _ hc).symm accepts
    -- the rows that the commit met
    obtain ⟨later', between, rfl⟩ := List.mem_iff_append.mp he'
    have hlog' : s.log = later' ++ e' :: (between ++ e :: earlier) := by simp [hlog]
    obtain ⟨rows'', before', ok', base'⟩ := Serial.before (hlog' ▸ history)
    refine ⟨fun r' rollsBack => ?_, ?_⟩
    · obtain ⟨-, incomplete⟩ := rollsBack.found ok'.1
      obtain ⟨-, r'', hc', -⟩ := rollsBack
      exact (completed_kept before' hc used (base' k' _ hc').symm).1 incomplete
    · rintro ⟨k'', m, enrolls'⟩
      obtain ⟨r', r'', hc', ht', unused, -⟩ := enrolls'.found ok'.1
      obtain ⟨l₀, m₀, hsplit⟩ := List.mem_iff_append.mp he₀
      obtain ⟨rows₁, before₁, ok₁, base₁⟩ := Serial.before (hsplit ▸ history)
      obtain ⟨r₁, r₂, hc₁, ht₁, -⟩ := enrolls.found ok₁.1
      obtain rfl := wf.same_server before' before₁ (base' k'' _ hc').symm (base₁ k' _ hc₁).symm ht' ht₁
      exact (completed_kept before' hc used (base' k'' _ hc').symm).2 unused

/-! ### Two runs -/

/-- For examples: credentials are as long as the bytes drawn say, and a uuid as long as its text. -/
def tallyCredentials : Credentials where
  sha256Hex text := "#" ++ text
  credential n := String.ofList (List.replicate n 'x')
  rollbackToken n := String.ofList (List.replicate n 'y')
  toLower := .asciiOnly
  sqlLower := .asciiOnly
  uuidIn text := if text = "" then none else some text.length
  simpleProtocol := true

theorem tallyCredentials_ideal : tallyCredentials.Ideal where
  digest a b h := by
    have h : "#" ++ a = "#" ++ b := h
    simpa [← String.toList_inj] using h
  credential a b h := by simpa using congrArg List.length (String.ofList_injective h)

/-- The record of the host itself, which waits for its enrollment. -/
def waiting : Server where
  id := 1
  userId := 7
  name := "web"
  tags := some ["self-host"]
  status := some "offline"
  agentToken := none
  agentTokenHash := none
  enrolledAt := none
  lastSeenAt := none
  createdAt := some 0
  updatedAt := some 0
  rest := ()
  enrollmentTokenHash := some "#enroll"
  enrollmentTokenExpiresAt := some (60 * minute)
  enrollmentUsedAt := none
  hostname := none
  architecture := none
  bootstrapRollbackTokenHash := none
  bootstrapRollbackExpiresAt := none
  bootstrapCompletedAt := none
  deletionStatus := .active

/-- One server that waits for its agent. -/
def fleet : List (Key × Row) := [(.server 1, .server waiting)]

theorem fleet_rows (h : fleet.lookup k = some (.server r)) : k = .server 1 ∧ r = waiting := by
  simp only [fleet, List.lookup_cons, List.lookup_nil] at h
  split at h
  · rename_i hk
    cases h
    exact ⟨beq_iff_eq.mp hk, rfl⟩
  · cases h

theorem fleet_wellFormed : WellFormed tallyCredentials (fun k => fleet.lookup k) where
  valid k r h := by
    cases r with
    | server r =>
      obtain ⟨rfl, rfl⟩ := fleet_rows h
      exact ⟨rfl, fun held => absurd rfl held⟩
    | draw =>
      simp only [fleet, List.lookup_cons, List.lookup_nil] at h
      split at h <;> cases h
  unique k k' r r' h h' _ _ := (fleet_rows h).1.trans (fleet_rows h').1.symm
  drawn k r n h accepts := by
    obtain ⟨rfl, rfl⟩ := fleet_rows h
    simp [SelfHost.Server.accepts, waiting] at accepts

/-- The request of its agent. -/
def enrolling : Request := .enroll ⟨"enroll", "", "", "", "", ""⟩

/-- Session `i` takes its next `n` steps. -/
def turns (i n : Nat) : List (Move Request Key Outside) := List.replicate n (.next i)

/-- The agent enrolls. -/
def enrollWaiting : List (Move Request Key Outside) :=
  [.arrive 0 enrolling, .next 0, .insert 0 (.draw 2)] ++ turns 0 6

/-- The outside as the host's own monitor finds it. -/
def selfMonitor : Outside := ⟨⟨none, "self".toList, some 7⟩, false, 0⟩

/-- The host's own monitor sends a heartbeat, and its synchronisation gives the host's record the credential
configured. -/
def adoptWaiting : List (Move Request Key Outside) :=
  .arrive 1 (.heartbeat "self") :: turns 1 3 ++ List.replicate 3 (.reply 1 selfMonitor) ++ turns 1 3 ++
    .reply 1 selfMonitor ::
    turns 1 4 ++ .reply 1 selfMonitor :: turns 1 8

/-- The agent enrolled sends one. -/
def beat : List (Move Request Key Outside) :=
  .arrive 2 (.heartbeat "xx") :: turns 2 3 ++ .reply 2 selfMonitor :: turns 2 1

/-- For examples: the commit enrolls server 1. -/
def issues (e : Commit Request Key Row Empty) : Bool :=
  e.request = enrolling && match e.tx.changes (.draw 2), e.tx.changes (.server 1) with
    | some ⟨none, some .draw, true⟩, some ⟨some (.server r), some (.server r'), false⟩ =>
      r.enrollmentUsedAt.isNone && r'.enrollmentUsedAt.isSome && r'.agentTokenHash = some "#xx"
    | _, _ => false

theorem enrolls_of_check (h : issues e = true) : Enrolls tallyCredentials e "enroll" (.server 1) 2 := by
  obtain ⟨asked, h⟩ := Bool.and_eq_true_iff.mp h
  split at h
  · rename_i r r' drawn hc
    simp only [Bool.and_eq_true, Option.isNone_iff_eq_none, Option.isSome_iff_ne_none, decide_eq_true_eq] at h
    exact ⟨⟨_, of_decide_eq_true asked, by decide +kernel⟩, drawn, r, r', hc, h.1.1, h.1.2, h.2⟩
  · cases h

/-- For examples: no rollback has been committed, and no server accepts the credential issued. -/
def lost (s : Listed Request Key Row Empty Outside Response) : Bool :=
  s.log.any issues && s.log.all (fun e => match e.request with | .enrollRollback .. => false | _ => true) &&
    s.keys.all (fun k => ((s.rows k).bind Row.server?).all fun r => !r.accepts tallyCredentials "xx") &&
    s.served 2 = some (.heartbeat "xx", .unauthorized)

/-- A credential that was never rolled back is refused. -/
theorem credential_taken : tallyCredentials.Ideal ∧ WellFormed tallyCredentials (fun k => fleet.lookup k) ∧
    ∃ s, Reachable (serve tallyCredentials) (fun k => fleet.lookup k) s ∧
      (∃ e ∈ s.log, Enrolls tallyCredentials e "enroll" (.server 1) 2) ∧ (∀ e ∈ s.log, ∀ k r, ¬RollsBack e k r) ∧
      (∀ k r, s.rows k = some (.server r) → r.accepts tallyCredentials (tallyCredentials.credential 2) = false) ∧
      ∃ tx, s.sessions 2 = some ⟨.heartbeat (tallyCredentials.credential 2), .answered .unauthorized, tx⟩ := by
  obtain ⟨s, reachable, h⟩ := Listed.reachable_of_check (serve tallyCredentials) 0 fleet
    (enrollWaiting ++ adoptWaiting ++ beat) lost
    (by decide +kernel)
  have consistent : Consistent (spec tallyCredentials) (fun k => fleet.lookup k) s.state :=
    reachable.consistent serves fleet_wellFormed.valid
  simp only [lost, Bool.and_eq_true, decide_eq_true_eq, List.all_eq_true, List.any_eq_true] at h
  obtain ⟨⟨⟨⟨e, he, issued⟩, stands⟩, refused⟩, served⟩ := h
  refine ⟨tallyCredentials_ideal, fleet_wellFormed, s.state, reachable, ⟨e, he, enrolls_of_check issued⟩, ?_,
    fun k r hr => ?_,
    Listed.sessions_of_served served⟩
  · rintro e he k r ⟨⟨_, _, asked⟩, -⟩
    have := stands e he
    rw [asked] at this
    cases this
  · have known := refused k (consistent.used (hr ▸ Option.some_ne_none _))
    rw [show s.rows k = _ from hr] at known
    show r.accepts tallyCredentials "xx" = false
    simpa [Row.server?] using known

/-- Two calls enroll at once, and one of them waits in vain. The enrollment is rolled back and made again; a heartbeat
    completes it, and a second rollback is refused. -/
def rolledBack : List (Move Request Key Outside) :=
  [.arrive 0 enrolling, .next 0, .insert 0 (.draw 2), .arrive 1 enrolling, .next 1, .insert 1 (.draw 5),
    .next 1] ++ turns 0 6 ++
    turns 1 3 ++ .arrive 2 (.enrollRollback "yy" "1") :: turns 2 7 ++
    [.arrive 3 enrolling, .next 3, .insert 3 (.draw 3)] ++ turns 3 6 ++ .arrive 4 (.heartbeat "xxx") :: turns 4 5 ++
    .arrive 5 (.enrollRollback "yyy" "1") :: turns 5 4

/-- For examples: the calls have gone so. -/
def settled (s : Listed Request Key Row Empty Outside Response) : Bool :=
  (List.range 6).map (fun i => (s.served i).map Prod.snd) =
    [some (.enrolled 1 "xx" "yy"), some .invalidEnrollmentToken, some .noContent, some (.enrolled 1 "xxx" "yyy"),
      some (.recorded 1), some .invalidRollbackToken]

theorem enrolls_once_waiting : ∃ s : Listed Request Key Row Empty Outside Response, settled s = true ∧
    ExactlyOnce tallyCredentials (fun k => fleet.lookup k) s.state := by
  obtain ⟨s, reachable, h⟩ := Listed.reachable_of_check (serve tallyCredentials) 0 fleet rolledBack settled
    (by decide +kernel)
  exact ⟨s, h, enrolls_once tallyCredentials_ideal fleet_wellFormed reachable⟩

end Agent
end DatrixOps
