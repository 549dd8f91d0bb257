import Mathlib.Data.Prod.Lex
import Mathlib.Data.Set.Finite.Lemmas
import Mathlib.Data.Set.Finite.List
import Mathlib.Order.WithBot
import Mathlib.Data.Int.ConditionallyCompleteOrder
import DatrixOps.Server.SelfHost

/-! SyncSelfHost leaves the rows of other servers as they are, unless one of them has a name that it takes for
the host's. -/

namespace DatrixOps
namespace SelfHost
open Postgres

variable {C : Type} {p : Agent.Credentials} {host : Host} {c : Circumstances C} {t : Servers C} {r r' : Server C}
  {tokenHash : String}

/-- A row with one of the two tags or the digest of the self-monitor token. -/
def Server.isSelfHost (r : Server C) (p : Agent.Credentials) (host : Host) : Bool :=
  r.tagged "self-host" || r.tagged "control-plane" ||
    host.readSelfMonitorToken.any fun rawToken => r.agentTokenHash = some (p.sha256Hex rawToken)

/-- Every row that is none of these is still there, with all its columns. -/
def Untouched (p : Agent.Credentials) (host : Host) (t t' : Servers C) : Prop :=
  ∀ r ∈ t.rows, r.isSelfHost p host = false → r ∈ t'.rows

/-- Nothing is synchronised, or every other row with a name that is looked for is not offline and comes after a row of
    the host. -/
def Spares (p : Agent.Credentials) (host : Host) (t : Servers C) : Prop :=
  ∀ rawToken, host.readSelfMonitorToken = some rawToken → host.firstUser ≠ none →
    ∀ r ∈ t.rows, r.isSelfHost p host = false → r.named p = true → r.status ≠ some "offline" ∧
      ∃ r' ∈ t.rows, r'.isSelfHost p host = true ∧ r'.before r (p.sha256Hex rawToken) = true

/-! ### The order of the rows -/

/-- A time, where `NULL` comes last. -/
def orLast {α : Type} (f : Time → α) : Option Time → WithTop α
  | some t => (f t : WithTop α)
  | none => ⊤

/-- What the rows are ordered by. -/
def Server.key (r : Server C) (tokenHash : String) : ℕ ×ₗ (WithTop Timeᵒᵈ ×ₗ WithTop Time) :=
  toLex (r.rank tokenHash, toLex (orLast OrderDual.toDual r.lastSeenAt, orLast (fun t => t) r.createdAt))

theorem nullsLast_iff {α : Type} [Preorder α] {f : Time → α} {before : Time → Time → Bool}
    (h : ∀ a b, before a b = true ↔ f a < f b)
    (x y : Option Time) : nullsLast before x y = true ↔ orLast f x < orLast f y := by
  cases x <;> cases y <;> simp [nullsLast, orLast, h]

theorem orLast_injective {α : Type} {f : Time → α} (h : Function.Injective f) : Function.Injective (orLast f) := by
  intro x y hxy
  cases x <;> cases y <;> simp [orLast] at hxy ⊢
  exact h hxy

theorem before_iff : r.before r' tokenHash = true ↔ r.key tokenHash < r'.key tokenHash := by
  have seen := nullsLast_iff (f := OrderDual.toDual) (fun a b =>
    (decide_eq_true_iff (p := b < a))) r.lastSeenAt r'.lastSeenAt
  have created := nullsLast_iff (f := fun t => t) (fun a b =>
    (decide_eq_true_iff (p := a < b))) r.createdAt r'.createdAt
  simp only [Server.before, Server.key, Prod.Lex.toLex_lt_toLex, Bool.or_eq_true, Bool.and_eq_true, decide_eq_true_eq,
    seen, created,
    (orLast_injective OrderDual.toDual.injective).eq_iff]

/-- Of the rows that are found, some row comes first. -/
theorem exists_first {rows : List (Server C)} (tokenHash : String) (h : r ∈ rows) :
    ∃ m ∈ rows, ∀ x ∈ rows, x.before m tokenHash = false := by
  suffices ∃ m ∈ rows, ∀ x ∈ rows, m.key tokenHash ≤ x.key tokenHash by
    obtain ⟨m, hm, least⟩ := this
    exact ⟨m, hm, fun x hx => Bool.eq_false_iff.mpr fun hb => not_le.mpr (before_iff.mp hb) (least x hx)⟩
  exact Set.exists_min_image {x | x ∈ rows} (Server.key · tokenHash) rows.finite_toSet ⟨r, h⟩

theorem mem_first {rows : List (Server C)} : r ∈ first p tokenHash rows ↔
    (r ∈ rows ∧ (r.agentTokenHash = some tokenHash ∨ r.selfHost p = true)) ∧
      ∀ x ∈ rows, x.agentTokenHash = some tokenHash ∨ x.selfHost p = true → x.before r tokenHash = false := by
  simp only [first, List.mem_filter, Bool.or_eq_true, decide_eq_true_eq, List.all_eq_true, Bool.not_eq_true', and_imp]

/-- `LIMIT 1` takes one of the first rows. -/
theorem mem_of_choice {found : List (Server C)} {n : Nat} (h : found[n % found.length]? = some r) : r ∈ found :=
  List.mem_of_getElem? h

theorem exists_choice {found : List (Server C)} (h : r ∈ found) : ∃ n, found[n % found.length]? = some r := by
  obtain ⟨n, hn, hr⟩ := List.getElem_of_mem h
  exact ⟨n, by rw [Nat.mod_eq_of_lt hn, List.getElem?_eq_getElem hn, hr]⟩

/-! ### One synchronisation -/

theorem eq_of_id (h : r ∈ t.rows) (h' : r' ∈ t.rows) (hid : r.id = r'.id) : r = r' :=
  List.inj_on_of_nodup_map t.nodup h h' hid

/-- An other row is found by its name alone. -/
theorem selfHost_eq_named (other : r.isSelfHost p host = false) : r.selfHost p = r.named p := by
  simp only [Server.isSelfHost, Bool.or_eq_false_iff] at other
  simp only [Server.selfHost, other.1.1, other.1.2, Bool.or_self, Bool.false_or]

theorem hash_ne_of_other {rawToken : String} (hread : host.readSelfMonitorToken = some rawToken)
    (other : r.isSelfHost p host = false) :
    r.agentTokenHash ≠ some (p.sha256Hex rawToken) := by
  simp only [Server.isSelfHost, hread, Option.any_some, Bool.or_eq_false_iff, decide_eq_false_iff_not] at other
  exact other.2

theorem found_of_isSelfHost {rawToken : String} (hread : host.readSelfMonitorToken = some rawToken)
    (h : r.isSelfHost p host = true) :
    r.agentTokenHash = some (p.sha256Hex rawToken) ∨ r.selfHost p = true := by
  simp only [Server.isSelfHost, hread, Option.any_some, Bool.or_eq_true, decide_eq_true_eq] at h
  rcases h with (h | h) | h
  · exact Or.inr (by simp [Server.selfHost, h])
  · exact Or.inr (by simp [Server.selfHost, h])
  · exact Or.inl h

theorem mem_insert_of_mem (h : r ∈ t.rows) : r ∈ (t.insert r').rows := by
  unfold Servers.insert
  split
  · exact List.mem_append_left _ h
  · exact h

theorem mem_update_of_mem {where_ : Server C → Bool} {set : Server C → Server C} {same : ∀ r, (set r).id = r.id}
    (h : r ∈ t.rows)
    (unmatched : where_ r = false) : r ∈ (t.update where_ set same).rows :=
  List.mem_map.mpr ⟨r, h, by simp [unmatched]⟩

theorem mem_delete {where_ : Server C → Bool} : r ∈ (t.delete where_).rows ↔ r ∈ t.rows ∧ where_ r = false := by
  simp [Servers.delete]

/-- An other row that comes after a row of the host, and is not offline if its name is looked for, is left alone. -/
theorem untouched_of_spares (h : Spares p host t) : Untouched p host t (syncSelfHost p host c t) := by
  intro r hr other
  unfold syncSelfHost
  split
  · rename_i rawToken userId hread huser
    have spared := h rawToken hread (huser ▸ Option.some_ne_none userId) r hr other
    dsimp only
    split
    · split
      · exact hr
      · exact mem_insert_of_mem hr
    · rename_i existing hfound
      have chosen : existing ∈ first p (p.sha256Hex rawToken) t.rows := by
        split at hfound
        · cases hfound
        · exact mem_of_choice hfound
      obtain ⟨⟨hmem, hmatched⟩, least⟩ := mem_first.mp chosen
      have ne : ¬r.id = existing.id := by
        intro hid
        obtain rfl := eq_of_id hr hmem hid
        have named : r.named p = true := by
          rw [← selfHost_eq_named other]
          exact hmatched.resolve_left (hash_ne_of_other hread other)
        obtain ⟨r', hr', host', hbefore⟩ := (spared named).2
        rw [least r' hr' (found_of_isSelfHost hread host')] at hbefore
        cases hbefore
      split
      · exact hr
      · have kept : r ∈ (t.update (fun r => r.id = existing.id) (fun r => r.adopted userId (p.sha256Hex rawToken) c.now)
            fun _ => rfl).rows :=
          mem_update_of_mem hr (decide_eq_false ne)
        split
        · exact kept
        · refine mem_delete.mpr ⟨kept, ?_⟩
          rw [selfHost_eq_named other]
          cases named : r.named p with
          | false => simp
          | true => simp [(spared named).1]
  · exact hr

/-- The synchronisation that meets no failure and takes the row `existing`. -/
theorem syncSelfHost_of_choice {rawToken : String} {userId : Uuid} {existing : Server C} {n : Nat} {defaults : C}
    (hread : host.readSelfMonitorToken = some rawToken) (huser : host.firstUser = some userId)
    (hn : (first p (p.sha256Hex rawToken) t.rows)[n % (first p (p.sha256Hex rawToken) t.rows).length]? =
      some existing) :
    syncSelfHost p host ⟨0, fun _ => false, n, 0, defaults⟩ t =
      (t.update (fun r => r.id = existing.id) (fun r => r.adopted userId (p.sha256Hex rawToken) 0) fun _ => rfl).delete
        fun r => r.id ≠ existing.id && r.selfHost p && r.status = some "offline" := by
  simp only [syncSelfHost, hread, huser, Bool.false_eq_true, if_false, hn]

/-- The row that is taken does not stay an other row, and offline rows with its names go. -/
theorem untouched_of_choice {existing : Server C} {userId : Uuid} (other : r.isSelfHost p host = false)
    {rawToken : String}
    (hread : host.readSelfMonitorToken = some rawToken)
    (h : r ∈ ((t.update (fun r => r.id = existing.id) (fun r => r.adopted userId (p.sha256Hex rawToken) 0)
      fun _ => rfl).delete
        fun r => r.id ≠ existing.id && r.selfHost p && r.status = some "offline").rows) :
    r.id ≠ existing.id ∧ (r.named p = true → r.status ≠ some "offline") := by
  obtain ⟨hmem, kept⟩ := mem_delete.mp h
  obtain ⟨x, -, hx⟩ := List.mem_map.mp hmem
  have ne : r.id ≠ existing.id := by
    split at hx
    · subst hx
      exact absurd rfl (hash_ne_of_other hread other)
    · rename_i ne
      subst hx
      exact fun hid => ne (decide_eq_true hid)
  refine ⟨ne, fun named offline => ?_⟩
  rw [selfHost_eq_named other] at kept
  simp [ne, named, offline] at kept

theorem spares_of_untouched (h : ∀ c, Untouched p host t (syncSelfHost p host c t)) : Spares p host t := by
  intro rawToken hread huser r hr other named
  obtain ⟨userId, huser⟩ := Option.ne_none_iff_exists'.mp huser
  have taken : ∀ existing ∈ first p (p.sha256Hex rawToken) t.rows, ∀ x ∈ t.rows, x.isSelfHost p host = false →
      x.id ≠ existing.id ∧ (x.named p = true → x.status ≠ some "offline") := by
    intro existing chosen x hx hother
    obtain ⟨n, hn⟩ := exists_choice chosen
    have kept := h ⟨0, fun _ => false, n, 0, r.rest⟩ x hx hother
    rw [syncSelfHost_of_choice hread huser hn] at kept
    exact untouched_of_choice hother hread kept
  have found : r ∈ t.rows.filter fun r => r.agentTokenHash = some (p.sha256Hex rawToken) || r.selfHost p :=
    List.mem_filter.mpr ⟨hr, by simp [selfHost_eq_named other, named]⟩
  obtain ⟨m, hm, least⟩ := exists_first (p.sha256Hex rawToken) found
  have least : ∀ x ∈ t.rows, x.agentTokenHash = some (p.sha256Hex rawToken) ∨ x.selfHost p = true →
      x.before m (p.sha256Hex rawToken) = false :=
    fun x hx hmatched => least x (List.mem_filter.mpr ⟨hx, by simpa using hmatched⟩)
  obtain ⟨hm, hmatched⟩ := List.mem_filter.mp hm
  have chosen : m ∈ first p (p.sha256Hex rawToken) t.rows := mem_first.mpr ⟨⟨hm, by simpa using hmatched⟩, least⟩
  refine ⟨(taken m chosen r hr other).2 named, m, hm, ?_, ?_⟩
  · by_contra hostless
    exact (taken m chosen m hm (Bool.eq_false_iff.mpr hostless)).1 rfl
  · -- otherwise `r` is one of the first rows too
    by_contra notBefore
    refine (taken r (mem_first.mpr ⟨⟨hr, Or.inr (by rw [selfHost_eq_named other, named])⟩,
      fun x hx hmatched => ?_⟩) r hr other).1 rfl
    refine Bool.eq_false_iff.mpr fun hbefore => Bool.eq_false_iff.mp (least x hx hmatched) (before_iff.mpr ?_)
    exact (before_iff.mp hbefore).trans_le (not_lt.mp fun hlt => notBefore (before_iff.mpr hlt))

/-! ### A heartbeat -/

/-- The heartbeat synchronises: nobody accepts its token, which is that of the host. -/
def Triggers (p : Agent.Credentials) (host : Host) (agentToken : String) (t : Servers C) : Prop :=
  t.rows.any (·.accepts p agentToken) = false ∧ host.checkSelfMonitorToken agentToken = true

/-- A synchronised row was there before, or has the digest of the host's token. -/
theorem mem_syncSelfHost (h : r ∈ (syncSelfHost p host c t).rows) : r ∈ t.rows ∨ r.isSelfHost p host = true := by
  have owned : ∀ {rawToken}, host.readSelfMonitorToken = some rawToken →
    r.agentTokenHash = some (p.sha256Hex rawToken) →
      r.isSelfHost p host = true := by
    intro rawToken hread hhash
    simp [Server.isSelfHost, hread, hhash]
  unfold syncSelfHost at h
  split at h
  · rename_i rawToken userId hread huser
    dsimp only at h
    split at h
    · split at h
      · exact Or.inl h
      · unfold Servers.insert at h
        split at h
        · rcases List.mem_append.mp h with h | h
          · exact Or.inl h
          · obtain rfl := List.mem_singleton.mp h
            exact Or.inr (owned hread rfl)
        · exact Or.inl h
    · have updated : ∀ {existing : Server C}, r ∈ (t.update (fun r => r.id = existing.id)
          (fun r => r.adopted userId (p.sha256Hex rawToken) c.now) fun _ =>
            rfl).rows → r ∈ t.rows ∨ r.isSelfHost p host = true := by
        intro existing h
        obtain ⟨x, hx, hset⟩ := List.mem_map.mp h
        split at hset
        · exact Or.inr (owned hread (by rw [← hset]; rfl))
        · exact Or.inl (hset ▸ hx)
      split at h
      · exact Or.inl h
      · split at h
        · exact updated h
        · exact updated (mem_delete.mp h).1
  · exact Or.inl h

theorem mem_recordHeartbeat {agentToken : String} {now : Time} {report : C → C}
    (h : r ∈ (recordHeartbeat p agentToken now report t).rows) :
    ∃ x ∈ t.rows, x.id = r.id ∧ x.agentTokenHash = r.agentTokenHash ∧ x.tags = r.tags := by
  obtain ⟨x, hx, rfl⟩ := List.mem_map.mp h
  refine ⟨x, hx, ?_, ?_, ?_⟩ <;> split <;> rfl

theorem otherRows_untouched_iff (p : Agent.Credentials) (host : Host) (t : Servers C) :
    ((∀ c, Untouched p host t (syncSelfHost p host c t)) ↔ Spares p host t) ∧
      ∀ agentToken, (∀ c report, ∀ r ∈ t.rows, r.isSelfHost p host = false → r.accepts p agentToken = false →
        r ∈ (heartbeat p host agentToken report c t).rows) ↔ (Triggers p host agentToken t → Spares p host t) := by
  refine ⟨⟨spares_of_untouched, fun h _ => untouched_of_spares h⟩,
    fun agentToken => ⟨fun h => ?_, fun h c report r hr other unaccepted => ?_⟩⟩
  · rintro ⟨nobody, checked⟩
    refine spares_of_untouched fun c r hr other => ?_
    have unaccepted : r.accepts p agentToken = false := by simpa using List.any_eq_false.mp nobody r hr
    have kept := h c (fun reported => reported) r hr other unaccepted
    rw [heartbeat, nobody, if_neg Bool.false_ne_true, if_pos checked] at kept
    obtain ⟨x, hx, hid, hhash, htags⟩ := mem_recordHeartbeat kept
    rcases mem_syncSelfHost hx with hx' | host'
    · exact eq_of_id hx' hr hid ▸ hx
    · have same : x.isSelfHost p host = r.isSelfHost p host := by
        simp only [Server.isSelfHost, Server.tagged, hhash, htags]
      rw [same, other] at host'
      cases host'
  · unfold heartbeat
    split
    · exact mem_update_of_mem hr unaccepted
    · rename_i nobody
      split
      · rename_i checked
        exact mem_update_of_mem (untouched_of_spares (h ⟨Bool.eq_false_iff.mpr nobody, checked⟩) r hr other) unaccepted
      · exact hr

/-! ### A server that is taken for the host -/

/-- Digests that show what they are of. -/
def hashed : Agent.Credentials where
  sha256Hex text := "sha256 of " ++ text
  credential n := String.ofList (List.replicate n 'x')
  rollbackToken n := String.ofList (List.replicate n 'y')
  toLower := .asciiOnly
  sqlLower := .asciiOnly
  uuidIn := String.toNat?
  simpleProtocol := false

/-- A host with a token in its file. -/
def ownHost : Host := ⟨some "DATRIXOPS_AGENT_TOKEN=\"self-token\"\n".toList, [], some 1⟩

/-- The record of the host. -/
def hostRow : Server Unit :=
  ⟨1, 1, "Control Plane", some ["self-host", "control-plane"], some "online", none, some "sha256 of self-token", some 0,
    some 9, some 0, some 9, ()⟩

/-- The server of another user, offline for the moment. -/
def stagingRow : Server Unit :=
  ⟨2, 7, "DatrixOps staging", some ["staging"], some "offline", none, some "sha256 of its own token", some 0, some 5,
    some 0, some 5, ()⟩

/-- The host and the server of another user. -/
def twoServers : Servers Unit := ⟨[hostRow, stagingRow], by decide⟩

theorem named_server_deleted : ¬∀ (p : Agent.Credentials) (host : Host) (t : Servers Unit) (c : Circumstances Unit),
    Untouched p host t (syncSelfHost p host c t) := by
  intro claim
  have kept := claim hashed ownHost twoServers ⟨10, fun _ => false, 0, 3, ()⟩ stagingRow (by decide) (by decide +kernel)
  exact absurd kept (by decide +kernel)

end SelfHost
end DatrixOps
