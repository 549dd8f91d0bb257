import DatrixOps.Theorems.SessionCommits
import DatrixOps.Postgres.Schedule

/-! Which strings a refresh token is redeemed by. The lookup has two paths: the digest of what is presented finds
    the token that was issued, and what is presented finds a token stored as it is. -/

namespace DatrixOps
namespace Auth
open Postgres Prog

/-- `e` stores the token `t`, issued under key `k`. -/
def Issues (e : Commit Request Uuid Row Empty) (k : Uuid) (t : RefreshToken) : Prop :=
  IssuesTokens e.request ∧ e.tx.changes k = some ⟨none, some (.refreshToken t), true⟩

/-- `e` redeems the stored token `t` for the string `presented`. -/
def Redeems (e : Commit Request Uuid Row Empty) (presented : String) (k : Uuid) (t : RefreshToken) : Prop :=
  e.request = .refresh presented ∧ ∃ c, e.tx.changes k = some c ∧ c.base = some (.refreshToken t)

/-- After the commits `earlier`, and at `now`, the string is a token that was issued and has not been consumed,
    revoked or expired. -/
def Live (p : Crypto) (earlier : List (Commit Request Uuid Row Empty)) (now : Time) (presented : String) : Prop :=
  ∃ k t, (∃ e ∈ earlier, Issues e k t) ∧ presented = p.secret k ∧
    (∀ e ∈ earlier, ∀ c, e.tx.changes k = some c → c.new ≠ none) ∧ now < t.expiresAt

/-- A well-formed database without refresh tokens. -/
structure Untouched (p : Crypto) (rows₀ : Uuid → Option Row) : Prop where
  valid : ∀ k r, rows₀ k = some r → (spec p).row k r
  noTokens : ∀ k t, rows₀ k ≠ some (.refreshToken t)

variable {p : Crypto} {rows₀ rows : Uuid → Option Row} {log : List (Commit Request Uuid Row Empty)} {k : Uuid}
  {s : State Request Uuid Row Empty Bool Response}

/-- A stored token was issued, and nothing has removed it since. -/
theorem issued_of_row (noTokens : ∀ k t, rows₀ k ≠ some (.refreshToken t)) (h : Serial (spec p) rows₀ log rows) :
    ∀ t, rows k = some (.refreshToken t) → (∃ e ∈ log, Issues e k t) ∧ t.token = p.sha256Hex (p.secret k) ∧
      ∀ e ∈ log, ∀ c, e.tx.changes k = some c → c.new ≠ none := by
  induction h with
  | nil => exact fun t ht => absurd ht (noTokens k t)
  | @cons log rows e _ ok _ fresh ih =>
    intro t ht
    cases hc : e.tx.changes k with
    | none =>
      rw [show e.tx.apply rows k = rows k from Tx.view_of_unchanged hc] at ht
      obtain ⟨⟨e', he', issues⟩, drawn, kept⟩ := ih t ht
      refine ⟨⟨e', List.mem_cons_of_mem _ he', issues⟩, drawn, fun e'' he'' c'' hc'' => ?_⟩
      rcases List.mem_cons.mp he'' with rfl | he''
      · rw [hc] at hc''
        cases hc''
      · exact kept e'' he'' c'' hc''
    | some c =>
      rw [show e.tx.apply rows k = c.new from Tx.view_of_changes hc] at ht
      have lawful := ok.1 k c hc
      cases lawful with
      | issue t' asked drawn =>
        obtain rfl : t' = t := by cases ht; rfl
        refine ⟨⟨e, List.mem_cons_self .., asked, hc⟩, drawn, fun e'' he'' c'' hc'' => ?_⟩
        rcases List.mem_cons.mp he'' with rfl | he''
        · obtain rfl := Option.some.inj (hc.symm.trans hc'')
          exact Option.some_ne_none _
        · -- the key is new with this commit
          rw [(fresh k _ hc rfl).2 e'' he''] at hc''
          cases hc''
      | _ => cases ht

theorem redeems_lawful {e : Commit Request Uuid Row Empty} {presented : String} {t : RefreshToken}
    (ok : ∀ k c, e.tx.changes k = some c → Lawful p e.request e.tx.start k c) (h : Redeems e presented k t) :
    t.matches_ p presented = true ∧ e.tx.start < t.expiresAt := by
  obtain ⟨asked, c, hc, hb⟩ := h
  have lawful := ok k c hc
  cases lawful with
  | redeem t' presented' asked' matched unexpired =>
    obtain rfl : presented' = presented := Request.refresh.inj (asked'.symm.trans asked)
    obtain rfl : t' = t := by cases hb; rfl
    exact ⟨matched, unexpired⟩
  | revoke t' notRefresh => exact absurd asked (notRefresh presented)
  | _ => cases hb

/-- Every successful refresh has redeemed a stored token, and the string it was given was a live token exactly when
    that is not what was stored. -/
theorem redeemed_live_iff (ideal : p.Ideal) (untouched : Untouched p rows₀) (h : Reachable (serve p) rows₀ s) :
    (∀ i presented token userId role tx,
      s.sessions i = some ⟨.refresh presented, .answered (.tokens token userId role), tx⟩ →
        ∃ e ∈ s.log, e.session = i ∧ ∃ k t, Redeems e presented k t) ∧
    ∀ later e earlier presented k t, s.log = later ++ e :: earlier → Redeems e presented k t →
      (Live p earlier e.tx.start presented ↔ t.token ≠ presented) := by
  have consistent : Consistent (spec p) rows₀ s := h.consistent serves untouched.valid
  refine ⟨fun i presented token userId role tx hi => ?_, fun later e earlier presented k t hlog redeems => ?_⟩
  · obtain ⟨-, redeemed⟩ := consistent.safe i _ hi token userId role rfl
    obtain ⟨tx', hmem, k, t, hc⟩ := redeemed presented rfl
    obtain ⟨e, hpast, rfl⟩ := List.mem_map.mp hmem
    obtain ⟨he, hsession⟩ := List.mem_filter.mp hpast
    obtain rfl : e.session = i := by simpa using hsession
    obtain ⟨session, hs, hq⟩ := h.attributed e he
    obtain rfl := Option.some.inj (hi.symm.trans hs)
    exact ⟨e, he, rfl, k, t, hq.symm, _, hc, rfl⟩
  · have history := consistent.history
    rw [hlog] at history
    obtain ⟨before, serial, ok, base⟩ := history.before
    obtain ⟨matched, unexpired⟩ := redeems_lawful ok.1 redeems
    obtain ⟨-, c, hc, hb⟩ := redeems
    obtain ⟨issued, drawn, kept⟩ := issued_of_row untouched.noTokens serial t ((base k c hc).symm.trans hb)
    constructor
    · rintro ⟨k', -, -, rfl, -⟩ stored
      exact ideal.unguessable k' k (stored.symm.trans drawn)
    · intro notStored
      have digest : p.sha256Hex presented = p.sha256Hex (p.secret k) := by
        simp only [RefreshToken.matches_, Bool.or_eq_true, decide_eq_true_eq] at matched
        exact (matched.resolve_right notStored).symm.trans drawn
      exact ⟨k, t, issued, ideal.injective digest, kept, unexpired⟩

/-- One user, no tokens. -/
def onlyAlice : List (Uuid × Row) := [(1, .user alice)]

theorem onlyAlice_untouched : Untouched plainCrypto fun k => onlyAlice.lookup k := by
  have rows : ∀ k r, onlyAlice.lookup k = some r → k = 1 ∧ r = .user alice := by
    intro k r h
    by_cases hk : k = 1
    · subst hk
      exact ⟨rfl, (Option.some.inj h).symm⟩
    · simp [onlyAlice, List.lookup_cons, beq_false_of_ne hk] at h
  refine ⟨fun k r h => ?_, fun k t h => ?_⟩
  · obtain ⟨rfl, rfl⟩ := rows k r h
    rfl
  · cases (rows k _ h).2

/-- She signs in, and `presented` is given to a refresh. -/
def refreshSchedule (presented : String) : List (Move Request Uuid Bool) :=
  .arrive 0 (.login "alice" "first password") :: List.replicate 5 (.next 0) ++ [.insert 0 2, .next 0, .next 0] ++
    .arrive 1 (.refresh presented) :: List.replicate 10 (.next 1) ++ [.insert 1 3, .next 1, .next 1]

theorem redeemed_live_iff_alice : ∃ s, Reachable (serve plainCrypto) (fun k => onlyAlice.lookup k) s ∧
    (∃ e ∈ s.log, e.session = 1 ∧ ∃ k t, Redeems e "token-2" k t) ∧
    ∀ later e earlier presented k t, s.log = later ++ e :: earlier → Redeems e presented k t →
      (Live plainCrypto earlier e.tx.start presented ↔ t.token ≠ presented) := by
  obtain ⟨s, reachable, served⟩ := Listed.reachable_of_check (serve plainCrypto) 0 onlyAlice
    (refreshSchedule "token-2") (fun s => s.served 1 = some (.refresh "token-2", .tokens "token-3" 1 .operator))
    (by decide +kernel)
  obtain ⟨tx, answered⟩ := Listed.sessions_of_served (of_decide_eq_true served)
  have redeemed := redeemed_live_iff plainCrypto_ideal onlyAlice_untouched reachable
  exact ⟨s.state, reachable, redeemed.1 1 _ _ _ _ tx answered, redeemed.2⟩

/-- The digest of a token that was issued is redeemed for a new session, though it is no live token. -/
theorem digest_redeemed : plainCrypto.Ideal ∧ Untouched plainCrypto (fun k => onlyAlice.lookup k) ∧
    ∃ s, Reachable (serve plainCrypto) (fun k => onlyAlice.lookup k) s ∧
      (∃ tx, s.sessions 0 = some ⟨.login "alice" "first password", .answered (.tokens "token-2" 1 .operator), tx⟩) ∧
      (∃ tx, s.sessions 1 = some ⟨.refresh (plainCrypto.sha256Hex "token-2"),
        .answered (.tokens "token-3" 1 .operator), tx⟩) ∧
      ∀ earlier now, ¬Live plainCrypto earlier now (plainCrypto.sha256Hex "token-2") := by
  obtain ⟨s, reachable, served⟩ := Listed.reachable_of_check (serve plainCrypto) 0 onlyAlice
    (refreshSchedule "#token-2") (fun s =>
      s.served 0 = some (.login "alice" "first password", .tokens "token-2" 1 .operator) ∧
        s.served 1 = some (.refresh "#token-2", .tokens "token-3" 1 .operator)) (by decide +kernel)
  have served := of_decide_eq_true served
  refine ⟨plainCrypto_ideal, onlyAlice_untouched, s.state, reachable, Listed.sessions_of_served served.1,
    Listed.sessions_of_served served.2, fun earlier now => ?_⟩
  rintro ⟨k, t, -, hk, -⟩
  simp [plainCrypto, ← String.toList_inj] at hk

end Auth
end DatrixOps
