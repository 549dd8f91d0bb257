import DatrixOps.Postgres.Rules
import DatrixOps.Auth.Sessions

/-! What each commit of the sign-in calls may do, row by row, under any interleaving. -/

namespace DatrixOps
namespace Auth
open Postgres Prog

/-- The request may issue a refresh token. -/
def IssuesTokens : Request → Prop
  | .login .. | .refresh .. => True
  | _ => False

/-- What a call may do to one row. -/
inductive Lawful (p : Crypto) (q : Request) (now : Time) (k : Uuid) : Change Row → Prop
  | register (u : User) : Lawful p q now k ⟨none, some (.user u), true⟩
  | password (u : User) (hash : String) :
      Lawful p q now k ⟨some (.user u), some (.user ((setPassword u.id hash).set u)), false⟩
  | issue (t : RefreshToken) (asked : IssuesTokens q) (drawn : t.token = p.sha256Hex (p.secret k)) :
      Lawful p q now k ⟨none, some (.refreshToken t), true⟩
  | redeem (t : RefreshToken) (presented : String) (asked : q = .refresh presented)
      (matched : t.matches_ p presented = true) (unexpired : now < t.expiresAt) :
      Lawful p q now k ⟨some (.refreshToken t), none, false⟩
  | revoke (t : RefreshToken) (asked : ∀ presented, q ≠ .refresh presented) :
      Lawful p q now k ⟨some (.refreshToken t), none, false⟩
  | forgot (r : PasswordReset) : Lawful p q now k ⟨none, some (.passwordReset r), true⟩
  | use (r : PasswordReset) {email rawToken newPassword salt : String}
      (asked : q = .resetPassword email rawToken newPassword salt)
      (presented : p.sha256Hex (trimmed rawToken) = p.sha256Hex (p.secret k)) :
      Lawful p q now k ⟨some (.passwordReset r), some (.passwordReset { r with usedAt := some now }), false⟩

/-- The call has redeemed a refresh token, if it is one that has to. -/
def Redeemed (q : Request) (past : List (Tx Uuid Row Empty)) : Prop :=
  ∀ presented, q = .refresh presented → ∃ tx ∈ past, ∃ k t, tx.changes k = some ⟨some (.refreshToken t), none, false⟩

/-- A reset that changes a password has used a reset token before. -/
def Authorised (q : Request) (past : List (Tx Uuid Row Empty)) (tx : Tx Uuid Row Empty) : Prop :=
  ∀ email rawToken newPassword salt, q = .resetPassword email rawToken newPassword salt →
    ∀ k c u, tx.changes k = some c → c.base = some (.user u) →
      ∃ tx' ∈ past, ∃ k' c' r, tx'.changes k' = some c' ∧ c'.base = some (.passwordReset r)

/-- Rows stand under their keys; a commit changes rows lawfully and with authority; and tokens are answered
    only by calls that have issued one and redeemed one if they had to. -/
def spec (p : Crypto) : Spec Request Uuid Row Empty Response where
  row k
    | .user u => u.id = k
    | .refreshToken t => t.id = k
    | .passwordReset r => r.id = k ∧ r.tokenHash = p.sha256Hex (p.secret k)
  commit q past tx := (∀ k c, tx.changes k = some c → Lawful p q tx.start k c) ∧ Authorised q past tx
  answer q past a := ∀ token userId role, a = .tokens token userId role →
    (∃ tx ∈ past, ∃ k t, tx.changes k = some ⟨none, some (.refreshToken t), true⟩ ∧ token = p.secret k) ∧
    Redeemed q past

variable {p : Crypto} {q : Request} {past : List (Tx Uuid Row Empty)} {tx : Tx Uuid Row Empty}

theorem Redeemed.cons (h : Redeemed q past) : Redeemed q (tx :: past) := by
  intro presented hq
  obtain ⟨tx', hmem, hchange⟩ := h presented hq
  exact ⟨tx', List.mem_cons_of_mem _ hmem, hchange⟩

theorem Redeemed.of_ne (h : ∀ presented, q ≠ .refresh presented) : Redeemed q past :=
  fun presented hq => absurd hq (h presented)

theorem Authorised.of_no_user (h : ∀ k c u, tx.changes k = some c → c.base ≠ some (.user u)) : Authorised q past tx :=
  fun _ _ _ _ _ k c u hc hb => absurd hb (h k c u hc)

/-! ### Statements -/

theorem safe_answer {a : Response} {tx : Option (Tx Uuid Row Empty)}
    (h : ∀ token userId role, a ≠ .tokens token userId role) :
    (Prog.answer a : Handler).Safe (spec p) q past tx := fun token userId role ha => absurd ha (h token userId role)

theorem safe_refused {tx : Option (Tx Uuid Row Empty)} : (Prog.answer .refused : Handler).Safe (spec p) q past tx :=
  safe_answer fun _ _ _ h => by cases h

theorem safe_rollback : (Prog.rollback (.answer .refused) : Handler).Safe (spec p) q past (some tx) :=
  fun _ _ _ ha => by cases ha

theorem safe_done {tx : Option (Tx Uuid Row Empty)} : (Prog.answer .done : Handler).Safe (spec p) q past tx :=
  safe_answer fun _ _ _ h => by cases h

theorem commit_empty {now : Time} : (spec p).commit q past (.empty now) :=
  ⟨fun _ _ h => (by cases h), Authorised.of_no_user fun _ _ _ h => by cases h⟩

theorem safe_select {α : Type} {read : Time → List (Uuid × Row) → α} {next : α → Handler}
    (hn : ∀ a now, (next a).Safe (spec p) q (.empty now :: past) none) : (select read next).Safe (spec p) q past none :=
  fun now _ _ _ => ⟨commit_empty, hn _ now⟩

/-- Inserting a row in a transaction of its own. -/
theorem safe_insert {now : Time} {row : Uuid → Option Row} {conflict : Row → Bool} {next : Option Uuid → Handler}
    (miss : (next none).Safe (spec p) q past (some (.empty now)))
    (hit : ∀ k r, row k = some r → (spec p).row k r ∧ Lawful p q now k ⟨none, some r, true⟩ ∧
      (next (some k)).Safe (spec p) q past (some ((Tx.empty now).create k r))) :
    (Prog.insert row conflict next).Safe (spec p) q past (some (.empty now)) :=
  ⟨miss, fun k r hr _ => ⟨(hit k r hr).1, (hit k r hr).2.2⟩⟩

theorem commit_create {now : Time} {k : Uuid} {r : Row} (h : Lawful p q now k ⟨none, some r, true⟩) :
    (spec p).commit q past ((Tx.empty now).create k r) := by
  refine ⟨fun k' c hc => ?_, Authorised.of_no_user fun k' c u hc hb => ?_⟩
  · obtain ⟨rfl, rfl⟩ := Tx.changes_create_empty hc
    exact h
  · obtain ⟨-, rfl⟩ := Tx.changes_create_empty hc
    cases hb

/-- A transaction that so far has only removed refresh tokens, each fulfilling `P`. -/
def Removing (P : RefreshToken → Prop) (now : Time) (tx : Tx Uuid Row Empty) : Prop :=
  tx.start = now ∧ ∀ k c, tx.changes k = some c → ∃ t, c = ⟨some (.refreshToken t), none, false⟩ ∧ P t

theorem Removing.empty {P : RefreshToken → Prop} {now : Time} : Removing P now (.empty now) :=
  ⟨rfl, fun _ _ h => by cases h⟩

/-- A row that a statement meets and the transaction has not changed. -/
theorem changes_write_new {k k' : Uuid} {base new : Option Row} {c : Change Row} (untouched : tx.changes k = none)
    (hc : (tx.write k base new).changes k' = some c) : (k' = k ∧ c = ⟨base, new, false⟩) ∨ tx.changes k' = some c := by
  by_cases hk : k' = k
  · subst hk
    rw [Tx.changes_write, untouched] at hc
    exact Or.inl ⟨rfl, (Option.some.inj hc).symm⟩
  · rw [Tx.changes_write_of_ne hk] at hc
    exact Or.inr hc

theorem Removing.write {P : RefreshToken → Prop} {now : Time} {k : Uuid} {base : Option Row} {t : RefreshToken}
    (h : Removing P now tx) (hv : tx.view k base = some (.refreshToken t)) (ht : P t) :
    Removing P now (tx.write k base none) := by
  have untouched : tx.changes k = none := by
    refine Option.eq_none_iff_forall_ne_some.mpr fun c hc => ?_
    obtain ⟨t', rfl, -⟩ := h.2 k c hc
    rw [Tx.view_of_changes hc] at hv
    cases hv
  rw [Tx.view_of_unchanged untouched] at hv
  refine ⟨h.1, fun k' c hc => ?_⟩
  rcases changes_write_new untouched hc with ⟨rfl, rfl⟩ | hc
  · exact ⟨t, by rw [hv], ht⟩
  · exact h.2 k' c hc

theorem Removing.revoked {P : RefreshToken → Prop} {now : Time} (h : Removing P now tx)
    (hq : ∀ presented, q ≠ .refresh presented) : (spec p).commit q past tx := by
  refine ⟨fun k c hc => ?_, Authorised.of_no_user fun k c u hc hb => ?_⟩
  · obtain ⟨t, rfl, -⟩ := h.2 k c hc
    exact .revoke t hq
  · obtain ⟨t, rfl, -⟩ := h.2 k c hc
    cases hb

theorem safe_revoke {which : RefreshToken → Bool} {now : Time} {next : Handler}
    (hq : ∀ presented, q ≠ .refresh presented) (hn : ∀ tx, next.Safe (spec p) q (tx :: past) none) :
    (delete refreshTokens which (.commit next)).Safe (spec p) q past (some (.empty now)) :=
  safe_delete (J := Removing (fun _ => True) now) .empty (fun _ _ _ _ hJ hv _ _ => hJ.write hv trivial)
    fun tx hJ => ⟨hJ.revoked hq, hn tx⟩

/-! ### The calls -/

theorem safe_createUser {email passwordHash : String} {role : Role} :
    (createUser email passwordHash role).Safe (spec p) q past none := by
  intro now
  refine safe_insert safe_rollback fun k r hr => ?_
  obtain rfl := Option.some.inj hr
  have lawful : Lawful p q now k ⟨none, some (.user ⟨k, none, email, passwordHash, role, 0⟩), true⟩ := .register _
  exact ⟨rfl, lawful, commit_create lawful, safe_done⟩

theorem safe_issueTokens {userId : Uuid} {role : Role} {verified : Nat} (asked : IssuesTokens q)
    (redeemed : Redeemed q past) :
    (issueTokens p userId role verified).Safe (spec p) q past none := by
  intro now createdAt
  refine safe_insert safe_rollback fun k r hr => ?_
  obtain rfl := Option.some.inj hr
  have lawful : Lawful p q createdAt k ⟨none, some (.refreshToken
      { id := k, userId, token := p.sha256Hex (p.secret k), expiresAt := now + 7 * day, createdAt, verified }), true⟩ :=
    .issue _ asked rfl
  refine ⟨rfl, lawful, commit_create lawful, fun token userId role ha => ?_⟩
  obtain ⟨rfl, -, -⟩ := Response.tokens.inj ha
  exact ⟨⟨_, List.mem_cons_self .., k, _, Tx.changes_create, rfl⟩, redeemed.cons⟩

theorem safe_login {identifier password : String} :
    (login p identifier password).Safe (spec p) (.login identifier password) past none := by
  unfold login findUserByIdentifier
  refine safe_select fun found now => ?_
  cases found with
  | none => exact safe_refused
  | some user =>
    dsimp only
    split
    · exact safe_issueTokens trivial (Redeemed.of_ne fun _ h => by cases h)
    · exact safe_refused

theorem safe_refresh {token : String} : (refresh p token).Safe (spec p) (.refresh token) past none := by
  intro now
  let P (t : RefreshToken) : Prop := t.matches_ p token = true ∧ now < t.expiresAt
  -- the tokens found are those the transaction has removed
  let J (found : List (Uuid × RefreshToken)) (tx : Tx Uuid Row Empty) : Prop := Removing P now tx ∧
    ∀ kt ∈ found, tx.changes kt.1 ≠ none
  refine safe_deleteReturning (J := J) ⟨.empty, fun _ h => by cases h⟩ ?_ ?_
  · intro found tx k base t hJ hk hv _ hp
    simp only [Bool.and_eq_true, decide_eq_true_eq] at hp
    refine ⟨hJ.1.write hv hp, fun kt hkt => ?_⟩
    by_cases hkk : kt.1 = k
    · rw [hkk, Tx.changes_write]
      exact Option.some_ne_none _
    · rw [Tx.changes_write_of_ne hkk]
      rcases List.mem_append.mp hkt with hkt | hkt
      · exact hJ.2 kt hkt
      · exact absurd (congrArg Prod.fst (List.mem_singleton.mp hkt)) hkk
  · intro found tx hJ
    have ok : (spec p).commit (.refresh token) past tx := by
      refine ⟨fun k c hc => ?_, Authorised.of_no_user fun k c u hc hb => ?_⟩
      · obtain ⟨t, rfl, hm, he⟩ := hJ.1.2 k c hc
        exact .redeem t token rfl hm (hJ.1.1 ▸ he)
      · obtain ⟨t, rfl, -⟩ := hJ.1.2 k c hc
        cases hb
    cases found with
    | nil => exact ⟨ok, safe_refused⟩
    | cons kt rest =>
      refine ⟨ok, safe_select fun user _ => ?_⟩
      cases user with
      | none => exact safe_refused
      | some user =>
        refine safe_issueTokens trivial fun _ _ => ?_
        obtain ⟨c, hc⟩ := Option.ne_none_iff_exists'.mp (hJ.2 kt (List.mem_cons_self ..))
        obtain ⟨t, rfl, -⟩ := hJ.1.2 _ c hc
        exact ⟨tx, by simp, kt.1, t, hc⟩

theorem safe_logout {token : String} : (logout p token).Safe (spec p) (.logout token) past none := by
  intro fails
  dsimp only
  split
  · exact safe_done
  · exact fun now => safe_revoke (fun _ h => by cases h) fun _ => safe_done

theorem safe_deleteExpiredTokens : deleteExpiredTokens.Safe (spec p) .deleteExpiredTokens past none :=
  fun _ => safe_revoke (fun _ h => by cases h) fun _ => safe_done

theorem safe_forgotPassword {email : String} : (forgotPassword p email).Safe (spec p) q past none := by
  unfold forgotPassword findUserByEmail
  by_cases blank : p.normalizeEmail email = ""
  · rw [if_pos blank]
    exact safe_done
  · rw [if_neg blank]
    refine safe_select fun found _ => ?_
    cases found with
    | none => exact safe_done
    | some user =>
      intro now createdAt
      refine safe_insert safe_rollback fun k r hr => ?_
      obtain rfl := Option.some.inj hr
      exact ⟨⟨rfl, rfl⟩, .forgot _, commit_create (.forgot _), safe_answer fun _ _ _ h => by cases h⟩

/-- A transaction that has changed the password of the users found. -/
def Changing (now : Time) (found : List (Uuid × User)) (tx : Tx Uuid Row Empty) : Prop :=
  tx.start = now ∧ ∀ k c, tx.changes k = some c → k ∈ found.map Prod.fst ∧
    ∃ u hash, c = ⟨some (.user u), some (.user ((setPassword u.id hash).set u)), false⟩

theorem Changing.write {now : Time} {found : List (Uuid × User)} {k id : Uuid} {base : Option Row} {u : User}
    {hash : String}
    (h : Changing now found tx) (hk : k ∉ found.map Prod.fst) (hv : tx.view k base = some (.user u)) (hw : u.id = id) :
    Changing now (found ++ [(k, (setPassword id hash).set u)])
      (tx.write k base (some (.user ((setPassword id hash).set u)))) := by
  have untouched : tx.changes k = none :=
    Option.eq_none_iff_forall_ne_some.mpr fun c hc => hk (h.2 k c hc).1
  rw [Tx.view_of_unchanged untouched] at hv
  refine ⟨h.1, fun k' c hc => ?_⟩
  rw [List.map_append, List.mem_append]
  rcases changes_write_new untouched hc with ⟨rfl, rfl⟩ | hc
  · exact ⟨Or.inr (List.mem_singleton_self _), u, hash, by rw [hv, hw]⟩
  · exact ⟨Or.inl (h.2 k' c hc).1, (h.2 k' c hc).2⟩

theorem safe_setPassword {now : Time} {id : Uuid} {hash : String} {next : List (Uuid × User) → Handler}
    (done : ∀ found tx, Changing now found tx → (next found).Safe (spec p) q past (some tx)) :
    (update users (fun _ => setPassword id hash) next).Safe (spec p) q past (some (.empty now)) :=
  safe_update (J := Changing now) ⟨rfl, fun _ _ h => by cases h⟩ (fun _ _ _ _ _ _ hJ hk hv valid hw =>
    ⟨valid, hJ.write hk hv (of_decide_eq_true hw)⟩) done

theorem Changing.lawful {now : Time} {found : List (Uuid × User)} (h : Changing now found tx) {k : Uuid}
    {c : Change Row}
    (hc : tx.changes k = some c) : Lawful p q tx.start k c := by
  obtain ⟨-, u, hash, rfl⟩ := h.2 k c hc
  exact .password u hash

theorem safe_updateUserPassword {id : Uuid} {passwordHash : String} :
    (updateUserPassword id passwordHash).Safe (spec p) (.updateUserPassword id passwordHash) past none := by
  intro now
  refine safe_setPassword fun found tx hJ => ?_
  cases found with
  | nil => exact safe_rollback
  | cons ku rest =>
    -- what is changed is a password or a removed token
    let J (tx : Tx Uuid Row Empty) : Prop := ∀ k c, tx.changes k = some c →
      Lawful p (.updateUserPassword id passwordHash) tx.start k c ∧ ∀ t, c.new ≠ some (.refreshToken t)
    refine safe_delete (J := J) (fun k c hc => ⟨hJ.lawful hc, fun t ht => ?_⟩) ?_ ?_
    · obtain ⟨-, u, hash, rfl⟩ := hJ.2 k c hc
      cases ht
    · intro tx k base t hJ hv _ _ k' c hc
      have untouched : tx.changes k = none := by
        refine Option.eq_none_iff_forall_ne_some.mpr fun c hc => ?_
        rw [Tx.view_of_changes hc] at hv
        exact (hJ k c hc).2 t hv
      rw [Tx.view_of_unchanged untouched] at hv
      rcases changes_write_new untouched hc with ⟨rfl, rfl⟩ | hc
      · rw [hv]
        exact ⟨.revoke t (fun _ h => by cases h), fun _ h => by cases h⟩
      · exact hJ k' c hc
    · intro tx hJ
      exact ⟨⟨fun k c hc => (hJ k c hc).1, fun _ _ _ _ h => by cases h⟩, safe_done⟩

theorem newest_mem {rs : List (Uuid × PasswordReset)} {r : Uuid × PasswordReset} (h : newest rs = some r) : r ∈ rs := by
  induction rs with
  | nil => cases h
  | cons r' rs ih =>
    rw [newest] at h
    cases hn : newest rs with
    | none =>
      rw [hn] at h
      exact Option.some.inj h ▸ List.mem_cons_self ..
    | some r'' =>
      rw [hn] at h
      dsimp only at h
      split at h
      · exact List.mem_cons_of_mem _ (ih (hn.trans h))
      · exact Option.some.inj h ▸ List.mem_cons_self ..

theorem safe_resetPassword {email rawToken newPassword salt : String} :
    (resetPassword p email rawToken newPassword salt).Safe (spec p)
    (.resetPassword email rawToken newPassword salt) past none := by
  unfold resetPassword
  dsimp only
  split
  · exact safe_refused
  intro now snapshot sees valid
  dsimp only
  cases hn : newest (matching passwordResets
    (·.redeemable p (p.normalizeEmail email) (p.sha256Hex (trimmed rawToken)) now) snapshot) with
  | none => exact ⟨commit_empty, safe_refused⟩
  | some kr =>
    obtain ⟨k, chosen⟩ := kr
    obtain ⟨hmem, hredeem⟩ := List.mem_filter.mp (newest_mem hn)
    have hchosen := valid k _ (Table.mem_rows.mp hmem)
    simp only [PasswordReset.redeemable, Bool.and_eq_true, decide_eq_true_eq] at hredeem
    have presented : p.sha256Hex (trimmed rawToken) = p.sha256Hex (p.secret k) :=
      hredeem.1.1.2.symm.trans hchosen.2
    -- the one row it may mark is the one chosen
    let J (found : List (Uuid × Row)) (tx : Tx Uuid Row Empty) : Prop := tx.start = now ∧
      (∀ k' c, tx.changes k' = some c → k' = k ∧
        ∃ r, c = ⟨some (.passwordReset r), some (.passwordReset { r with usedAt := some now }), false⟩) ∧
      (∀ kr ∈ found, kr.1 = k) ∧ (found = [] ↔ tx.changes k = none)
    have start : J [] (.empty now) := ⟨rfl, fun _ _ h => (by cases h), fun _ h => (by cases h), by simp⟩
    refine safe_on (List.nodup_singleton k) start ?_ ?_
    · intro found tx k' base r hJ hk hv hr hid
      obtain rfl : k' = k := hr.1.symm.trans ((of_decide_eq_true hid).trans hchosen.1)
      have first : found = [] := by
        refine List.eq_nil_iff_forall_not_mem.mpr fun kr hkr => hk ?_
        exact List.mem_map.mpr ⟨kr, hkr, hJ.2.2.1 kr hkr⟩
      subst first
      have untouched : tx.changes k' = none := hJ.2.2.2.mp rfl
      rw [Tx.view_of_unchanged untouched] at hv
      refine ⟨fun r' hr' => Option.some.inj hr' ▸ hr, hJ.1, fun k'' c hc => ?_, fun kr hkr => ?_, ?_⟩
      · rcases changes_write_new untouched hc with ⟨rfl, rfl⟩ | hc
        · exact ⟨rfl, r, by rw [hv]; rfl⟩
        · exact hJ.2.1 k'' c hc
      · exact List.mem_singleton.mp hkr ▸ rfl
      · simp [Tx.changes_write]
    · intro found tx hJ
      have ok : (spec p).commit (.resetPassword email rawToken newPassword salt) past tx := by
        refine ⟨fun k' c hc => ?_, Authorised.of_no_user fun k' c u hc hb => ?_⟩
        · obtain ⟨rfl, r, rfl⟩ := hJ.2.1 k' c hc
          rw [← hJ.1]
          exact .use r rfl presented
        · obtain ⟨-, r, rfl⟩ := hJ.2.1 k' c hc
          cases hb
      refine ⟨ok, ?_⟩
      split
      · exact safe_refused
      · rename_i hvalid
        have used : tx.changes k ≠ none := fun h => by simp [hJ.2.2.2.mpr h] at hvalid
        unfold findUserByEmail
        refine safe_select fun user now' => ?_
        cases user with
        | none => exact safe_refused
        | some user =>
          intro now''
          refine safe_setPassword fun _ tx' hJ' =>
            ⟨⟨fun k' c hc => hJ'.lawful hc, fun _ _ _ _ _ k' c u hc hb => ?_⟩, fun fails => ?_⟩
          · obtain ⟨c', hc'⟩ := Option.ne_none_iff_exists'.mp used
            obtain ⟨-, r, rfl⟩ := hJ.2.1 k c' hc'
            exact ⟨tx, by simp, k, _, r, hc', rfl⟩
          · dsimp only
            split
            · exact safe_done
            · exact fun _ => safe_revoke (fun _ h => by cases h) fun _ => safe_done

theorem serves (q : Request) : (serve p q).Safe (spec p) q [] none := by
  cases q with
  | createUser email passwordHash role =>
    show (createUser email passwordHash role).Safe (spec p) _ _ _
    exact safe_createUser
  | login identifier password =>
    show (login p identifier password).Safe (spec p) _ _ _
    exact safe_login
  | refresh token =>
    show (refresh p token).Safe (spec p) _ _ _
    exact safe_refresh
  | logout token =>
    show (logout p token).Safe (spec p) _ _ _
    exact safe_logout
  | deleteExpiredTokens => exact safe_deleteExpiredTokens
  | forgotPassword email =>
    show (forgotPassword p email).Safe (spec p) _ _ _
    exact safe_forgotPassword
  | resetPassword email rawToken newPassword salt =>
    show (resetPassword p email rawToken newPassword salt).Safe (spec p) _ _ _
    exact safe_resetPassword
  | updateUserPassword id passwordHash =>
    show (updateUserPassword id passwordHash).Safe (spec p) _ _ _
    exact safe_updateUserPassword

end Auth
end DatrixOps
