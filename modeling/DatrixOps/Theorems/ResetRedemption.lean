import Mathlib.Data.List.Pairwise
import DatrixOps.Postgres.Interference
import DatrixOps.Theorems.RefreshRedemption

/-! A password reset is redeemed by an `UPDATE` whose sub-select has chosen the row; after waiting for the row it
    evaluates `id` again and nothing else. As long as it finds the row unused, a token changes one password. -/

namespace DatrixOps
namespace Auth
open Postgres Prog

/-- `e` redeems the password reset under key `k`. -/
def Uses (e : Commit Request Uuid Row Empty) (k : Uuid) : Prop :=
  ∃ c r, e.tx.changes k = some c ∧ c.base = some (.passwordReset r)

/-- A call redeems a password reset that, as committed, is still unused. -/
def Unspent (s s' : State Request Uuid Row Empty Bool Response) : Prop :=
  ∀ e, s'.log = e :: s.log → ∀ k c, e.tx.changes k = some c → ∀ r, s.rows k = some (.passwordReset r) → r.usedAt = none

/-- Session `i` serves a reset that presents `token`, and has changed a password. -/
def ChangedBy (token : String) (i : Nat) (s : State Request Uuid Row Empty Bool Response) : Prop :=
  (∃ email rawToken newPassword salt session, s.sessions i = some session ∧
    session.request = .resetPassword email rawToken newPassword salt ∧ trimmed rawToken = token) ∧
  ∃ tx ∈ s.past i, ∃ k c u, tx.changes k = some c ∧ c.base = some (.user u)

/-- Every password reset is redeemed once at most, and before it expires. -/
structure SingleUse (w : World Request Uuid Row Empty) : Prop where
  once : w.log.Pairwise fun e e' => ∀ k, Uses e k → ¬Uses e' k
  marked : ∀ e ∈ w.log, ∀ k, Uses e k → ∃ r, w.rows k = some (.passwordReset r) ∧ r.usedAt ≠ none
  unexpired : ∀ e ∈ w.log, ∀ k c r, e.tx.changes k = some c → c.base = some (.passwordReset r) →
    e.tx.start < r.expiresAt

/-- The contract of the calls: a reset is used while it is unused. -/
def redemption (p : Crypto) : Contract Request Uuid Row Empty Bool Response where
  spec := spec p
  inv := SingleUse
  admits w e := ∀ k c, e.tx.changes k = some c → ∀ r, w.rows k = some (.passwordReset r) → r.usedAt = none
  rely _ _ _ := True
  reply _ _ := True
  answer _ _ _ _ := True

variable {p : Crypto} {q : Request} {i : Nat} {tx : Tx Uuid Row Empty} {w w' : World Request Uuid Row Empty}
  {now : Time} {k : Uuid} {c : Change Row}

theorem Lawful.use_new (h : Lawful p q now k c) {r : PasswordReset} (hb : c.base = some (.passwordReset r)) :
    c.new = some (.passwordReset { r with usedAt := some now }) := by
  cases h with
  | use r₀ asked presented =>
    obtain rfl : r₀ = r := by cases hb; rfl
    rfl
  | _ => cases hb

theorem Lawful.use_asked (h : Lawful p q now k c) {r : PasswordReset} (hb : c.base = some (.passwordReset r)) :
    ∃ email rawToken newPassword salt, q = .resetPassword email rawToken newPassword salt ∧
      p.sha256Hex (trimmed rawToken) = p.sha256Hex (p.secret k) := by
  cases h with
  | use r₀ asked presented => exact ⟨_, _, _, _, asked, presented⟩
  | _ => cases hb

/-! ### What a commit keeps -/

/-- A redeemed reset stays, marked as used. -/
theorem SingleUse.still_marked {e : Commit Request Uuid Row Empty}
    (h : ∃ r, w.rows k = some (.passwordReset r) ∧ r.usedAt ≠ none)
    (base : ∀ k c, e.tx.changes k = some c → c.base = w.rows k)
    (lawful : ∀ k c, e.tx.changes k = some c → Lawful p e.request e.tx.start k c) :
    ∃ r, (w.commit e).rows k = some (.passwordReset r) ∧ r.usedAt ≠ none := by
  obtain ⟨r, hr, hused⟩ := h
  cases hc : e.tx.changes k with
  | none => exact ⟨r, (World.rows_commit_of_unchanged hc).trans hr, hused⟩
  | some c =>
    have new := (lawful k c hc).use_new ((base k c hc).trans hr)
    exact ⟨_, (World.rows_commit_of_changes hc).trans new, Option.some_ne_none _⟩

theorem SingleUse.commit {e : Commit Request Uuid Row Empty} (h : SingleUse w)
    (base : ∀ k c, e.tx.changes k = some c → c.base = w.rows k)
    (lawful : ∀ k c, e.tx.changes k = some c → Lawful p e.request e.tx.start k c)
    (unspent : (redemption p).admits w e)
    (unexpired : ∀ k c r, e.tx.changes k = some c → c.base = some (.passwordReset r) → e.tx.start < r.expiresAt) :
    SingleUse (w.commit e) := by
  constructor
  · refine List.pairwise_cons.mpr ⟨fun e' he' k hk hk' => ?_, h.once⟩
    obtain ⟨c, r, hc, hb⟩ := hk
    obtain ⟨r', hr', hused⟩ := h.marked e' he' k hk'
    exact hused (unspent k c hc r' hr')
  · intro e' he' k hk
    rcases List.mem_cons.mp he' with rfl | he'
    · obtain ⟨c, r, hc, hb⟩ := hk
      exact ⟨_, (World.rows_commit_of_changes hc).trans ((lawful k c hc).use_new hb), Option.some_ne_none _⟩
    · exact SingleUse.still_marked (h.marked e' he' k hk) base lawful
  · intro e' he'
    rcases List.mem_cons.mp he' with rfl | he'
    · exact unexpired
    · exact h.unexpired e' he'

/-! ### The redemption -/

/-- The reset under key `k` expires after `now`. -/
def Expiring (now : Time) (k : Uuid) (w : World Request Uuid Row Empty) : Prop :=
  ∃ r, w.rows k = some (.passwordReset r) ∧ now < r.expiresAt

theorem Expiring.move {tx : Option (Tx Uuid Row Empty)} (h : Expiring now k w) (move : (redemption p).Moves i tx w w') :
    Expiring now k w' := by
  obtain ⟨r, hr, hnow⟩ := h
  cases move with
  | commit e other apart base ok =>
    cases hc : e.tx.changes k with
    | none => exact ⟨r, (World.rows_commit_of_unchanged hc).trans hr, hnow⟩
    | some c =>
      have new := (ok.1 k c hc).use_new ((base k c hc).trans hr)
      exact ⟨_, (World.rows_commit_of_changes hc).trans new, hnow⟩

/-- What the transaction has redeemed, it has redeemed in time. -/
def InTime (tx : Tx Uuid Row Empty) : Prop :=
  ∀ k c r, tx.changes k = some c → c.base = some (.passwordReset r) → tx.start < r.expiresAt

theorem InTime.empty : InTime (.empty now) := fun _ _ _ h => by cases h

theorem InTime.write {new : Option Row} (h : InTime tx)
    (fits : ∀ r, w.rows k = some (.passwordReset r) → tx.start < r.expiresAt) :
    InTime (tx.write k (w.rows k) new) := by
  intro k' c r hc hb
  by_cases hk : k' = k
  · subst hk
    rw [Tx.changes_write] at hc
    obtain rfl := Option.some.inj hc
    cases hold : tx.changes k' with
    | none =>
      rw [hold] at hb
      exact fits r hb
    | some c =>
      rw [hold] at hb
      exact h k' c r hold hb
  · rw [Tx.changes_write_of_ne hk] at hc
    exact h k' c r hc hb

/-- The transaction redeems nothing. -/
def NoReset (tx : Tx Uuid Row Empty) : Prop := ∀ k c r, tx.changes k = some c → c.base ≠ some (.passwordReset r)

theorem NoReset.inTime (h : NoReset tx) : InTime tx := fun k c r hc hb => absurd hb (h k c r hc)

theorem NoReset.empty : NoReset (.empty now) := fun _ _ _ h => by cases h

theorem NoReset.write {base new : Option Row} {row : Row} (h : NoReset tx) (hv : tx.view k base = some row)
    (other : ∀ r, row ≠ .passwordReset r) : NoReset (tx.write k base new) := by
  intro k' c r hc hb
  by_cases hk : k' = k
  · subst hk
    rw [Tx.changes_write] at hc
    obtain rfl := Option.some.inj hc
    cases hold : tx.changes k' with
    | none =>
      rw [Tx.view_of_unchanged hold] at hv
      rw [hold, hv] at hb
      exact other r (Option.some.inj hb)
    | some c =>
      rw [hold] at hb
      exact h k' c r hold hb
  · rw [Tx.changes_write_of_ne hk] at hc
    exact h k' c r hc hb

/-- What the statements that follow the redemption keep to. -/
def elsewhere (p : Crypto) : Spec Request Uuid Row Empty Response where
  row := (spec p).row
  commit _ _ tx := NoReset tx
  answer _ _ _ := True

theorem holds_elsewhere {prog : Handler} (good : (redemption p).Good w)
    (safe : prog.Safe (elsewhere p) q (w.past i) none) : prog.Holds (redemption p) i q none w :=
  Safe.holds (C := redemption p) (show (elsewhere p).row = (spec p).row from rfl)
    (fun _ _ good base ok noReset _ unspent => good.2.commit base ok.1 unspent noReset.inTime) (fun _ _ =>
      trivial) good rfl safe

theorem holds_redemption {email tokenHash : String} {next : Bool → Handler} (good : (redemption p).Good w)
    (then_ : ∀ valid w, (redemption p).Good w → (next valid).Holds (redemption p) i q none w) :
    (validateAndConsumePasswordResetToken p email tokenHash next).Holds (redemption p) i q none w := by
  have commit : ∀ {tx w valid}, (redemption p).Good w → InTime tx →
      (Prog.commit (next valid)).Holds (redemption p) i q (some tx) w := by
    intro tx w valid good inTime
    refine Contract.always good trivial (fun _ _ _ _ _ => trivial) fun w good _ base ok valid unspent => ?_
    have kept : SingleUse (w.commit ⟨i, q, tx⟩) := good.2.commit base ok.1 unspent inTime
    exact ⟨kept, then_ _ _ ⟨valid, kept⟩⟩
  refine Contract.always good trivial (fun _ _ _ _ _ => trivial) fun w good _ now => ?_
  refine Contract.always good trivial (fun _ _ _ _ _ => trivial) fun w good _ snapshot seen _ => ?_
  dsimp only
  cases hn : newest (matching passwordResets (·.redeemable p email tokenHash now) snapshot) with
  | none => exact commit good .empty
  | some kr =>
    obtain ⟨k, chosen⟩ := kr
    obtain ⟨hmem, hredeem⟩ := List.mem_filter.mp (newest_mem hn)
    simp only [PasswordReset.redeemable, Bool.and_eq_true, decide_eq_true_eq] at hredeem
    -- the row chosen, which expires after the statement began, is the one visited
    have start : Expiring now k w := ⟨chosen, (seen.2 k _).mp (Table.mem_rows.mp hmem), hredeem.2⟩
    refine holds_visit (J := fun ks _ tx w => (∀ k' ∈ ks, k' = k) ∧ Expiring now k w ∧ tx.start = now ∧ InTime tx)
      (fun _ _ _ _ _ _ h move => ⟨h.1, h.2.1.move move, h.2.2⟩)
      (fun _ _ _ _ _ h _ => ⟨fun k' hk' => h.1 k' (List.mem_cons_of_mem _ hk'), h.2⟩)
      (fun k' ks _ tx w row new _ h hv _ hf => ?_) (fun _ _ _ _ good h _ => commit good h.2.2.2) [k] []
      (.empty now) w good
      ⟨fun k' hk' => List.mem_singleton.mp hk', start, rfl, .empty⟩
    obtain ⟨only, expiring, hstart, inTime⟩ := h
    obtain rfl : k' = k := only k' (List.mem_cons_self ..)
    refine ⟨fun k'' hk'' => only k'' (List.mem_cons_of_mem _ hk''), expiring, hstart, inTime.write fun r hr => ?_⟩
    obtain ⟨r', hr', hnow⟩ := expiring
    obtain rfl : r' = r := by
      rw [hr] at hr'
      cases hr'
      rfl
    exact hstart ▸ hnow

theorem safe_changePassword {past : List (Tx Uuid Row Empty)} {email newPassword salt : String} :
    (findUserByEmail email fun
      | none => .answer .refused
      | some user =>
        .start fun _ => update users (fun _ => setPassword user.id (p.bcrypt newPassword salt)) fun _ => .commit <|
          .ask fun fails =>
            if fails then .answer .done
            else .start fun _ => revokeAllRefreshTokens user.id (.commit (.answer .done)) : Handler).Safe
      (elsewhere p) q past none := by
  intro now snapshot _ _
  refine ⟨NoReset.empty, ?_⟩
  dsimp only
  split
  · exact trivial
  · intro now'
    refine safe_update (J := fun _ tx => NoReset tx) .empty (fun _ _ tx k base u hJ _ hv valid _ => ?_)
      fun _ tx hJ => ⟨hJ, ?_⟩
    · exact ⟨valid, hJ.write hv fun r h => by cases h⟩
    · intro fails
      dsimp only
      split
      · exact trivial
      · intro now''
        refine safe_delete (J := NoReset) .empty (fun tx k base t hJ hv _ _ => hJ.write hv fun r h => ?_)
          fun tx hJ => ⟨hJ, trivial⟩
        cases h

theorem holds_reset {email rawToken newPassword salt : String} (good : (redemption p).Good w) :
    (resetPassword p email rawToken newPassword salt).Holds (redemption p) i q none w := by
  unfold resetPassword
  dsimp only
  split
  · exact holds_elsewhere good trivial
  refine holds_redemption good fun valid w good => ?_
  split
  · exact holds_elsewhere good trivial
  · exact holds_elsewhere good safe_changePassword

theorem redeems (i : Nat) (q : Request) (w : World Request Uuid Row Empty) (good : (redemption p).Good w)
    (new : w.past i = []) : (serve p q).Holds (redemption p) i q none w := by
  by_cases hq : ∃ email rawToken newPassword salt, q = .resetPassword email rawToken newPassword salt
  · obtain ⟨email, rawToken, newPassword, salt, rfl⟩ := hq
    exact holds_reset good
  · refine Safe.holds (C := redemption p) rfl (fun w tx good base ok _ _ unspent => ?_) (fun _ _ =>
      trivial) good new (serves q)
    refine good.2.commit base ok.1 unspent fun k c r hc hb => ?_
    obtain ⟨email, rawToken, newPassword, salt, asked, -⟩ := (ok.1 k c hc).use_asked hb
    exact absurd ⟨email, rawToken, newPassword, salt, asked⟩ hq

/-! ### The run -/

variable {rows₀ : Uuid → Option Row} {s : State Request Uuid Row Empty Bool Response} {token : String}

/-- A reset that has changed a password has redeemed the token it was given. -/
theorem redeemed_of_changed (ideal : p.Ideal) (consistent : Consistent (spec p) rows₀ s) (attributed : Attributed s)
    (h : ChangedBy token i s) : ∃ e ∈ s.log, e.session = i ∧ ∃ k, token = p.secret k ∧ Uses e k := by
  obtain ⟨⟨email, rawToken, newPassword, salt, session, hs, asked, rfl⟩, tx, htx, k, c, u, hc, hb⟩ := h
  -- every commit of the session is one of this request
  have request : ∀ e ∈ s.log, e.session = i → e.request = .resetPassword email rawToken newPassword salt := by
    rintro e he rfl
    obtain ⟨session', hs', hq⟩ := attributed e he
    obtain rfl := Option.some.inj (hs.symm.trans hs')
    exact hq.symm.trans asked
  obtain ⟨e, he, rfl, rfl⟩ := State.exists_of_mem_past htx
  obtain ⟨past, ok, hpast⟩ := consistent.history.ok he
  obtain ⟨tx', htx', k', c', r, hc', hb'⟩ := ok.2 email rawToken newPassword salt (request e he rfl) k c u hc hb
  obtain ⟨e', he', hsession, rfl⟩ := hpast tx' htx'
  obtain ⟨_, ok', _⟩ := consistent.history.ok he'
  obtain ⟨_, _, _, _, asked', presented⟩ := (ok'.1 k' c' hc').use_asked hb'
  obtain ⟨-, rfl, -, -⟩ := Request.resetPassword.inj (asked'.symm.trans (request e' he' hsession))
  exact ⟨e', he', hsession, k', ideal.injective presented, c', r, hc', hb'⟩

/-- In a run in which every redemption finds its row unused, a token changes the password of one call at most, which
    has redeemed it before it expired. -/
theorem changes_once (ideal : p.Ideal) (drawn : Function.Injective p.secret)
    (valid : ∀ k r, rows₀ k = some r → (spec p).row k r) (h : ReachableBy (serve p) Unspent rows₀ s) :
    (∀ i j, ChangedBy token i s → ChangedBy token j s → i = j) ∧
    ∀ i, ChangedBy token i s → ∃ e ∈ s.log, e.session = i ∧ ∃ k c r, token = p.secret k ∧ e.tx.changes k = some c ∧
      c.base = some (.passwordReset r) ∧ e.tx.start < r.expiresAt := by
  obtain ⟨consistent, upheld⟩ : Consistent (spec p) rows₀ s ∧ Upheld (redemption p) s := by
    refine h.upheld (C := redemption p) serves redeems (fun _ _ _ _ _ _ _ _ => trivial) ?_ valid
      ⟨.nil, fun _ he => (by cases he), fun _ he => by cases he⟩
    intro s i q next tx _ _ here unspent
    exact ⟨unspent ⟨i, q, tx⟩ rfl, fun _ _ _ _ => trivial⟩
  have redeemed := fun i (hi : ChangedBy token i s) => redeemed_of_changed ideal consistent h.reachable.attributed hi
  constructor
  · intro i j hi hj
    obtain ⟨e, he, rfl, k, hk, uses⟩ := redeemed i hi
    obtain ⟨e', he', rfl, k', hk', uses'⟩ := redeemed j hj
    obtain rfl : k = k' := drawn (hk.symm.trans hk')
    by_contra hne
    have : Std.Symm fun e e' : Commit Request Uuid Row Empty => ∀ k, Uses e k → ¬Uses e' k :=
      ⟨fun e e' h k hk hk' => h k hk' hk⟩
    exact upheld.inv.once.forall he he' (fun same => hne (congrArg _ same)) k uses uses'
  · intro i hi
    obtain ⟨e, he, hsession, k, hk, c, r, hc, hb⟩ := redeemed i hi
    exact ⟨e, he, hsession, k, c, r, hk, hc, hb, upheld.inv.unexpired e he k c r hc hb⟩

/-! ### Two runs -/

/-- For examples: the token drawn for a row is as long as its key says. -/
def tallyCrypto : Crypto := { plainCrypto with secret := fun id => String.ofList (List.replicate id 'x') }

theorem tallyCrypto_ideal : tallyCrypto.Ideal where
  injective := plainCrypto_ideal.injective
  unguessable k k' h := by
    have lists : List.replicate k 'x' = '#' :: List.replicate k' 'x' := by
      simpa [tallyCrypto, plainCrypto, ← String.toList_inj] using h
    cases k <;> simp [List.replicate_succ] at lists

theorem tallyCrypto_drawn : Function.Injective tallyCrypto.secret := by
  intro a b h
  simpa using congrArg List.length (String.ofList_injective h)

/-- Alice has asked for a reset. -/
def forgetful : List (Uuid × Row) :=
  [(1, .user alice), (2, .passwordReset ⟨2, "alice@example.org", "#xx", hour, none, 0⟩)]

theorem forgetful_valid (k : Uuid) (r : Row) (h : forgetful.lookup k = some r) : (spec tallyCrypto).row k r := by
  simp only [forgetful, List.lookup_cons, List.lookup_nil] at h
  split at h
  · rename_i hk
    obtain rfl := Option.some.inj h
    exact (beq_iff_eq.mp hk).symm
  · split at h
    · rename_i hk
      obtain rfl := Option.some.inj h
      obtain rfl := beq_iff_eq.mp hk
      exact ⟨rfl, by decide⟩
    · cases h

/-- A reset of the password with the token drawn. -/
def resetTo (newPassword : String) : Request := .resetPassword "alice@example.org" "xx" newPassword ""

/-- What is left of a reset that has chosen its row. -/
def resetGoesOn (i : Nat) : List (Move Request Uuid Bool) :=
  List.replicate 9 (.next i) ++ .reply i false :: List.replicate 4 (.next i)

/-- Two calls choose the row before either has marked it. -/
def resetTwice : List (Move Request Uuid Bool) :=
  [.arrive 0 (resetTo "second password"), .arrive 1 (resetTo "third password"), .next 0, .next 0, .next 1, .next 1] ++
    resetGoesOn 0 ++ resetGoesOn 1

/-- For examples: session `i` has served a reset and changed the password of user 1. -/
def changed (i : Nat) (newPassword : String) (s : Listed Request Uuid Row Empty Bool Response) : Bool :=
  s.served i = some (resetTo newPassword, .done) &&
    (s.state.past i).any fun tx => (tx.changes 1).any fun c => c.base.any fun r => r.user?.isSome

theorem changedBy_of_check {newPassword : String} {s : Listed Request Uuid Row Empty Bool Response}
    (h : changed i newPassword s = true) : ChangedBy "xx" i s.state := by
  obtain ⟨served, past⟩ := Bool.and_eq_true_iff.mp h
  obtain ⟨tx, hs⟩ := Listed.sessions_of_served (of_decide_eq_true served)
  obtain ⟨tx', htx', hc⟩ := List.any_eq_true.mp past
  obtain ⟨c, hc, hb⟩ := (Option.any_eq_true _ _).mp hc
  obtain ⟨r, hr, hu⟩ := (Option.any_eq_true _ _).mp hb
  obtain ⟨u, hu⟩ := Option.isSome_iff_exists.mp hu
  obtain rfl : users.put u = r := users.put_get r u hu
  exact ⟨⟨_, _, _, _, _, hs, rfl, by decide +kernel⟩, tx', htx', 1, c, u, hc, hr⟩

/-- Both change the password. -/
theorem token_spent_twice : tallyCrypto.Ideal ∧ Function.Injective tallyCrypto.secret ∧
    (∀ k r, forgetful.lookup k = some r → (spec tallyCrypto).row k r) ∧
    ∃ s, Reachable (serve tallyCrypto) (fun k => forgetful.lookup k) s ∧ ChangedBy "xx" 0 s ∧ ChangedBy "xx" 1 s := by
  obtain ⟨s, reachable, both⟩ := Listed.reachable_of_check (serve tallyCrypto) 0 forgetful resetTwice
    (fun s => changed 0 "second password" s && changed 1 "third password" s) (by decide +kernel)
  obtain ⟨first, second⟩ := Bool.and_eq_true_iff.mp both
  exact ⟨tallyCrypto_ideal, tallyCrypto_drawn, forgetful_valid, s.state, reachable, changedBy_of_check first,
    changedBy_of_check second⟩

/-- For examples: every reset the last commit has redeemed was unused. -/
def unspent (s s' : Listed Request Uuid Row Empty Bool Response) : Bool :=
  s'.log.length = s.log.length || s'.log.head?.all fun e => s'.keys.all fun k => (e.tx.changes k).isNone ||
    ((s.rows k).bind Row.passwordReset?).all (·.usedAt.isNone)

theorem unspent_of_check {s s' : Listed Request Uuid Row Empty Bool Response}
    (valid : ∀ k r, rows₀ k = some r → (spec p).row k r) (h : Reachable (serve p) rows₀ s.state)
    (step : Step (serve p) s.state s'.state) (ok : unspent s s' = true) : Unspent s.state s'.state := by
  intro e hlog k c hc r hr
  have hlog : s'.log = e :: s.log := hlog
  have consistent := (h.consistent serves valid).step serves step
  have hk : k ∈ s'.keys := consistent.usedLog e (by rw [show s'.state.log = e :: s.log from hlog]; simp) k c hc
  simp only [unspent, hlog, List.length_cons, List.head?_cons, Option.all_some, Bool.or_eq_true, decide_eq_true_eq,
    Nat.succ_ne_self, false_or, List.all_eq_true] at ok
  have known := ok k hk
  have hr : s.rows k = some (.passwordReset r) := hr
  simpa [hc, hr, Row.passwordReset?] using known

theorem changes_once_alice : ∃ s, ReachableBy (serve tallyCrypto) Unspent (fun k => forgetful.lookup k) s ∧
    ChangedBy "xx" 0 s ∧ (∀ i j, ChangedBy "xx" i s → ChangedBy "xx" j s → i = j) ∧
    ∀ i, ChangedBy "xx" i s → ∃ e ∈ s.log, e.session = i ∧ ∃ k c r, "xx" = tallyCrypto.secret k ∧
      e.tx.changes k = some c ∧ c.base = some (.passwordReset r) ∧ e.tx.start < r.expiresAt := by
  obtain ⟨s, reachable, done⟩ := Listed.reachableBy_of_check (serve tallyCrypto) 0 forgetful
    ([.arrive 0 (resetTo "second password"), .next 0, .next 0] ++ resetGoesOn 0) Unspent unspent
    (fun _ _ h step _ => unspent_of_check forgetful_valid h step) (changed 0 "second password") (by decide +kernel)
  exact ⟨s.state, reachable, changedBy_of_check done,
    changes_once tallyCrypto_ideal tallyCrypto_drawn forgetful_valid reachable⟩

end Auth
end DatrixOps
