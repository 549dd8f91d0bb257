import DatrixOps.Postgres.Interference
import DatrixOps.Theorems.RefreshRedemption

/-! A password change ends the sessions that older passwords have opened, in every run in which no token is stored
    for a password already changed. The change marks the user's row and then removes the tokens its snapshot shows;
    what is stored between the two is removed, what is stored later stays. -/

namespace DatrixOps
namespace Auth
open Postgres Prog

/-- The request sets a password. -/
def ChangesPassword : Request → Prop
  | .resetPassword .. | .updateUserPassword .. => True
  | _ => False

/-- The token was verified under the newest password that `view` shows. -/
def Current (view : Uuid → Option Row) (t : RefreshToken) : Prop :=
  ∀ u, view t.userId = some (.user u) → u.passwordChanges ≤ t.verified

/-- No revocation fails, and no token is stored for a password that has been changed or, in an open transaction, is
    being changed since it was verified. -/
structure Timely (s s' : State Request Uuid Row Empty Bool Response) : Prop where
  revokes : ∀ i email rawToken newPassword salt next tx,
    s.At i (.resetPassword email rawToken newPassword salt) (.ask next) tx →
      s' ≠ s.put i ⟨.resetPassword email rawToken newPassword salt, .running (next true), tx⟩
  current : ∀ e, s'.log = e :: s.log → ∀ k c t, e.tx.changes k = some c → c.new = some (.refreshToken t) →
    Current s.rows t ∧ ∀ j tx, j ≠ e.session → s.Open j tx → Current (fun k => tx.view k (s.rows k)) t

/-- No token is stored that was verified under a password older than one session `i` has set. -/
def Revoked (i : Nat) (w : World Request Uuid Row Empty) : Prop :=
  ∀ tx ∈ w.past i, ∀ k c u u', tx.changes k = some c → c.base = some (.user u) → c.new = some (.user u') →
    ∀ k' t, w.rows k' = some (.refreshToken t) → t.userId = u'.id → u'.passwordChanges ≤ t.verified

/-- The contract of the calls: what is stored is current, and a call that has set a password has revoked the
    tokens from before. -/
def revocation (p : Crypto) : Contract Request Uuid Row Empty Bool Response where
  spec := spec p
  inv _ := True
  admits w e := ∀ k c t, e.tx.changes k = some c → c.new = some (.refreshToken t) → Current w.rows t
  rely tx w e := ∀ mine, tx = some mine → ∀ k c t, e.tx.changes k = some c → c.new = some (.refreshToken t) →
    Current (fun k => mine.view k (w.rows k)) t
  reply q fails := ∀ email rawToken newPassword salt, q = .resetPassword email rawToken newPassword salt → fails = false
  answer i q a w := ChangesPassword q → a = .done → Revoked i w

variable {p : Crypto} {q : Request} {i : Nat} {id v : Nat} {tx : Tx Uuid Row Empty}
  {w w' : World Request Uuid Row Empty}
  {now : Time} {k : Uuid} {c : Change Row}

theorem Lawful.user_kept (h : Lawful p q now k c) {u : User} (hb : c.base = some (.user u)) :
    ∃ u', c.new = some (.user u') ∧ u.passwordChanges ≤ u'.passwordChanges := by
  cases h with
  | password u₀ hash =>
    obtain rfl : u₀ = u := by cases hb; rfl
    exact ⟨_, rfl, Nat.le_succ _⟩
  | _ => cases hb

/-! ### What a session knows while others commit -/

/-- If there is a `v`th change, the user's row shows it. -/
def Marked (id v : Nat) (tx : Tx Uuid Row Empty) (w : World Request Uuid Row Empty) : Prop :=
  v = 0 ∨ ∃ u, tx.view id (w.rows id) = some (.user u) ∧ v ≤ u.passwordChanges

/-- What the transaction changes of passwords is the `v`th change of that of user `id`. -/
def Only (id v : Nat) (tx : Tx Uuid Row Empty) : Prop :=
  ∀ k c u u', tx.changes k = some c → c.base = some (.user u) → c.new = some (.user u') →
    u'.id = id ∧ u'.passwordChanges = v

/-- The transaction changes no password. -/
def NoUser (tx : Tx Uuid Row Empty) : Prop := ∀ k c u, tx.changes k = some c → c.base ≠ some (.user u)

/-- A token of user `id` that was verified before the `v`th change. -/
def Old (id v : Nat) (r : Row) : Prop := ∃ t, r = .refreshToken t ∧ t.userId = id ∧ t.verified < v

theorem NoUser.empty {t : Time} : NoUser (.empty t) := fun _ _ _ h => by cases h

theorem NoUser.only (h : NoUser tx) : Only id v tx := fun k c u _ hc hb => absurd hb (h k c u hc)

theorem Marked.move (h : Marked id v tx w) (move : (revocation p).Moves i (some tx) w w') : Marked id v tx w' := by
  rcases h with rfl | ⟨u, hu, hv⟩
  · exact Or.inl rfl
  cases move with
  | commit e other apart base ok admitted known good =>
    cases hc : e.tx.changes id with
    | none => exact Or.inr ⟨u, by rw [World.rows_commit_of_unchanged hc]; exact hu, hv⟩
    | some c =>
      have untouched : tx.changes id = none := Option.eq_none_iff_forall_ne_some.mpr fun c' hc' => by
        rw [apart tx rfl id c' hc'] at hc
        cases hc
      rw [Tx.view_of_unchanged untouched, ← base id c hc] at hu
      obtain ⟨u', hn, hle⟩ := (ok.1 id c hc).user_kept hu
      exact Or.inr ⟨u', by rw [Tx.view_of_unchanged untouched, World.rows_commit_of_changes hc, hn], hv.trans hle⟩

theorem Marked.commit (h : Marked id v tx w) : Marked id v (.empty 0) (w.commit ⟨i, q, tx⟩) := by
  rcases h with rfl | ⟨u, hu, hv⟩
  · exact Or.inl rfl
  · exact Or.inr ⟨u, hu, hv⟩

/-- While the user's row shows `v`, nobody stores an older token. -/
theorem Marked.none_old (h : Marked id v tx w) (move : (revocation p).Moves i (some tx) w w') :
    ∀ k r, w'.rows k = some r → Old id v r → ∃ r₀, w.rows k = some r₀ ∧ Old id v r₀ := by
  cases move with
  | commit e other apart base ok admitted known good =>
    rintro k r hr ⟨t, rfl, rfl, hold⟩
    obtain ⟨u, hu, hv⟩ := h.resolve_left (Nat.ne_of_gt (Nat.zero_lt_of_lt hold))
    cases hc : e.tx.changes k with
    | none =>
      rw [World.rows_commit_of_unchanged hc] at hr
      exact ⟨_, hr, t, rfl, rfl, hold⟩
    | some c =>
      rw [World.rows_commit_of_changes hc] at hr
      exact absurd (hv.trans (known tx rfl k c t hc hr u hu)) (Nat.not_le.mpr hold)

/-! ### The revocation -/

theorem holds_answer {a : Response} {tx : Option (Tx Uuid Row Empty)} (h : ∀ w, (revocation p).answer i q a w) :
    (Prog.answer a : Handler).Holds (revocation p) i q tx w := fun _ _ _ _ => h _

theorem holds_refused {tx : Option (Tx Uuid Row Empty)} :
    (Prog.answer .refused : Handler).Holds (revocation p) i q tx w :=
  holds_answer fun _ _ h => by cases h

/-- What holds while the tokens `ks` are still to be removed. -/
structure Sweeping (i id v : Nat) (ks : List Uuid) (tx : Tx Uuid Row Empty)
    (w : World Request Uuid Row Empty) : Prop where
  marked : Marked id v tx w
  past : ∀ tx' ∈ w.past i, Only id v tx'
  only : Only id v tx
  remaining : Remaining (Old id v) ks tx w

theorem Sweeping.move {ks : List Uuid} (h : Sweeping i id v ks tx w) (move : (revocation p).Moves i (some tx) w w') :
    Sweeping i id v ks tx w' :=
  ⟨h.marked.move move, move.past ▸ h.past, h.only, h.remaining.move (h.marked.none_old move)⟩

theorem revoke_on {r : Row} {new : Option Row}
    (h : on refreshTokens (fun t => t.userId = id) (fun _ => none) r = some new) :
    (∃ t, r = .refreshToken t) ∧ new = none := by
  obtain ⟨t, rfl, -, rfl⟩ := on_eq_some h
  exact ⟨⟨t, rfl⟩, rfl⟩

theorem Sweeping.hit {ks : List Uuid} {row : Row} {new : Option Row} (h : Sweeping i id v (k :: ks) tx w)
    (hv : tx.view k (w.rows k) = some row)
    (hf : on refreshTokens (fun t => t.userId = id) (fun _ => none) row = some new) :
    Sweeping i id v ks (tx.write k (w.rows k) new) w := by
  obtain ⟨⟨t, rfl⟩, rfl⟩ := revoke_on hf
  refine ⟨?_, h.past, fun k' c u u' hc hb hn => ?_, h.remaining.hit fun _ hr => by cases hr⟩
  · rcases h.marked with rfl | ⟨u, hu, hle⟩
    · exact Or.inl rfl
    · -- the row is a token, not the user's
      have other : id ≠ k := by
        rintro rfl
        rw [hu] at hv
        cases hv
      exact Or.inr ⟨u, by rw [Tx.view, Tx.changes_write_of_ne other]; exact hu, hle⟩
  · by_cases hk : k' = k
    · subst hk
      rw [Tx.changes_write] at hc
      obtain rfl := Option.some.inj hc
      split at hn <;> cases hn
    · rw [Tx.changes_write_of_ne hk] at hc
      exact h.only k' c u u' hc hb hn

theorem Sweeping.pass {ks : List Uuid} (h : Sweeping i id v (k :: ks) tx w)
    (no : (tx.view k (w.rows k)).bind (on refreshTokens (fun t => t.userId = id) fun _ => none) = none) :
    Sweeping i id v ks tx w := by
  refine ⟨h.marked, h.past, h.only, h.remaining.pass no ?_⟩
  rintro r ⟨t, rfl, rfl, -⟩
  simp [on, refreshTokens, Row.refreshToken?]

/-- After the sweep is committed the older tokens are gone, and stay gone. -/
structure Swept (i id v : Nat) (w : World Request Uuid Row Empty) : Prop where
  marked : Marked id v (.empty 0) w
  past : ∀ tx ∈ w.past i, Only id v tx
  gone : ∀ k r, w.rows k = some r → ¬Old id v r

/-- A session without an open transaction relies on what every commit satisfies. -/
theorem moves_empty {t : Time} (move : (revocation p).Moves i none w w') :
    (revocation p).Moves i (some (.empty t)) w w' := by
  cases move with
  | commit e other apart base ok admitted known good =>
    refine .commit e other (fun t ht k c hc => ?_) base ok admitted (fun t ht => ?_) good
    · obtain rfl := Option.some.inj ht
      cases hc
    · obtain rfl := Option.some.inj ht
      exact admitted

theorem Swept.move (h : Swept i id v w) (move : (revocation p).Moves i none w w') : Swept i id v w' := by
  refine ⟨h.marked.move (moves_empty move), move.past ▸ h.past, fun k r hr hold => ?_⟩
  obtain ⟨r₀, hr₀, hold₀⟩ := h.marked.none_old (moves_empty move) k r hr hold
  exact h.gone k r₀ hr₀ hold₀

theorem Swept.revoked (h : Swept i id v w) : Revoked i w := by
  intro tx htx k c u u' hc hb hn k' t ht hid
  obtain ⟨rfl, rfl⟩ := h.past tx htx k c u u' hc hb hn
  exact Nat.not_lt.mp fun hold => h.gone k' _ ht ⟨t, rfl, hid, hold⟩

theorem Lawful.no_token (h : Lawful p q now k c) (hq : ChangesPassword q) (t : RefreshToken) :
    c.new ≠ some (.refreshToken t) := by
  intro hn
  cases h with
  | issue t asked => cases q <;> first | exact hq | exact asked
  | _ => cases hn

theorem Sweeping.swept (h : Sweeping i id v [] tx w) (hq : ChangesPassword q)
    (ok : ∀ k c, tx.changes k = some c → Lawful p q tx.start k c) : Swept i id v (w.commit ⟨i, q, tx⟩) := by
  refine ⟨h.marked.commit, World.forall_past_commit h.past h.only,
    fun k r hr => h.remaining.commit (fun k c r hc hn hold => ?_) hr⟩
  obtain ⟨t, rfl, -⟩ := hold
  exact absurd hn ((ok k c hc).no_token hq t)

theorem holds_revoke (hq : ChangesPassword q) (good : (revocation p).Good w) (marked : Marked id v tx w)
    (past : ∀ tx' ∈ w.past i, Only id v tx') (only : Only id v tx) :
    (revokeAllRefreshTokens id (.commit (.answer .done))).Holds (revocation p) i q (some tx) w := by
  unfold revokeAllRefreshTokens
  refine Contract.always (J := fun w => Marked id v tx w ∧ ∀ tx' ∈ w.past i, Only id v tx') good ⟨marked, past⟩
    (fun w w' _ h move => ⟨h.1.move move, move.past ▸ h.2⟩) fun w good h snapshot seen _ => ?_
  have start : Sweeping i id v ((matching refreshTokens (fun t => t.userId = id) snapshot).map Prod.fst) tx w := by
    refine ⟨h.1, h.2, only, .of_snapshot seen ?_⟩
    rintro r ⟨t, rfl, rfl, -⟩
    exact ⟨t, rfl, decide_eq_true rfl⟩
  refine holds_visit (J := fun ks _ tx w => Sweeping i id v ks tx w) (fun _ _ _ _ _ _ h move => h.move move)
    (fun k ks _ tx w h no => h.pass (no.resolve_left (by simp))) (fun k ks _ tx w row new _ h hv _ hf => h.hit hv hf)
    (fun ks _ tx w good h hks => ?_) _ [] tx w good start
  obtain rfl : ks = [] := hks.resolve_right (by simp)
  refine Contract.always good h (fun _ _ _ h move => h.move move) fun w good h _ ok valid _ => ⟨trivial, ?_⟩
  have swept : Swept i id v (w.commit ⟨i, q, tx⟩) := h.swept hq ok.1
  intro w' run w'' run'
  have stays : ∀ {w w'}, Relation.ReflTransGen ((revocation p).Moves i none) w w' → Swept i id v w →
      Swept i id v w' := by
    intro w w' run swept
    induction run with
    | refl => exact swept
    | tail _ move ih => exact ih.move move
  exact fun _ _ => (stays run' (stays run swept)).revoked

/-! ### The change -/

/-- The session has changed no password yet. -/
def Quiet (i : Nat) (w : World Request Uuid Row Empty) : Prop := ∀ tx ∈ w.past i, NoUser tx

theorem Quiet.move {tx : Option (Tx Uuid Row Empty)} (h : Quiet i w) (move : (revocation p).Moves i tx w w') :
    Quiet i w' := by
  rw [Quiet, move.past]
  exact h

theorem holds_commit {next : Handler} (good : (revocation p).Good w) (quiet : Quiet i w) (hn : NoUser tx)
    (then_ : ∀ w, (revocation p).Good w → Quiet i w → next.Holds (revocation p) i q none w) :
    (Prog.commit next).Holds (revocation p) i q (some tx) w := by
  refine Contract.always good quiet (fun _ _ _ h move => h.move move) fun w _ h _ _ valid _ => ⟨trivial, ?_⟩
  exact then_ _ ⟨valid, trivial⟩ (World.forall_past_commit h hn)

theorem holds_select {α : Type} {read : Time → List (Uuid × Row) → α} {next : α → Handler}
    (good : (revocation p).Good w) (quiet : Quiet i w)
    (then_ : ∀ a w, (revocation p).Good w → Quiet i w → (next a).Holds (revocation p) i q none w) :
    (select read next).Holds (revocation p) i q none w := by
  refine Contract.always good quiet (fun _ _ _ h move => h.move move) fun w good quiet now => ?_
  refine Contract.always good quiet (fun _ _ _ h move => h.move move) fun w good quiet snapshot _ _ => ?_
  exact holds_commit good quiet NoUser.empty (then_ _)

/-- What holds while the user's row is looked for among `ks`. -/
structure Setting (i id : Nat) (ks : List Uuid) (tx : Tx Uuid Row Empty) (w : World Request Uuid Row Empty) : Prop where
  quiet : Quiet i w
  nodup : ks.Nodup
  fresh : ∀ k ∈ ks, tx.changes k = none
  own : ∀ k c, tx.changes k = some c → k = id
  changed : ∃ v, Marked id v tx w ∧ Only id v tx

theorem Setting.move {ks : List Uuid} (h : Setting i id ks tx w) (move : (revocation p).Moves i (some tx) w w') :
    Setting i id ks tx w' := by
  obtain ⟨v, marked, only⟩ := h.changed
  exact ⟨h.quiet.move move, h.nodup, h.fresh, h.own, v, marked.move move, only⟩

theorem Setting.hit {ks : List Uuid} {u : User} {hash : String} (h : Setting i id (k :: ks) tx w) (hk : u.id = k)
    (hv : tx.view k (w.rows k) = some (.user u)) (hid : u.id = id) :
    Setting i id ks (tx.write k (w.rows k) (some (.user ((setPassword id hash).set u)))) w := by
  have untouched := h.fresh k (List.mem_cons_self ..)
  obtain rfl : k = id := hk.symm.trans hid
  obtain ⟨hnotin, nodup⟩ := List.nodup_cons.mp h.nodup
  rw [Tx.view_of_unchanged untouched] at hv
  have changes : ∀ {k' c}, (tx.write k (w.rows k) (some (.user ((setPassword k hash).set u)))).changes k' = some c →
      k' = k ∧ c = ⟨some (.user u), some (.user ((setPassword k hash).set u)), false⟩ := by
    intro k' c hc
    rcases changes_write_new untouched hc with ⟨rfl, rfl⟩ | hc
    · exact ⟨rfl, by rw [hv]⟩
    · rw [h.own k' c hc, untouched] at hc
      cases hc
  refine ⟨h.quiet, nodup, fun k' hk' => ?_, fun k' c hc => (changes hc).1, u.passwordChanges + 1, ?_, ?_⟩
  · rw [Tx.changes_write_of_ne (fun hkk : k' = k => hnotin (hkk ▸ hk'))]
    exact h.fresh k' (List.mem_cons_of_mem _ hk')
  · exact Or.inr ⟨_, Tx.view_of_changes Tx.changes_write |>.trans (by rw [untouched]), Nat.le_refl _⟩
  · intro k' c u₀ u' hc hb hn
    obtain ⟨rfl, rfl⟩ := changes hc
    obtain rfl : (setPassword k' hash).set u = u' := by cases hn; rfl
    exact ⟨hid, rfl⟩

theorem holds_setPassword {hash : String} {now : Time} {next : List (Uuid × User) → Handler}
    (good : (revocation p).Good w) (quiet : Quiet i w)
    (then_ : ∀ found tx w v, (revocation p).Good w → Quiet i w → Marked id v tx w → Only id v tx →
      (next found).Holds (revocation p) i q (some tx) w) :
    (update users (fun _ => setPassword id hash) next).Holds (revocation p) i q (some (.empty now)) w := by
  refine Contract.always good quiet (fun _ _ _ h move => h.move move) fun w good quiet snapshot seen _ => ?_
  refine holds_visit (J := fun ks _ tx w => Setting i id ks tx w) (fun _ _ _ _ _ _ h move => h.move move)
    (fun k ks _ tx w h _ => ⟨h.quiet, (List.nodup_cons.mp h.nodup).2,
      fun k' hk' => h.fresh k' (List.mem_cons_of_mem _ hk'),
      h.own, h.changed⟩) (fun k ks _ tx w row new _ h hv valid hf => ?_)
    (fun ks found tx w good h _ => ?_) _ [] (.empty now) w good ?_
  · obtain ⟨u, rfl, hid, rfl⟩ := on_eq_some hf
    exact h.hit valid hv (of_decide_eq_true hid)
  · obtain ⟨v, marked, only⟩ := h.changed
    exact then_ _ tx w v good h.quiet marked only
  · exact ⟨quiet, nodup_matching seen.1, fun _ _ => rfl, fun _ _ h => (by cases h), 0, Or.inl rfl, NoUser.empty.only⟩

/-! ### The calls -/

theorem holds_updateUserPassword {passwordHash : String} (good : (revocation p).Good w) (quiet : Quiet i w) :
    (updateUserPassword id passwordHash).Holds (revocation p) i (.updateUserPassword id passwordHash) none w := by
  refine Contract.always good quiet (fun _ _ _ h move => h.move move) fun w good quiet now => ?_
  refine holds_setPassword good quiet fun found tx w v good quiet marked only => ?_
  cases found with
  | nil => exact fun _ _ => holds_refused
  | cons ku rest => exact holds_revoke trivial good marked (fun tx htx => (quiet tx htx).only) only

theorem holds_validateAndConsume {email tokenHash : String} {next : Bool → Handler}
    (good : (revocation p).Good w) (quiet : Quiet i w)
    (then_ : ∀ valid w, (revocation p).Good w → Quiet i w → (next valid).Holds (revocation p) i q none w) :
    (validateAndConsumePasswordResetToken p email tokenHash next).Holds (revocation p) i q none w := by
  refine Contract.always good quiet (fun _ _ _ h move => h.move move) fun w good quiet now => ?_
  refine Contract.always good quiet (fun _ _ _ h move => h.move move) fun w good quiet snapshot _ _ => ?_
  dsimp only
  cases newest (matching passwordResets (·.redeemable p email tokenHash now) snapshot) with
  | none => exact holds_commit good quiet NoUser.empty (then_ _)
  | some kr =>
    refine holds_visit (J := fun _ _ tx w => Quiet i w ∧ NoUser tx) (fun _ _ _ _ _ _ h move => ⟨h.1.move move, h.2⟩)
      (fun _ _ _ _ _ h _ => h) (fun k ks found tx w row new _ h hv _ hf => ?_)
      (fun _ _ _ _ good h _ => holds_commit good h.1 h.2 (then_ _)) _ [] (.empty now) w good
      ⟨quiet, .empty⟩
    obtain ⟨r, rfl, -, rfl⟩ := on_eq_some hf
    refine ⟨h.1, fun k' c u hc hb => ?_⟩
    by_cases hk : k' = k
    · subst hk
      rw [Tx.changes_write] at hc
      obtain rfl := Option.some.inj hc
      cases hold : tx.changes k' with
      | none =>
        rw [Tx.view_of_unchanged hold] at hv
        rw [hold, hv] at hb
        cases hb
      | some c =>
        rw [hold] at hb
        exact h.2 k' c u hold hb
    · rw [Tx.changes_write_of_ne hk] at hc
      exact h.2 k' c u hc hb

theorem holds_resetPassword {email rawToken newPassword salt : String} (good : (revocation p).Good w)
    (quiet : Quiet i w) :
    (resetPassword p email rawToken newPassword salt).Holds (revocation p) i
      (.resetPassword email rawToken newPassword salt) none w := by
  unfold resetPassword findUserByEmail
  dsimp only
  split
  · exact holds_refused
  refine holds_validateAndConsume good quiet fun valid w good quiet => ?_
  split
  · exact holds_refused
  refine holds_select good quiet fun found w good quiet => ?_
  cases found with
  | none => exact holds_refused
  | some user =>
    refine Contract.always good quiet (fun _ _ _ h move => h.move move) fun w good quiet now => ?_
    refine holds_setPassword good quiet fun _ tx w v good quiet marked only => ?_
    refine Contract.always (J := fun w => Marked user.id v tx w ∧ Quiet i w) good ⟨marked, quiet⟩
      (fun _ _ _ h move => ⟨h.1.move move, h.2.move move⟩)
      fun w good h _ _ valid _ => ⟨trivial, ?_⟩
    -- the change is committed, and the revocation a transaction of its own
    let J (w : World Request Uuid Row Empty) : Prop :=
      Marked user.id v (.empty 0) w ∧ ∀ tx ∈ w.past i, Only user.id v tx
    have stable : ∀ w w', (revocation p).Good w → J w → (revocation p).Moves i none w w' → J w' :=
      fun w w' _ h move => ⟨h.1.move (moves_empty move), move.past ▸ h.2⟩
    have start : J (w.commit ⟨i, .resetPassword email rawToken newPassword salt, tx⟩) :=
      ⟨h.1.commit, World.forall_past_commit (fun tx htx => (h.2 tx htx).only) only⟩
    refine Contract.always ⟨valid, trivial⟩ start stable fun w good h fails replied => ?_
    obtain rfl : fails = false := replied _ _ _ _ rfl
    refine Contract.always good h stable fun w good h now => ?_
    exact holds_revoke trivial good h.1 h.2 NoUser.empty.only

theorem holds (i : Nat) (q : Request) (w : World Request Uuid Row Empty) (good : (revocation p).Good w)
    (new : w.past i = []) : (serve p q).Holds (revocation p) i q none w := by
  have quiet : Quiet i w := by
    rw [Quiet, new]
    rintro _ ⟨⟩
  by_cases hq : ChangesPassword q
  · cases q with
    | resetPassword email rawToken newPassword salt => exact holds_resetPassword good quiet
    | updateUserPassword id passwordHash => exact holds_updateUserPassword good quiet
    | _ => exact hq.elim
  · exact (serves q).holds rfl (fun _ _ _ _ _ _ _ _ => trivial) (fun _ _ h => absurd h hq) good new

/-- In a run in which no revocation fails and every token is stored for the current password, a password change that
    has returned success leaves no token verified under an older one. -/
theorem revoked_of_timely {rows₀ : Uuid → Option Row} {s : State Request Uuid Row Empty Bool Response}
    (valid : ∀ k r, rows₀ k = some r → (spec p).row k r) (h : ReachableBy (serve p) Timely rows₀ s)
    {tx : Option (Tx Uuid Row Empty)} (changes : ChangesPassword q)
    (answered : s.sessions i = some ⟨q, .answered .done, tx⟩) :
    Revoked i s.world := by
  have upheld : Upheld (revocation p) s := by
    refine (h.upheld (C := revocation p) serves holds ?_ ?_ valid trivial).2
    · rintro s i q next tx fails timely here email rawToken newPassword salt rfl
      cases fails with
      | false => rfl
      | true => exact absurd rfl (timely.revokes i email rawToken newPassword salt next tx here)
    · intro s i q next tx _ _ here timely
      refine ⟨fun k c t hc hn => (timely.current ⟨i, q, tx⟩ rfl k c t hc hn).1, ?_⟩
      rintro j session hj hs mine hmine k c t hc hn
      exact (timely.current ⟨i, q, tx⟩ rfl k c t hc hn).2 j mine hj ⟨session, hs, hmine⟩
  exact (upheld.holds i _ answered).now changes rfl

/-! ### Two runs -/

/-- Alice signs in, an administrator changes her password. -/
def signedInThenChanged : List (Move Request Uuid Bool) :=
  .arrive 0 (.login "alice" "first password") :: List.replicate 5 (.next 0) ++ [.insert 0 2, .next 0, .next 0] ++
    .arrive 1 (.updateUserPassword 1 "second password") :: List.replicate 7 (.next 1)

/-- She signs in and refreshes her session; her password is changed while the refresh holds no token. -/
def changedMeanwhile : List (Move Request Uuid Bool) :=
  .arrive 0 (.login "alice" "first password") :: List.replicate 5 (.next 0) ++ [.insert 0 2, .next 0, .next 0] ++
    .arrive 1 (.refresh "token-2") :: List.replicate 5 (.next 1) ++
    .arrive 2 (.updateUserPassword 1 "second password") :: List.replicate 6 (.next 2)

/-- The refresh goes on, and what it returned is presented. -/
def refreshedThenRedeemed : List (Move Request Uuid Bool) :=
  List.replicate 5 (.next 1) ++ [.insert 1 3, .next 1, .next 1] ++
    .arrive 3 (.refresh "token-3") :: List.replicate 10 (.next 3) ++ [.insert 3 4, .next 3, .next 3]

instance (view : Uuid → Option Row) (t : RefreshToken) : Decidable (Current view t) :=
  decidable_of_iff (∀ u ∈ (view t.userId).bind Row.user?, u.passwordChanges ≤ t.verified) <| by
    have same : ∀ u, u ∈ (view t.userId).bind Row.user? ↔ view t.userId = some (.user u) := by
      intro u
      rcases view t.userId with - | ⟨_ | _ | _⟩ <;> simp [Row.user?]
    simp only [Current, same]

/-- For examples: what the last commit stored is current, and nobody resets a password. -/
def timely (s s' : Listed Request Uuid Row Empty Bool Response) : Bool :=
  (s.sessions.all fun x => x.2.request matches .login .. | .updateUserPassword ..) &&
    (s'.log.length = s.log.length || s'.log.head?.all fun e => s'.keys.all fun k =>
      (((e.tx.changes k).bind (·.new)).bind Row.refreshToken?).all fun t =>
        Current s.rows t && (s.others e.session).all fun tx => Current (fun k => tx.view k (s.rows k)) t)

theorem timely_of_check {rows₀ : Uuid → Option Row} (valid : ∀ k r, rows₀ k = some r → (spec p).row k r)
    {s s' : Listed Request Uuid Row Empty Bool Response} (h : Reachable (serve p) rows₀ s.state)
    (step : Step (serve p) s.state s'.state) (ok : timely s s' = true) : Timely s.state s'.state := by
  obtain ⟨requests, commits⟩ := Bool.and_eq_true_iff.mp ok
  constructor
  · intro i email rawToken newPassword salt next tx here
    obtain ⟨l₁, l₂, hl, -⟩ := List.lookup_eq_some_iff.mp here
    have hmem := List.all_eq_true.mp requests _ (hl ▸ List.mem_append_right l₁ (List.mem_cons_self ..))
    cases hmem
  · intro e hlog k c t hc hn
    have hlog : s'.log = e :: s.log := hlog
    have consistent := (h.consistent serves valid).step serves step
    have hk : k ∈ s'.keys := consistent.usedLog e (by rw [show s'.state.log = e :: s.log from hlog]; simp) k c hc
    simp only [hlog, List.length_cons, List.head?_cons, Option.all_some, Bool.or_eq_true, decide_eq_true_eq,
      Nat.succ_ne_self, false_or, List.all_eq_true] at commits
    have known := commits k hk
    simp only [hc, hn, Option.bind_some, Row.refreshToken?, Option.all_some, Bool.and_eq_true, decide_eq_true_eq,
      List.all_eq_true] at known
    exact ⟨known.1, fun j tx hj ho => known.2 tx (Listed.mem_others.mpr ⟨j, hj, ho⟩)⟩

theorem revoked_of_timely_alice : ∃ s, ReachableBy (serve plainCrypto) Timely (fun k => onlyAlice.lookup k) s ∧
    (∃ tx, s.sessions 1 = some ⟨.updateUserPassword 1 "second password", .answered .done, tx⟩) ∧ Revoked 1 s.world := by
  obtain ⟨s, reachable, served⟩ :=
    Listed.reachableBy_of_check (serve plainCrypto) 0 onlyAlice signedInThenChanged Timely
    timely (fun _ _ h step _ => timely_of_check onlyAlice_untouched.valid h step)
    (fun s => s.served 1 = some (.updateUserPassword 1 "second password", .done)) (by decide +kernel)
  obtain ⟨tx, answered⟩ := Listed.sessions_of_served (of_decide_eq_true served)
  exact ⟨s.state, reachable, ⟨tx, answered⟩, revoked_of_timely
    (q := .updateUserPassword 1 "second password") onlyAlice_untouched.valid reachable trivial answered⟩

/-- A refresh under way when the password is changed stores its token afterwards, and that token opens new sessions. -/
theorem stale_token_redeemed : (∀ k r, onlyAlice.lookup k = some r → (spec plainCrypto).row k r) ∧
    ∃ s s', Reachable (serve plainCrypto) (fun k => onlyAlice.lookup k) s ∧ s.sessions 3 = none ∧
      (∃ tx, s.sessions 2 = some ⟨.updateUserPassword 1 "second password", .answered .done, tx⟩) ∧
      Relation.ReflTransGen (Step (serve plainCrypto)) s s' ∧
      (∃ tx, s'.sessions 3 = some ⟨.refresh "token-3", .answered (.tokens "token-4" 1 .operator), tx⟩) ∧
      ¬Revoked 2 s'.world := by
  obtain ⟨s, s', reachable, before, run, after⟩ :=
    Listed.reaches_of_check (serve plainCrypto) 0 onlyAlice changedMeanwhile
    refreshedThenRedeemed
    (fun s => (s.sessions.lookup 3).isNone && s.served 2 = some (.updateUserPassword 1 "second password", .done))
    (fun s => s.served 3 = some (.refresh "token-3", .tokens "token-4" 1 .operator) &&
      ((s.state.world.past 2).any fun tx => (tx.changes 1).any fun c => c.base = some (.user alice) &&
        c.new = some (.user { alice with passwordHash := "second password", passwordChanges := 1 })) &&
      ((s.rows 4).bind Row.refreshToken?).any fun t => t.userId = 1 && t.verified = 0) (by decide +kernel)
  simp only [Bool.and_eq_true, Option.isNone_iff_eq_none, decide_eq_true_eq] at before after
  obtain ⟨new, done⟩ := before
  obtain ⟨⟨redeemed, changed⟩, stored⟩ := after
  refine ⟨onlyAlice_untouched.valid, s.state, s'.state, reachable, new, Listed.sessions_of_served done, run,
    Listed.sessions_of_served redeemed, fun revoked => ?_⟩
  obtain ⟨tx, htx, hc⟩ := List.any_eq_true.mp changed
  obtain ⟨c, hc, hchange⟩ := (Option.any_eq_true _ _).mp hc
  simp only [Bool.and_eq_true, decide_eq_true_eq] at hchange
  obtain ⟨t, ht, hold⟩ := (Option.any_eq_true _ _).mp stored
  simp only [Bool.and_eq_true, decide_eq_true_eq] at hold
  obtain ⟨r, hr, ht⟩ := Option.bind_eq_some_iff.mp ht
  obtain rfl : refreshTokens.put t = r := refreshTokens.put_get r t ht
  have le := revoked tx htx 1 c _ _ hc hchange.1 hchange.2 4 t hr hold.1
  rw [hold.2] at le
  exact Nat.not_succ_le_zero 0 le

end Auth
end DatrixOps
