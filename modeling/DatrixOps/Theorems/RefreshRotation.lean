import DatrixOps.Postgres.Interference
import DatrixOps.Theorems.RefreshRedemption

/-! The rotation of refresh tokens. What is issued for a token is issued by the session that redeemed it, which
    redeems once, issues once, and finds the token's row only as long as nobody else has redeemed it; so the tokens
    that go back to one sign-in are spent one after the other. -/

namespace DatrixOps
namespace Auth
namespace Rotation
open Postgres Prog

/-- The commits of the sessions, newest first. -/
abbrev Log := List (Commit Request Uuid Row Empty)

/-- The tokens that go back to the one issued under key `head`: it, and what a session has issued that redeemed one
    of them. -/
inductive Chain (log : Log) (head : Uuid) : Uuid → Prop
  | head {e t} (he : e ∈ log) (issues : Issues e head t) : Chain log head head
  | next {e e' k k' presented t t'} (chain : Chain log head k) (he : e ∈ log) (redeems : Redeems e presented k t)
      (he' : e' ∈ log) (same : e'.session = e.session) (issues : Issues e' k' t') : Chain log head k'

/-- The token has been redeemed. -/
def Spent (log : Log) (k : Uuid) : Prop := ∃ e ∈ log, ∃ presented t, Redeems e presented k t

/-- The string would be exchanged for a new session. -/
def Redeemable (p : Crypto) (s : State Request Uuid Row Empty Bool Response) (presented : String) : Prop :=
  ∃ k t, s.rows k = some (.refreshToken t) ∧ t.matches_ p presented = true ∧ s.now < t.expiresAt

/-- Digests and random tokens without collisions. -/
structure Drawn (p : Crypto) : Prop where
  ideal : p.Ideal
  distinct : Function.Injective p.secret

/-! ### What a session issues -/

/-- The transaction issues a refresh token under key `k`. -/
def Issuing (tx : Tx Uuid Row Empty) (k : Uuid) : Prop := ∃ t, tx.changes k = some ⟨none, some (.refreshToken t), true⟩

/-- A refresh redeems in its first commit, and a commit that issues a token does nothing else and is the only one of
    its session. -/
def rotation : Spec Request Uuid Row Empty Response where
  row _ _ := True
  commit q past tx := (∀ presented, q = .refresh presented → ∀ k c t, tx.changes k = some c →
      c.base = some (.refreshToken t) → past = []) ∧
    ∀ k, Issuing tx k → (∀ tx' ∈ past, ∀ k', ¬Issuing tx' k') ∧ ∀ k' c, tx.changes k' = some c → k' = k
  answer _ _ _ := True

variable {p : Crypto} {q : Request} {past : List (Tx Uuid Row Empty)} {tx : Tx Uuid Row Empty}

theorem commit_quiet (quiet : ∀ k c, tx.changes k = some c → c.base = none ∧ c.new = none) :
    rotation.commit q past tx := by
  refine ⟨fun _ _ k c t hc hb => ?_, fun k ⟨t, hk⟩ => ?_⟩
  · rw [(quiet k c hc).1] at hb
    cases hb
  · cases (quiet k _ hk).2

theorem safe_select {α : Type} {read : Time → List (Uuid × Row) → α} {next : α → Handler}
    (hn : ∀ a now, (next a).Safe rotation q (.empty now :: past) none) : (select read next).Safe rotation q past none :=
  fun now _ _ _ => ⟨commit_quiet fun _ _ h => (by cases h), hn _ now⟩

theorem safe_issueTokens {userId : Uuid} {role : Role} {verified : Nat} (first : ∀ tx ∈ past, ∀ k, ¬Issuing tx k) :
    (issueTokens p userId role verified).Safe rotation q past none := by
  intro now createdAt
  refine ⟨trivial, fun k r _ _ =>
    ⟨trivial, ⟨fun _ _ k' c t hc hb => ?_, fun k' ⟨t, hk'⟩ => ⟨first, fun k'' c hc => ?_⟩⟩, trivial⟩⟩
  · obtain ⟨-, rfl⟩ := Tx.changes_create_empty hc
    cases hb
  · exact (Tx.changes_create_empty hc).1.trans (Tx.changes_create_empty hk').1.symm

theorem safe_login {identifier password : String} : (login p identifier password).Safe rotation q [] none := by
  unfold login findUserByIdentifier
  refine safe_select fun found now => ?_
  cases found with
  | none => exact trivial
  | some user =>
    dsimp only
    split
    · refine safe_issueTokens fun tx htx k issuing => ?_
      obtain rfl := List.mem_singleton.mp htx
      obtain ⟨t, ht⟩ := issuing
      cases ht
    · exact trivial

theorem safe_refresh {token : String} : (refresh p token).Safe rotation q [] none := by
  intro now
  -- what the deletion changes it removes
  let J (_ : List (Uuid × RefreshToken)) (tx : Tx Uuid Row Empty) : Prop := ∀ k c, tx.changes k = some c → c.new = none
  have removes : ∀ {tx}, J [] tx → ∀ k, ¬Issuing tx k := fun hJ k ⟨t, ht⟩ => (by cases hJ k _ ht)
  refine safe_deleteReturning (J := J) (fun _ _ h => by cases h) ?_ ?_
  · intro found tx k base t hJ _ _ _ _ k' c hc
    by_cases hk : k' = k
    · subst hk
      rw [Tx.changes_write] at hc
      obtain rfl := Option.some.inj hc
      split <;> rfl
    · rw [Tx.changes_write_of_ne hk] at hc
      exact hJ k' c hc
  · intro found tx hJ
    have ok : rotation.commit q [] tx := ⟨fun _ _ _ _ _ _ _ => rfl, fun k issuing => absurd issuing (removes hJ k)⟩
    cases found with
    | nil => exact ⟨ok, trivial⟩
    | cons kt rest =>
      refine ⟨ok, safe_select fun user _ => ?_⟩
      cases user with
      | none => exact trivial
      | some user =>
        refine safe_issueTokens fun tx' htx' k issuing => ?_
        rcases List.mem_cons.mp htx' with rfl | htx'
        · obtain ⟨t, ht⟩ := issuing
          cases ht
        · obtain rfl := List.mem_singleton.mp htx'
          exact removes hJ k issuing

/-- A commit of any other request issues nothing. -/
theorem commit_other (other : ¬IssuesTokens q) (h : (spec p).commit q past tx) : rotation.commit q past tx := by
  refine ⟨?_, fun k ⟨t, ht⟩ => ?_⟩
  · rintro presented rfl
    exact absurd trivial other
  have lawful := h.1 k _ ht
  cases lawful with
  | issue _ asked => exact absurd asked other

theorem rotates (q : Request) : (serve p q).Safe ((spec p).both rotation) q [] none := by
  cases q with
  | login identifier password => exact (serves (.login identifier password)).both safe_login
  | refresh token => exact (serves (.refresh token)).both safe_refresh
  | _ =>
    refine Safe.mono (fun _ _ => ?_) (fun past tx h => ?_) (fun _ _ h => ?_) (serves _)
    · simp [Spec.both, rotation]
    · exact ⟨h, commit_other (fun h => h) h⟩
    · exact ⟨h, trivial⟩

/-! ### One token at a time -/

variable {rows₀ rows : Uuid → Option Row} {log : Log} {e : Commit Request Uuid Row Empty} {head k k' : Uuid}
  {t₀ : RefreshToken}

theorem Issues.issuing {t : RefreshToken} (h : Issues e k t) : Issuing e.tx k := ⟨t, h.2⟩

theorem Redeems.not_issuing {presented : String} {t : RefreshToken} (h : Redeems e presented k t)
    (alone : ∀ k', Issuing e.tx k' → ∀ k'' c, e.tx.changes k'' = some c → k'' = k') : ¬Issuing e.tx k' := by
  rintro ⟨t', ht'⟩
  obtain ⟨-, c, hc, hb⟩ := h
  obtain rfl := alone k' ⟨t', ht'⟩ k c hc
  obtain rfl := Option.some.inj (hc.symm.trans ht')
  cases hb

/-- A token whose row is there has not been redeemed. -/
theorem unspent_of_row (noTokens : ∀ k t, rows₀ k ≠ some (.refreshToken t)) (h : Serial (spec p) rows₀ log rows)
    {t : RefreshToken} (ht : rows k = some (.refreshToken t)) : ¬Spent log k := by
  rintro ⟨e, he, presented, t', -, c, hc, hb⟩
  obtain ⟨past, ok, -⟩ := h.ok he
  have kept := (issued_of_row noTokens h t ht).2.2 e he c hc
  have lawful := ok.1 k c hc
  cases lawful <;> first | exact kept rfl | cases hb

/-- A session that has redeemed a token of the chain and issued none yet. -/
def Pending (log : Log) (head : Uuid) (i : Nat) : Prop :=
  (∃ e ∈ log, e.session = i ∧ ∃ k presented t, Redeems e presented k t ∧ Chain log head k) ∧
    ∀ e ∈ log, e.session = i → ∀ k, ¬Issuing e.tx k

/-- Of the tokens of the chain at most one has not been redeemed, and none while a session is about to issue the
    next. -/
structure Linear (log : Log) (head : Uuid) : Prop where
  one : ∀ k k', Chain log head k → Chain log head k' → ¬Spent log k → ¬Spent log k' → k = k'
  pending : ∀ i j, Pending log head i → Pending log head j → i = j
  rest : ∀ i, Pending log head i → ∀ k, Chain log head k → Spent log k

theorem Chain.cons (h : Chain log head k) : Chain (e :: log) head k := by
  induction h with
  | head he issues => exact .head (List.mem_cons_of_mem _ he) issues
  | next _ he redeems he' same issues ih =>
    exact .next ih (List.mem_cons_of_mem _ he) redeems (List.mem_cons_of_mem _ he') same issues

theorem Spent.cons (h : Spent log k) : Spent (e :: log) k := by
  obtain ⟨e', he', redeems⟩ := h
  exact ⟨e', List.mem_cons_of_mem _ he', redeems⟩

/-- Only issued tokens are in a chain, and none before its head. -/
theorem Chain.issued (h : Chain log head k) : ∃ e ∈ log, ∃ t, Issues e k t := by
  cases h with
  | head he issues => exact ⟨_, he, _, issues⟩
  | next _ _ _ he' _ issues => exact ⟨_, he', _, issues⟩

theorem Chain.head_issued (h : Chain log head k) : ∃ e ∈ log, ∃ t, Issues e head t := by
  induction h with
  | head he issues => exact ⟨_, he, _, issues⟩
  | next _ _ _ _ _ _ ih => exact ih

/-- Without a new issue the chain stays as it is. -/
theorem Chain.of_cons_quiet (none_ : ∀ k, ¬Issuing e.tx k)
    (apart : ∀ presented k t, Redeems e presented k t → ∀ e' ∈ log, e'.session ≠ e.session)
    (h : Chain (e :: log) head k) : Chain log head k := by
  induction h with
  | head he issues =>
    rcases List.mem_cons.mp he with rfl | he
    · exact absurd (Issues.issuing issues) (none_ _)
    · exact .head he issues
  | next _ he redeems he' same issues ih =>
    rcases List.mem_cons.mp he' with rfl | old'
    · exact absurd (Issues.issuing issues) (none_ _)
    rcases List.mem_cons.mp he with rfl | old
    · exact absurd same (apart _ _ _ redeems _ old')
    · exact .next ih old redeems old' same issues

/-- A new token is in the chain as its head or for the one its session has redeemed. -/
theorem Chain.of_cons_issue {k₀ : Uuid} (alone : ∀ k' c, e.tx.changes k' = some c → k' = k₀) (issuing : Issuing e.tx k₀)
    (new : ∀ e' ∈ log, e'.tx.changes k₀ = none) (h : Chain (e :: log) head k) :
    Chain log head k ∨ k = k₀ ∧ (k₀ = head ∨
      ∃ e' ∈ log, e'.session = e.session ∧ ∃ k presented t, Redeems e' presented k t ∧ Chain log head k) := by
  have redeems_none : ∀ {presented k t}, ¬Redeems e presented k t := fun redeems =>
    Redeems.not_issuing redeems (fun k' ⟨t, ht⟩ k'' c hc => (alone k'' c hc).trans (alone k' _ ht).symm) issuing
  induction h with
  | head he issues =>
    rcases List.mem_cons.mp he with rfl | he
    · obtain rfl := alone _ _ issues.2
      exact Or.inr ⟨rfl, Or.inl rfl⟩
    · exact Or.inl (.head he issues)
  | next _ he redeems he' same issues ih =>
    rcases List.mem_cons.mp he with rfl | old
    · exact absurd redeems redeems_none
    have before := ih.resolve_right fun ⟨hk, _⟩ => by
      obtain ⟨-, c, hc, -⟩ := redeems
      rw [hk, new _ old] at hc
      cases hc
    rcases List.mem_cons.mp he' with rfl | old'
    · exact Or.inr ⟨alone _ _ issues.2, Or.inr ⟨_, old, same.symm, _, _, _, redeems, before⟩⟩
    · exact Or.inl (.next before old redeems old' same issues)

theorem Linear.issue {k₀ : Uuid} (h : Linear log head)
    (ht : e.tx.changes k₀ = some ⟨none, some (.refreshToken t₀), true⟩)
    (alone : ∀ k' c, e.tx.changes k' = some c → k' = k₀)
    (first : ∀ e' ∈ log, e'.session = e.session → ∀ k, ¬Issuing e'.tx k) (new : ∀ e' ∈ log, e'.tx.changes k₀ = none) :
    Linear (e :: log) head := by
  have issuing : Issuing e.tx k₀ := ⟨t₀, ht⟩
  have redeems_none : ∀ {k presented t}, ¬Redeems e presented k t := fun redeems =>
    Redeems.not_issuing redeems (fun k' ⟨t, ht⟩ k'' c hc => (alone k'' c hc).trans (alone k' _ ht).symm) issuing
  -- a new token in the chain is for what its session has redeemed, or the chain starts with it
  have cases_ : ∀ {k}, Chain (e :: log) head k → Chain log head k ∨ k = k₀ ∧
      (k₀ = head ∨ Pending log head e.session) := by
    intro k chain
    rcases Chain.of_cons_issue alone issuing new chain with old | ⟨hk, hhead | ⟨e', he', same, redeemed⟩⟩
    · exact Or.inl old
    · exact Or.inr ⟨hk, Or.inl hhead⟩
    · exact Or.inr ⟨hk, Or.inr ⟨⟨e', he', same, redeemed⟩, first⟩⟩
  have headless : ∀ {k}, k₀ = head → ¬Chain log head k := by
    rintro k rfl chain
    obtain ⟨e', he', t, -, hc⟩ := chain.head_issued
    rw [new e' he'] at hc
    cases hc
  have pending : ∀ {i}, Pending (e :: log) head i → Pending log head i ∧ i ≠ e.session := by
    rintro i ⟨⟨e', he', same, k, presented, t, redeems, chain⟩, none_⟩
    have old : e' ∈ log := (List.mem_cons.mp he').resolve_left fun h => redeems_none (h ▸ redeems)
    refine ⟨⟨⟨e', old, same, k, presented, t, redeems, (cases_ chain).resolve_right fun ⟨hk, _⟩ => ?_⟩,
      fun e'' he'' => none_ e'' (List.mem_cons_of_mem _ he'')⟩,
        fun hi => none_ e (List.mem_cons_self ..) hi.symm k₀ issuing⟩
    obtain ⟨-, c, hc, -⟩ := redeems
    rw [hk, new e' old] at hc
    cases hc
  refine ⟨fun k k' chain chain' unspent unspent' => ?_, fun i j hi hj => h.pending i j (pending hi).1 (pending hj).1,
    fun i hi k chain => ?_⟩
  · have fresh : ∀ {k k'}, Chain log head k → ¬Spent (e :: log) k → k' = k₀ ∧
        (k₀ = head ∨ Pending log head e.session) → False := by
      rintro k k' old unspent ⟨-, hhead | hpending⟩
      · exact headless hhead old
      · exact unspent (h.rest _ hpending k old).cons
    rcases cases_ chain with old | made <;> rcases cases_ chain' with old' | made'
    · exact h.one k k' old old' (fun hs => unspent hs.cons) fun hs => unspent' hs.cons
    · exact (fresh old unspent made').elim
    · exact (fresh old' unspent' made).elim
    · exact made.1.trans made'.1.symm
  · obtain ⟨hi, other⟩ := pending hi
    rcases cases_ chain with old | ⟨-, hhead | hpending⟩
    · exact (h.rest i hi k old).cons
    · obtain ⟨⟨e', he', -, k', presented, t, -, chain⟩, -⟩ := hi
      exact absurd chain (headless hhead)
    · exact absurd (h.pending i _ hi hpending) other

/-- A commit of a session's redemption, its first. -/
theorem Linear.redeem {presented : String} {t : RefreshToken} (h : Linear log head) (redeems : Redeems e presented k t)
    (none_ : ∀ k, ¬Issuing e.tx k) (first : ∀ e' ∈ log, e'.session ≠ e.session)
    (unspent : ∀ k presented t, Redeems e presented k t → ¬Spent log k) : Linear (e :: log) head := by
  have back : ∀ {k}, Chain (e :: log) head k → Chain log head k := Chain.of_cons_quiet none_ fun _ _ _ _ => first
  -- if it redeems a token of the chain, no other session is about to issue the next
  have pending : ∀ {i}, Pending (e :: log) head i → Pending log head i ∨
      i = e.session ∧ ∃ k presented t, Redeems e presented k t ∧ Chain log head k := by
    rintro i ⟨⟨e', he', same, k', presented', t', redeems', chain⟩, none_⟩
    rcases List.mem_cons.mp he' with rfl | old
    · exact Or.inr ⟨same.symm, k', presented', t', redeems', back chain⟩
    · exact Or.inl ⟨⟨e', old, same, k', presented', t', redeems', back chain⟩,
        fun e'' he'' => none_ e'' (List.mem_cons_of_mem _ he'')⟩
  have busy : ∀ {i}, (∃ k presented t, Redeems e presented k t ∧ Chain log head k) → ¬Pending log head i := by
    rintro i ⟨k, presented, t, redeems, chain⟩ hi
    exact unspent k presented t redeems (h.rest i hi k chain)
  refine ⟨fun k k' chain chain' hs hs' => h.one k k' (back chain) (back chain') (fun spent => hs spent.cons)
    fun spent => hs' spent.cons,
    fun i j hi hj => ?_, fun i hi k' chain => ?_⟩
  · rcases pending hi with hi | ⟨rfl, redeemed⟩ <;> rcases pending hj with hj | ⟨rfl, redeemed'⟩
    · exact h.pending i j hi hj
    · exact absurd hi (busy redeemed')
    · exact absurd hj (busy redeemed)
    · rfl
  · rcases pending hi with hi | ⟨-, k, presented, t, redeems, chain'⟩
    · exact (h.rest i hi k' (back chain)).cons
    · by_cases hs : Spent log k'
      · exact hs.cons
      · obtain rfl := h.one k' k (back chain) chain' hs (unspent k presented t redeems)
        exact ⟨e, List.mem_cons_self .., presented, t, redeems⟩

theorem Linear.quiet (h : Linear log head) (none_ : ∀ k, ¬Issuing e.tx k)
    (redeems_none : ∀ k presented t, ¬Redeems e presented k t) : Linear (e :: log) head := by
  have back : ∀ {k}, Chain (e :: log) head k → Chain log head k :=
    Chain.of_cons_quiet none_ fun _ _ _ redeems => absurd redeems (redeems_none _ _ _)
  have pending : ∀ {i}, Pending (e :: log) head i → Pending log head i := by
    rintro i ⟨⟨e', he', same, k, presented, t, redeems, chain⟩, none_⟩
    have old : e' ∈ log := (List.mem_cons.mp he').resolve_left fun he => redeems_none k presented t (he ▸ redeems)
    exact ⟨⟨e', old, same, k, presented, t, redeems, back chain⟩,
      fun e'' he'' => none_ e'' (List.mem_cons_of_mem _ he'')⟩
  exact ⟨fun k k' chain chain' hs hs' => h.one k k' (back chain) (back chain') (fun spent => hs spent.cons) fun spent =>
    hs' spent.cons,
    fun i j hi hj => h.pending i j (pending hi) (pending hj),
    fun i hi k chain => (h.rest i (pending hi) k (back chain)).cons⟩

/-- A commit that issues or redeems leaves every chain linear. -/
theorem linear (noTokens : ∀ k t, rows₀ k ≠ some (.refreshToken t))
    (h : Serial ((spec p).both rotation) rows₀ log rows) :
    Linear log head := by
  induction h with
  | nil =>
    have empty : ∀ {k}, ¬Chain [] head k := fun chain => by
      obtain ⟨e, he, -⟩ := chain.issued
      cases he
    exact ⟨fun k _ chain => absurd chain empty, fun i _ ⟨⟨e, he, _⟩, _⟩ => (by cases he),
      fun i _ k chain => absurd chain empty⟩
  | @cons log rows e earlier ok base fresh ih =>
    have serial : Serial (spec p) rows₀ log rows := by
      refine Serial.mono ?_ earlier
      exact fun _ _ _ h => h.1
    have none_past : ∀ {k}, Issuing e.tx k → ∀ e' ∈ log, e'.session = e.session → ∀ k, ¬Issuing e'.tx k := by
      intro k issuing e' he' same k'
      exact (ok.2.2 k issuing).1 e'.tx (List.mem_map.mpr ⟨e', List.mem_filter.mpr ⟨he', by simp [same]⟩, rfl⟩) k'
    by_cases issues : ∃ k, Issuing e.tx k
    · obtain ⟨k₀, t₀, ht₀⟩ := issues
      exact ih.issue ht₀ (ok.2.2 k₀ ⟨t₀, ht₀⟩).2 (none_past ⟨t₀, ht₀⟩) (fresh k₀ _ ht₀ rfl).2
    have none_ : ∀ k, ¬Issuing e.tx k := fun k issuing => issues ⟨k, issuing⟩
    by_cases redeemed : ∃ k presented t, Redeems e presented k t
    · obtain ⟨k, presented, t, redeems⟩ := redeemed
      refine ih.redeem redeems none_ (fun e' he' same => ?_) fun k presented t ⟨asked, c, hc, hb⟩ =>
        unspent_of_row noTokens serial ((base k c hc).symm.trans hb)
      obtain ⟨asked, c, hc, hb⟩ := redeems
      have past := ok.2.1 presented asked k c t hc hb
      rw [List.map_eq_nil_iff, List.filter_eq_nil_iff] at past
      exact past e' he' (by simp [same])
    · exact ih.quiet none_ fun k presented t redeems => redeemed ⟨k, presented, t, redeems⟩

/-! ### Signing out -/

section
variable {i j : Nat} {w w' : World Request Uuid Row Empty}

/-- Session `j` has signed out with the token of key `k`. -/
def SignsOut (p : Crypto) (j : Nat) (k : Uuid) (e : Commit Request Uuid Row Empty) : Prop :=
  e.session = j ∧ e.request = .logout (p.secret k)

/-- The token has been issued, its row is the one it is looked up by, and once session `j` has signed out with it the
    row is gone for good. -/
structure Closing (p : Crypto) (j : Nat) (k : Uuid) (w : World Request Uuid Row Empty) : Prop where
  seen : ∃ e ∈ w.log, e.tx.changes k ≠ none
  kept : ∀ r, w.rows k = some r → ∃ t, r = .refreshToken t ∧ t.matches_ p (p.secret k) = true
  gone : ∀ later e earlier, w.log = later ++ e :: earlier → SignsOut p j k e →
    w.rows k = none ∧ ∀ e' ∈ later, e'.tx.changes k = none

/-- The contract of the calls: keys are never given out twice. -/
def closing (p : Crypto) (j : Nat) (k : Uuid) : Contract Request Uuid Row Empty Bool Response where
  spec := spec p
  inv := Closing p j k
  admits w e := ∀ k' c, e.tx.changes k' = some c → c.fresh = true → ∀ e' ∈ w.log, e'.tx.changes k' = none
  rely _ _ _ := True
  reply _ _ := True
  answer _ _ _ _ := True

theorem Lawful.born {now : Time} {c : Change Row} (h : Lawful p q now k c) (hb : c.base = none) : c.fresh = true := by
  cases h <;> first | rfl | cases hb

theorem Lawful.token_base {now : Time} {c : Change Row} {t : RefreshToken} (h : Lawful p q now k c)
    (hb : c.base = some (.refreshToken t)) : c.new = none := by
  cases h <;> first | rfl | cases hb

/-- Nobody makes a row under the key again. -/
theorem Closing.changed (h : Closing p j k w) (base : ∀ k c, e.tx.changes k = some c → c.base = w.rows k)
    (ok : (spec p).commit e.request past e.tx) (admitted : (closing p j k).admits w e) {c : Change Row}
    (hc : e.tx.changes k = some c) : w.rows k ≠ none ∧ c.new = none := by
  obtain ⟨e', he', hseen⟩ := h.seen
  have there : w.rows k ≠ none := fun hr =>
    hseen (admitted k c hc (Lawful.born (ok.1 k c hc) ((base k c hc).trans hr)) e' he')
  obtain ⟨r, hr⟩ := Option.ne_none_iff_exists'.mp there
  obtain ⟨t, rfl, -⟩ := h.kept r hr
  exact ⟨there, Lawful.token_base (ok.1 k c hc) ((base k c hc).trans hr)⟩

theorem Closing.commit (h : Closing p j k w) (base : ∀ k c, e.tx.changes k = some c → c.base = w.rows k)
    (ok : (spec p).commit e.request past e.tx) (admitted : (closing p j k).admits w e)
    (swept : SignsOut p j k e → (w.commit e).rows k = none) : Closing p j k (w.commit e) := by
  refine ⟨?_, fun r hr => ?_, fun later e' earlier hlog signs => ?_⟩
  · obtain ⟨e', he', hseen⟩ := h.seen
    exact ⟨e', List.mem_cons_of_mem _ he', hseen⟩
  · cases hc : e.tx.changes k with
    | none => exact h.kept r (by rwa [World.rows_commit_of_unchanged hc] at hr)
    | some c =>
      rw [World.rows_commit_of_changes hc, (h.changed base ok admitted hc).2] at hr
      cases hr
  · cases later with
    | nil =>
      obtain ⟨rfl, -⟩ := List.cons.inj hlog
      exact ⟨swept signs, fun _ h => by cases h⟩
    | cons e'' later =>
      obtain ⟨rfl, rest⟩ := List.cons.inj (show e :: w.log = e'' :: (later ++ e' :: earlier) from hlog)
      obtain ⟨rows, unchanged⟩ := h.gone later e' earlier rest signs
      have same : e.tx.changes k = none :=
        Option.eq_none_iff_forall_ne_some.mpr fun c hc => (h.changed base ok admitted hc).1 rows
      refine ⟨by rwa [World.rows_commit_of_unchanged same], fun e₁ he₁ => ?_⟩
      rcases List.mem_cons.mp he₁ with rfl | he₁
      · exact same
      · exact unchanged e₁ he₁

/-- The row of the token. -/
def Stored (p : Crypto) (k : Uuid) (r : Row) : Prop :=
  ∃ t, r = .refreshToken t ∧ t.id = k ∧ t.matches_ p (p.secret k) = true

theorem stored_move (good : (closing p j k).Good w) (move : (closing p j k).Moves i (some tx) w w')
    {k' : Uuid} {r : Row}
    (hr : w'.rows k' = some r) (stored : Stored p k r) : ∃ r₀, w.rows k' = some r₀ ∧ Stored p k r₀ := by
  cases move with
  | commit e other apart base ok admitted known good' =>
    obtain ⟨t, rfl, hid, matched⟩ := stored
    obtain rfl : k' = k := (good'.1 k' _ hr).symm.trans hid
    cases hc : e.tx.changes k' with
    | none => exact ⟨_, by rwa [World.rows_commit_of_unchanged hc] at hr, t, rfl, hid, matched⟩
    | some c =>
      rw [World.rows_commit_of_changes hc, (good.2.changed base ok admitted hc).2] at hr
      cases hr

/-- With the commit of a sweep the row is gone. -/
theorem gone_of_swept (good : (closing p j k).Good w) (h : Remaining (Stored p k) [] e.tx w)
    (base : ∀ k c, e.tx.changes k = some c → c.base = w.rows k) (ok : (spec p).commit e.request past e.tx)
    (admitted : (closing p j k).admits w e) : (w.commit e).rows k = none := by
  cases hc : e.tx.changes k with
  | some c => rw [World.rows_commit_of_changes hc, (good.2.changed base ok admitted hc).2]
  | none =>
    rw [World.rows_commit_of_unchanged hc]
    refine Option.eq_none_iff_forall_ne_some.mpr fun r hr => ?_
    obtain ⟨t, rfl, matched⟩ := good.2.kept r hr
    rcases h k _ hr ⟨t, rfl, good.1 k _ hr, matched⟩ with hmem | ⟨c, hc', -⟩
    · cases hmem
    · rw [hc] at hc'
      cases hc'

theorem holds_logout (good : (closing p j k).Good w) :
    (logout p (p.secret k)).Holds (closing p j k) j (.logout (p.secret k)) none w := by
  let T (_ : World Request Uuid Row Empty) : Prop := True
  have stable : ∀ {tx}, ∀ w w', (closing p j k).Good w → T w → (closing p j k).Moves j tx w w' → T w' :=
    fun _ _ _ _ _ => trivial
  refine Contract.always (J := T) good trivial stable fun w good _ fails _ => ?_
  dsimp only
  split
  · exact fun _ _ _ _ => trivial
  refine Contract.always (J := T) good trivial stable fun w good _ now => ?_
  refine Contract.always (J := T) good trivial stable fun w good _ snapshot seen _ => ?_
  -- what is left of the row is among the keys still to visit
  let J (ks : List Uuid) (_ : List (Uuid × Row)) (tx : Tx Uuid Row Empty) (w : World Request Uuid Row Empty) : Prop :=
    Remaining (Stored p k) ks tx w
  refine holds_visit (J := J) (fun _ _ _ _ _ good h move => h.move fun _ _ hr stored => stored_move good move hr stored)
    (fun k' ks _ tx w h no => h.pass (no.resolve_left (by simp)) fun r stored => ?_)
    (fun k' ks _ tx w row new _ h _ _ hf => h.hit fun r hr => ?_) (fun ks _ tx w good h hks => ?_) _ []
    (.empty now) w good
    (.of_snapshot seen fun r stored => ?_)
  · obtain ⟨t, rfl, -, matched⟩ := stored
    simp [on, refreshTokens, Row.refreshToken?, matched]
  · obtain ⟨t, -, -, rfl⟩ := on_eq_some hf
    cases hr
  · obtain rfl : ks = [] := hks.resolve_right (by simp)
    refine Contract.always good h (fun _ _ good h move => h.move fun _ _ hr stored => stored_move good move hr stored)
      fun w good h base ok valid admitted =>
        ⟨good.2.commit base ok admitted fun _ => gone_of_swept good h base ok admitted, fun _ _ _ _ => trivial⟩
  · obtain ⟨t, rfl, -, matched⟩ := stored
    exact ⟨t, rfl, matched⟩

theorem holds_other (other : ¬(i = j ∧ q = .logout (p.secret k))) {prog : Handler} {tx : Option (Tx Uuid Row Empty)}
    (good : (closing p j k).Good w) (safe : prog.Safe (spec p) q (w.past i) tx) :
      prog.Holds (closing p j k) i q tx w := by
  refine Safe.holds rfl (fun w tx good base ok _ _ admitted => ?_) (fun _ _ => trivial) good rfl safe
  exact good.2.commit (e := ⟨i, q, tx⟩) base ok admitted fun ⟨hi, hq⟩ => absurd ⟨hi, hq⟩ other

theorem holds (i : Nat) (q : Request) (w : World Request Uuid Row Empty) (good : (closing p j k).Good w)
    (new : w.past i = []) : (serve p q).Holds (closing p j k) i q none w := by
  by_cases signs : i = j ∧ q = .logout (p.secret k)
  · obtain ⟨rfl, rfl⟩ := signs
    exact holds_logout good
  · exact holds_other signs good (new ▸ serves q)

end

/-! ### Whole runs -/

section
variable {s s' : State Request Uuid Row Empty Bool Response} {i j : Nat} {presented : String} {t t' : RefreshToken}

/-- A string redeems one token only. -/
theorem Drawn.key (drawn : Drawn p) (stored : t.token = p.sha256Hex (p.secret k))
    (matched : t.matches_ p presented = true)
    (stored' : t'.token = p.sha256Hex (p.secret k')) (matched' : t'.matches_ p presented = true) : k = k' := by
  simp only [RefreshToken.matches_, Bool.or_eq_true, decide_eq_true_eq, stored, stored'] at matched matched'
  rcases matched with digest | plain <;> rcases matched' with digest' | plain'
  · exact drawn.distinct (drawn.ideal.injective (digest.trans digest'.symm))
  · exact absurd ((drawn.ideal.injective digest).trans plain'.symm) (drawn.ideal.unguessable k k')
  · exact absurd ((drawn.ideal.injective digest').trans plain.symm) (drawn.ideal.unguessable k' k)
  · exact drawn.distinct (drawn.ideal.injective (plain.trans plain'.symm))

theorem redeemed_drawn (noTokens : ∀ k t, rows₀ k ≠ some (.refreshToken t)) (h : Serial (spec p) rows₀ log rows)
    (he : e ∈ log) (redeems : Redeems e presented k t) :
    t.token = p.sha256Hex (p.secret k) ∧ t.matches_ p presented = true := by
  obtain ⟨later, earlier, rfl⟩ := List.mem_iff_append.mp he
  obtain ⟨before, serial, ok, base⟩ := h.before
  obtain ⟨-, c, hc, hb⟩ := id redeems
  exact ⟨(issued_of_row noTokens serial t ((base k c hc).symm.trans hb)).2.1, (redeems_lawful ok.1 redeems).1⟩

theorem redeemed_once (drawn : Drawn p) (noTokens : ∀ k t, rows₀ k ≠ some (.refreshToken t))
    (h : Serial (spec p) rows₀ log rows) :
    log.Pairwise fun e e' => ¬((∃ k t, Redeems e presented k t) ∧ ∃ k t, Redeems e' presented k t) := by
  induction h with
  | nil => exact .nil
  | @cons log rows e earlier ok base fresh ih =>
    refine List.pairwise_cons.mpr ⟨?_, ih⟩
    rintro e' he' ⟨⟨k, t, redeems⟩, k', t', redeems'⟩
    obtain ⟨matched, -⟩ := redeems_lawful ok.1 redeems
    obtain ⟨-, c, hc, hb⟩ := redeems
    have row : rows k = some (.refreshToken t) := (base k c hc).symm.trans hb
    obtain ⟨stored', matched'⟩ := redeemed_drawn noTokens earlier he' redeems'
    obtain rfl := drawn.key (issued_of_row noTokens earlier t row).2.1 matched stored' matched'
    exact unspent_of_row noTokens earlier row ⟨e', he', presented, t', redeems'⟩

/-- Where a token was issued, what is stored is that token. -/
theorem row_of_issued (h : Serial (spec p) rows₀ log rows) (issued : ∃ e ∈ log, ∃ t, Issues e k t) {r : Row}
    (hr : rows k = some r) : ∃ t, r = .refreshToken t := by
  induction h generalizing r with
  | nil =>
    obtain ⟨e, he, -⟩ := issued
    cases he
  | @cons log rows e earlier ok base fresh ih =>
    obtain ⟨e', he', t, issues⟩ := issued
    cases hc : e.tx.changes k with
    | none =>
      rw [show e.tx.apply rows k = rows k from Tx.view_of_unchanged hc] at hr
      rcases List.mem_cons.mp he' with rfl | old
      · rw [issues.2] at hc
        cases hc
      · exact ih ⟨e', old, t, issues⟩ hr
    | some c =>
      rw [show e.tx.apply rows k = c.new from Tx.view_of_changes hc] at hr
      rcases List.mem_cons.mp he' with rfl | old
      · obtain rfl := Option.some.inj (hc.symm.trans issues.2)
        exact ⟨t, (Option.some.inj hr).symm⟩
      · cases hb : c.base with
        | none =>
          have none_ := (fresh k c hc (Lawful.born (ok.1 k c hc) hb)).2 e' old
          rw [issues.2] at none_
          cases none_
        | some r₀ =>
          obtain ⟨t₀, rfl⟩ := ih ⟨e', old, t, issues⟩ ((base k c hc).symm.trans hb)
          rw [Lawful.token_base (ok.1 k c hc) hb] at hr
          cases hr

/-- What makes a token that was drawn redeemable is its own row. -/
theorem row_of_redeemable (drawn : Drawn p) (noTokens : ∀ k t, rows₀ k ≠ some (.refreshToken t))
    (h : Serial (spec p) rows₀ s.log s.rows) (redeemable : Redeemable p s (p.secret k)) :
    ∃ t, s.rows k = some (.refreshToken t) := by
  obtain ⟨k', t, row, matched, -⟩ := redeemable
  have stored := (issued_of_row noTokens h t row).2.1
  simp only [RefreshToken.matches_, Bool.or_eq_true, decide_eq_true_eq, stored] at matched
  rcases matched with digest | plain
  · obtain rfl := drawn.distinct (drawn.ideal.injective digest)
    exact ⟨t, row⟩
  · exact absurd plain.symm (drawn.ideal.unguessable k k')

theorem Chain.mono {log' : Log} (suffix : log <:+ log') (h : Chain log head k) : Chain log' head k := by
  obtain ⟨more, rfl⟩ := suffix
  induction more with
  | nil => exact h
  | cons e more ih => exact ih.cons

/-- A session that does not exist yet will sign out for good. -/
theorem closing_upheld (untouched : Untouched p rows₀) (h : Reachable (serve p) rows₀ s) (chain : Chain s.log head k)
    (new : s.sessions j = none) : Upheld (closing p j k) s := by
  have consistent : Consistent (spec p) rows₀ s := h.consistent serves untouched.valid
  have inv : Closing p j k s.world := by
    refine ⟨?_, fun r hr => ?_, fun later e earlier hlog signs => ?_⟩
    · obtain ⟨e, he, t, issues⟩ := chain.issued
      exact ⟨e, he, fun none_ => by rw [issues.2] at none_; cases none_⟩
    · obtain ⟨t, rfl⟩ := row_of_issued consistent.history chain.issued hr
      exact ⟨t, rfl, by simp [RefreshToken.matches_, (issued_of_row untouched.noTokens consistent.history t hr).2.1]⟩
    · have none_ := consistent.unborn j new
      rw [State.past, List.map_eq_nil_iff, List.filter_eq_nil_iff] at none_
      exact absurd (by simp [signs.1]) (none_ e ((show s.log = _ from hlog) ▸ by simp))
  refine ⟨inv, fun i session hi => ?_⟩
  have other : i ≠ j := by
    rintro rfl
    rw [new] at hi
    cases hi
  obtain ⟨q, control, tx⟩ := session
  cases control with
  | running prog => exact holds_other (fun h => other h.1) ⟨consistent.valid, inv⟩ (consistent.safe i _ hi)
  | answered a => exact fun _ _ => trivial
  | crashed => trivial

theorem gone_of_signed_out (untouched : Untouched p rows₀) (h : Reachable (serve p) rows₀ s)
    (chain : Chain s.log head k)
    (new : s.sessions j = none) (run : Relation.ReflTransGen (Step (serve p)) s s') {later earlier : Log}
    (hlog : s'.log = later ++ e :: earlier) (signs : SignsOut p j k e) :
    s'.rows k = none ∧ ∀ e' ∈ later, e'.tx.changes k = none := by
  have upheld : Upheld (closing p j k) s' := by
    have free : Relation.ReflTransGen (fun s s' => Step (serve p) s s' ∧ True) s s' :=
      run.lift id fun _ _ step => ⟨step, trivial⟩
    refine (Upheld.run (C := closing p j k) serves holds (fun _ _ _ _ _ _ _ _ => trivial) ?_
      (h.consistent serves untouched.valid) (closing_upheld untouched h chain new) free).2
    intro s i q next tx consistent _ here _
    exact ⟨fun k' c hc hf => (consistent.fresh i tx k' c here.open_ hc hf).2, fun _ _ _ _ => trivial⟩
  exact upheld.inv.gone later e earlier hlog signs

/-- No string is redeemed twice, of the tokens that go back to one sign-in at most one can be redeemed, and once a
    call has signed out with it before it was redeemed none can. -/
theorem rotation_linear (drawn : Drawn p) (untouched : Untouched p rows₀) (h : Reachable (serve p) rows₀ s) :
    (∀ presented, s.log.Pairwise fun e e' => ¬((∃ k t, Redeems e presented k t) ∧ ∃ k t, Redeems e' presented k t)) ∧
    (∀ head k k', Chain s.log head k → Chain s.log head k' → Redeemable p s (p.secret k) →
      Redeemable p s (p.secret k') → k = k') ∧
    ∀ head k j s', Chain s.log head k → s.sessions j = none → Relation.ReflTransGen (Step (serve p)) s s' →
      ∀ later e earlier, s'.log = later ++ e :: earlier → SignsOut p j k e → ¬Spent earlier k →
        ∀ k', Chain s'.log head k' → ¬Redeemable p s' (p.secret k') := by
  have serial : ∀ {s}, Reachable (serve p) rows₀ s → Serial (spec p) rows₀ s.log s.rows := fun h =>
    (h.consistent serves untouched.valid).history
  have chains : ∀ {s head}, Reachable (serve p) rows₀ s → Linear s.log head := fun h =>
    linear untouched.noTokens (h.consistent rotates fun k r hr => ⟨untouched.valid k r hr, trivial⟩).history
  have unspent : ∀ {s k}, Reachable (serve p) rows₀ s → Redeemable p s (p.secret k) → ¬Spent s.log k :=
      fun h redeemable => by
    obtain ⟨t, row⟩ := row_of_redeemable drawn untouched.noTokens (serial h) redeemable
    exact unspent_of_row untouched.noTokens (serial h) row
  refine ⟨fun presented => redeemed_once drawn untouched.noTokens (serial h), fun head k k' chain chain' live live' =>
    (chains h).one k k' chain chain' (unspent h live) (unspent h live'), ?_⟩
  intro head k j s' chain new run later e earlier hlog signs before k' chain' live
  have h' : Reachable (serve p) rows₀ s' := by
    obtain ⟨now, used, hu, start⟩ := h
    exact ⟨now, used, hu, start.trans run⟩
  obtain ⟨gone, unchanged⟩ := gone_of_signed_out untouched h chain new run hlog signs
  have current : ¬Spent s'.log k := by
    rintro ⟨e', he', presented, t, redeems⟩
    rw [hlog] at he'
    rcases List.mem_append.mp he' with late | here
    · obtain ⟨-, c, hc, -⟩ := redeems
      rw [unchanged e' late] at hc
      cases hc
    · rcases List.mem_cons.mp here with rfl | early
      · cases signs.2.symm.trans redeems.1
      · exact before ⟨e', early, presented, t, redeems⟩
  obtain rfl := (chains h').one k' k chain' (chain.mono (log_suffix run)) (unspent h' live) current
  obtain ⟨t, row⟩ := row_of_redeemable drawn untouched.noTokens (serial h') live
  rw [gone] at row
  cases row

end

/-! ### Alice signs in, refreshes and signs out -/

theorem plainCrypto_drawn : Drawn plainCrypto where
  ideal := plainCrypto_ideal
  distinct k k' h := by
    have digits : Nat.toDigits 10 k = Nat.toDigits 10 k' := by
      have same : ("token-" ++ toString k).toList = ("token-" ++ toString k').toList := congrArg String.toList h
      rw [String.toList_append, String.toList_append] at same
      have same : (toString k).toList = (toString k').toList := List.append_cancel_left same
      rwa [show toString k = k.repr from rfl, show toString k' = k'.repr from rfl, Nat.toList_repr,
        Nat.toList_repr] at same
    calc k = Nat.ofDigitChars 10 (Nat.toDigits 10 k) 0 := Nat.ofDigitChars_ten_toDigits.symm
      _ = k' := by rw [digits, Nat.ofDigitChars_ten_toDigits]

/-- For examples: session `i` issues a token under key `k`. -/
def issuedBy (log : Log) (i : Nat) (k : Uuid) : Bool :=
  log.any fun e => e.session == i && (e.request matches .login .. | .refresh ..) && (e.tx.changes k).any fun c =>
    c.base.isNone && c.fresh && (c.new.bind Row.refreshToken?).isSome

/-- For examples: session `i` redeems the token under key `k`. -/
def redeemedBy (log : Log) (i : Nat) (k : Uuid) (presented : String) : Bool :=
  log.any fun e => e.session == i && e.request = .refresh presented && (e.tx.changes k).any fun c =>
    (c.base.bind Row.refreshToken?).isSome

theorem refreshToken_of_isSome {r : Option Row} (h : (r.bind Row.refreshToken?).isSome = true) :
    ∃ t, r = some (.refreshToken t) := by
  rcases r with - | ⟨_ | t | _⟩
  · cases h
  · cases h
  · exact ⟨t, rfl⟩
  · cases h

theorem issues_of_issuedBy {i : Nat} (h : issuedBy log i k = true) : ∃ e ∈ log, e.session = i ∧ ∃ t, Issues e k t := by
  obtain ⟨⟨session, request, tx⟩, he, h⟩ := List.any_eq_true.mp h
  simp only [Bool.and_eq_true, beq_iff_eq] at h
  obtain ⟨⟨same, asked⟩, h⟩ := h
  obtain ⟨⟨base, new, isNew⟩, hc, h⟩ := (Option.any_eq_true ..).mp h
  simp only [Bool.and_eq_true, Option.isNone_iff_eq_none] at h
  obtain ⟨⟨rfl, rfl⟩, h⟩ := h
  obtain ⟨t, rfl⟩ := refreshToken_of_isSome h
  refine ⟨_, he, same, t, ?_, hc⟩
  cases request <;> first | exact trivial | cases asked

theorem redeems_of_redeemedBy {i : Nat} {presented : String} (h : redeemedBy log i k presented = true) :
    ∃ e ∈ log, e.session = i ∧ ∃ t, Redeems e presented k t := by
  obtain ⟨e, he, h⟩ := List.any_eq_true.mp h
  simp only [Bool.and_eq_true, beq_iff_eq, decide_eq_true_eq] at h
  obtain ⟨c, hc, h⟩ := (Option.any_eq_true ..).mp h.2
  obtain ⟨t, ht⟩ := refreshToken_of_isSome h
  rename_i same
  exact ⟨e, he, same.1.1, t, same.1.2, c, hc, ht⟩

/-- The new token is given to a logout. -/
def signingOut : List (Move Request Uuid Bool) :=
  [.arrive 2 (.logout "token-3"), .reply 2 false] ++ List.replicate 4 (.next 2)

theorem rotation_linear_alice : ∃ s s', Reachable (serve plainCrypto) (fun k => onlyAlice.lookup k) s ∧
    Chain s.log 2 3 ∧
    Relation.ReflTransGen (Step (serve plainCrypto)) s s' ∧
    (∀ presented, s.log.Pairwise fun e e' => ¬((∃ k t, Redeems e presented k t) ∧ ∃ k t, Redeems e' presented k t)) ∧
    (∃ e earlier, s'.log = e :: earlier ∧ SignsOut plainCrypto 2 3 e) ∧
    ∀ k, Chain s'.log 2 k → ¬Redeemable plainCrypto s' (plainCrypto.secret k) := by
  obtain ⟨s, s', reachable, before, run, after⟩ := Listed.reaches_of_check (serve plainCrypto) 0 onlyAlice
    (refreshSchedule "token-2") signingOut
    (fun s => (s.sessions.lookup 2).isNone && issuedBy s.log 0 2 && redeemedBy s.log 1 2 "token-2" &&
      issuedBy s.log 1 3)
    (fun s => s.log.head?.any (fun e => e.session == 2 && e.request = .logout "token-3") &&
      s.log.tail.all fun e => (e.tx.changes 3).all (·.base.isNone)) (by decide +kernel)
  simp only [Bool.and_eq_true, Option.isNone_iff_eq_none] at before after
  obtain ⟨⟨⟨new, login⟩, redeem⟩, issue⟩ := before
  obtain ⟨signs, unredeemed⟩ := after
  obtain ⟨e₁, he₁, -, t₁, issues₁⟩ := issues_of_issuedBy login
  obtain ⟨e₂, he₂, session₂, t₂, redeems₂⟩ := redeems_of_redeemedBy redeem
  obtain ⟨e₃, he₃, session₃, t₃, issues₃⟩ := issues_of_issuedBy issue
  have chain : Chain s.state.log 2 3 :=
    .next (.head he₁ issues₁) he₂ redeems₂ he₃ (session₃.trans session₂.symm) issues₃
  have linear := rotation_linear plainCrypto_drawn onlyAlice_untouched reachable
  cases hlog : s'.log with
  | nil =>
    rw [hlog] at signs
    cases signs
  | cons e earlier =>
    rw [hlog] at signs unredeemed
    simp only [List.head?_cons, Option.any_some, Bool.and_eq_true, beq_iff_eq, decide_eq_true_eq,
      List.tail_cons] at signs unredeemed
    have signsOut : SignsOut plainCrypto 2 3 e := signs
    refine ⟨s.state, s'.state, reachable, chain, run, linear.1, ⟨e, earlier, hlog, signsOut⟩, ?_⟩
    refine linear.2.2 2 3 2 s'.state chain new run [] e earlier hlog signsOut ?_
    rintro ⟨e', he', presented, t, -, c, hc, hb⟩
    have none_ := List.all_eq_true.mp unredeemed e' he'
    rw [hc, Option.all_some, hb] at none_
    cases none_

end Rotation
end Auth
end DatrixOps
