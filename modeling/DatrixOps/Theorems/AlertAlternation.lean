import DatrixOps.Alert.Worker
import DatrixOps.Postgres.Schedule

/-! The announcements of a rule on a server, under any interleaving of workers and owners. The row of the two
    is locked by the statement that finds it firing or not, until the announcement commits: so a commit that
    announces an incident finds the row idle and leaves it firing, one that announces the end finds it firing
    and leaves it idle, and every other commit leaves that as it is. -/

namespace DatrixOps
namespace AlertAlternation
open Postgres Prog

/-! ### What a commit may do to a row and announce -/

/-- A transaction of the alerts. -/
abbrev AlertTx := Tx AlertKey AlertRow DashboardNotification

/-- The version of a row is there and fires. -/
def fires (version : Option AlertRow) : Bool := (version.bind AlertRow.state?).any (·.state.firing)

/-- The kinds of the notifications about a rule and a server. -/
def kindsFor (r s : Uuid) (events : List DashboardNotification) : List NotificationKind :=
  (events.filter fun n => n.alertRuleId = r && n.serverId = s).map (·.kind)

/-- What is announced when a row goes from firing or not to firing or not. -/
inductive Transition : Bool → Bool → List NotificationKind → Prop
  | none {b} : Transition b b []
  | firing : Transition false true [.alertFiring]
  | resolved : Transition true false [.alertResolved]

/-- The transaction removes the rule or the server. -/
def Removed (tx : AlertTx) (r s : Uuid) : Prop :=
  (∃ c, tx.changes (.rule r) = some c ∧ c.new = none) ∨ ∃ c, tx.changes (.server s) = some c ∧ c.new = none

/-- Every change of a row announces its transition, unless its rule or server goes, and nothing else is
    announced. -/
structure Announces (tx : AlertTx) : Prop where
  unchanged : ∀ r s, tx.changes (.state r s) = none → kindsFor r s tx.events = []
  changed : ∀ r s c, tx.changes (.state r s) = some c →
    Transition (fires c.base) (fires c.new) (kindsFor r s tx.events) ∨ Removed tx r s
  /-- rules and servers are inserted under new keys -/
  born : ∀ k c, (∀ r s, k ≠ .state r s) → tx.changes k = some c → c.base = none → c.fresh = true

/-- Rows stand under their keys, and commits announce what they do. -/
def spec : Spec AlertRequest AlertKey AlertRow DashboardNotification AlertResponse where
  row k r := r.key = k
  commit _ _ tx := Announces tx
  answer _ _ _ := True

/-- A transaction that so far has announced nothing and left rows firing or not as they were, but for those of a
    rule that it is about to remove. -/
structure Quiet (doomed : Option Uuid) (tx : AlertTx) : Prop where
  silent : tx.events = []
  kept : ∀ r s c, tx.changes (.state r s) = some c → fires c.new = fires c.base ∨ Removed tx r s ∨ doomed = some r
  born : ∀ k c, (∀ r s, k ≠ .state r s) → tx.changes k = some c → c.base = none → c.fresh = true

section
variable {tx : AlertTx} {doomed : Option Uuid} {k : AlertKey} {r s : Uuid} {base new : Option AlertRow}

theorem Quiet.empty {now : Time} : Quiet doomed (.empty now) :=
  ⟨rfl, fun _ _ _ h => (by cases h), fun _ _ _ h => (by cases h)⟩

theorem Quiet.announces (h : Quiet doomed tx) (removed : ∀ r, doomed = some r → ∀ s, Removed tx r s) :
    Announces tx where
  unchanged r s _ := by rw [h.silent]; rfl
  changed r s c hc := by
    rcases h.kept r s c hc with kept | gone | doom
    · refine Or.inl ?_
      rw [kept, h.silent]
      exact .none
    · exact Or.inr gone
    · exact Or.inr (removed r doom s)
  born := h.born

theorem Quiet.commits (h : Quiet none tx) : Announces tx := h.announces fun _ h => (by cases h)

/-- What is removed stays so: a statement only finds rows that are there. -/
theorem Removed.write (h : Removed tx r s) (hv : (∀ r s, k ≠ .state r s) → tx.view k base ≠ none) :
    Removed (tx.write k base new) r s := by
  have keep : ∀ k', (∀ r s, k' ≠ .state r s) → (∃ c, tx.changes k' = some c ∧ c.new = none) →
      ∃ c, (tx.write k base new).changes k' = some c ∧ c.new = none := by
    rintro k' hk' ⟨c, hc, hnew⟩
    have other : k' ≠ k := by
      rintro rfl
      exact hv hk' ((Tx.view_of_changes hc).trans hnew)
    exact ⟨c, (Tx.changes_write_of_ne other).trans hc, hnew⟩
  rcases h with h | h
  · exact Or.inl (keep _ (by simp) h)
  · exact Or.inr (keep _ (by simp) h)

/-- A statement on a row of `alert_state` that keeps it firing or not. -/
theorem Quiet.writeState (h : Quiet doomed tx)
    (hf : fires new = fires (tx.view (.state r s) base) ∨ Removed tx r s ∨ doomed = some r) :
    Quiet doomed (tx.write (.state r s) base new) := by
  have removed : ∀ r' s', Removed tx r' s' → Removed (tx.write (.state r s) base new) r' s' := fun r' s' h =>
    h.write fun hk => absurd rfl (hk r s)
  refine ⟨h.silent, fun r' s' c hc => ?_, fun k c hk hc => ?_⟩
  · by_cases here : AlertKey.state r' s' = .state r s
    · obtain ⟨rfl, rfl⟩ := AlertKey.state.inj here
      rw [Tx.changes_write] at hc
      rcases hf with hf | gone | doom
      · cases hold : tx.changes (.state r' s') with
        | none =>
          rw [hold] at hc
          obtain rfl := Option.some.inj hc
          rw [Tx.view_of_unchanged hold] at hf
          exact Or.inl hf
        | some old =>
          rw [hold] at hc
          obtain rfl := Option.some.inj hc
          rw [Tx.view_of_changes hold] at hf
          rcases h.kept r' s' old hold with kept | gone | doom
          · exact Or.inl (hf.trans kept)
          · exact Or.inr (Or.inl (removed _ _ gone))
          · exact Or.inr (Or.inr doom)
      · exact Or.inr (Or.inl (removed _ _ gone))
      · exact Or.inr (Or.inr doom)
    · rw [Tx.changes_write_of_ne here] at hc
      rcases h.kept r' s' c hc with kept | gone | doom
      · exact Or.inl kept
      · exact Or.inr (Or.inl (removed _ _ gone))
      · exact Or.inr (Or.inr doom)
  · rw [Tx.changes_write_of_ne (hk r s)] at hc
    exact h.born k c hk hc

/-- A statement on a rule or a server that is there. -/
theorem Quiet.writeRow (h : Quiet doomed tx) (hk : ∀ r s, k ≠ .state r s) (hv : tx.view k base ≠ none) :
    Quiet doomed (tx.write k base new) := by
  refine ⟨h.silent, fun r s c hc => ?_, fun k' c hk' hc hbase => ?_⟩
  · rw [Tx.changes_write_of_ne (hk r s).symm] at hc
    rcases h.kept r s c hc with kept | gone | doom
    · exact Or.inl kept
    · exact Or.inr (Or.inl (gone.write fun _ => hv))
    · exact Or.inr (Or.inr doom)
  · by_cases here : k' = k
    · subst here
      rw [Tx.changes_write] at hc
      cases hold : tx.changes k' with
      | none =>
        rw [hold] at hc
        obtain rfl := Option.some.inj hc
        rw [Tx.view_of_unchanged hold] at hv
        exact absurd hbase hv
      | some old =>
        rw [hold] at hc
        obtain rfl := Option.some.inj hc
        exact h.born k' old hk' hold hbase
    · rw [Tx.changes_write_of_ne here] at hc
      exact h.born k' c hk' hc hbase

theorem Quiet.create {row : AlertRow} (h : Quiet doomed tx) (hk : ∀ r s, k ≠ .state r s)
    (unused : tx.changes k = none) :
    Quiet doomed (tx.create k row) := by
  refine ⟨h.silent, fun r s c hc => ?_, fun k' c hk' hc hbase => ?_⟩
  · rw [Tx.changes_create_of_ne (hk r s).symm] at hc
    have keep : ∀ k', (∃ c, tx.changes k' = some c ∧ c.new = none) →
        ∃ c, (tx.create k row).changes k' = some c ∧ c.new = none := by
      rintro k' ⟨c, hc, hnew⟩
      refine ⟨c, (Tx.changes_create_of_ne ?_).trans hc, hnew⟩
      rintro rfl
      rw [unused] at hc
      cases hc
    rcases h.kept r s c hc with kept | (gone | gone) | doom
    · exact Or.inl kept
    · exact Or.inr (Or.inl (Or.inl (keep _ gone)))
    · exact Or.inr (Or.inl (Or.inr (keep _ gone)))
    · exact Or.inr (Or.inr doom)
  · by_cases here : k' = k
    · subst here
      rw [Tx.changes_create] at hc
      obtain rfl := Option.some.inj hc
      rfl
    · rw [Tx.changes_create_of_ne here] at hc
      exact h.born k' c hk' hc hbase

/-- A transaction that changes one row of `alert_state` and announces what it does to it. -/
theorem announces_of_only {c : Change AlertRow} {kinds : List NotificationKind}
    (here : tx.changes (.state r s) = some c)
    (only : ∀ k, k ≠ .state r s → tx.changes k = none) (told : kindsFor r s tx.events = kinds)
    (about : ∀ r' s', AlertKey.state r' s' ≠ .state r s → kindsFor r' s' tx.events = [])
    (transition : Transition (fires c.base) (fires c.new) kinds) : Announces tx where
  unchanged r' s' hn := about r' s' fun h => by
    rw [h, here] at hn
    cases hn
  changed r' s' c' hc' := by
    by_cases h : AlertKey.state r' s' = .state r s
    · obtain ⟨rfl, rfl⟩ := AlertKey.state.inj h
      obtain rfl := Option.some.inj (here.symm.trans hc')
      rw [told]
      exact Or.inl transition
    · rw [only _ h] at hc'
      cases hc'
  born k c' hk hc' := by
    rw [only k (hk r s)] at hc'
    cases hc'

end

/-! ### The commands -/

/-- A program is fine between transactions, whatever its session has committed. -/
def Fine (prog : AlertHandler) : Prop := ∀ q past, prog.Safe spec q past none

section
variable {q : AlertRequest} {past : List AlertTx} {tx : AlertTx} {doomed : Option Uuid} {now : Time}
  {next failed : AlertHandler}

theorem fine_answer {a : AlertResponse} : Fine (.answer a) := fun _ _ => trivial

theorem safe_unlessFails {open_ : Option AlertTx} (hf : failed.Safe spec q past open_)
    (hs : next.Safe spec q past open_) :
    (unlessFails failed next).Safe spec q past open_ := by
  intro reply
  dsimp only
  split
  · exact hf
  · exact hs

theorem fine_unlessFails (hf : Fine failed) (hs : Fine next) : Fine (unlessFails failed next) :=
  fun q past => safe_unlessFails (hf q past) (hs q past)

theorem fine_select {α : Type} {read : Time → List (AlertKey × AlertRow) → α} {next : α → AlertHandler}
    (hn : ∀ a, Fine (next a)) : Fine (select read next) :=
  fun q _ _ _ _ _ => ⟨Quiet.empty.commits, hn _ q _⟩

/-- The commit of a transaction without announcements. -/
theorem safe_commit (h : Quiet none tx) (hn : Fine next) : (Prog.commit next).Safe spec q past (some tx) :=
  ⟨h.commits, hn q _⟩

theorem safe_rollback (hn : Fine next) : (Prog.rollback next).Safe spec q past (some tx) := hn q past

/-! ### The worker -/

variable {rule : AlertRule} {serverId : Uuid} {base : Option AlertRow}

theorem fires_state {x : StateRow} : fires (some (.state x)) = x.state.firing := rfl

/-- What the observation leaves of a row fires when the row did. -/
theorem fires_observe {r s : Uuid} :
    fires (some (.state ⟨r, s, .observe now ((base.bind AlertRow.state?).map (·.state))⟩)) = fires base := by
  rw [fires_state, fires]
  cases hx : base.bind AlertRow.state? with
  | none => rfl
  | some x =>
    by_cases h : x.state.status = .firing
    · simp [AlertState.observe, AlertState.firing, h]
    · simp [AlertState.observe, AlertState.firing, h]

/-- The statement of the firing transaction matches a row that does not fire, and leaves it firing. -/
theorem transition_start {r s : Uuid} {x : StateRow}
    (h : (AlertState.start now ((base.bind AlertRow.state?).map (·.state))).map (⟨r, s, ·⟩) = some x) :
    x.ruleId = r ∧ x.serverId = s ∧ Transition (fires base) (fires (some (.state x))) [.alertFiring] := by
  obtain ⟨state, hstate, rfl⟩ := Option.map_eq_some_iff.mp h
  refine ⟨rfl, rfl, ?_⟩
  rw [fires_state, fires]
  cases hx : base.bind AlertRow.state? with
  | none =>
    rw [hx] at hstate
    obtain rfl := Option.some.inj hstate
    exact .firing
  | some old =>
    rw [hx, Option.map_some] at hstate
    unfold AlertState.start at hstate
    dsimp only at hstate
    split at hstate
    · cases hstate
    · rename_i idle
      obtain rfl := Option.some.inj hstate
      rw [Option.any_some, AlertState.firing, decide_eq_false idle]
      exact .firing

theorem fine_conditionSatisfiedLongEnough {next : Bool → AlertHandler} (hn : ∀ ready, Fine (next ready)) :
    Fine (AlertJob.conditionSatisfiedLongEnough rule serverId next) := by
  refine fine_unlessFails (hn false) fun q past now => safe_upsert (fun _ _ => safe_rollback (hn false)) ?_
  rintro base x - hx
  obtain rfl := Option.some.inj hx
  exact ⟨rfl, safe_commit (Quiet.empty.writeState (Or.inl fires_observe)) fun q past now => hn _ q past⟩

theorem fine_remind (hn : Fine next) : Fine (AlertJob.remind rule serverId next) := by
  unfold AlertJob.remind
  split
  · refine fine_unlessFails hn (fine_select fun found => ?_)
    cases found with
    | none => exact hn
    | some kx =>
      intro q past now
      dsimp only
      split
      · refine safe_unlessFails (hn q past) fun now => ?_
        refine safe_byKey (safe_commit .empty hn) fun base x hv valid _ => ?_
        refine ⟨fun y hy => Option.some.inj hy ▸ valid, safe_commit (Quiet.empty.writeState (Or.inl ?_)) hn⟩
        rw [hv]
        rfl
      · exact hn q past
  · exact hn

theorem kindsFor_self {u r s : Uuid} {kind : NotificationKind} : kindsFor r s [⟨u, r, s, kind⟩] = [kind] := by
  simp [kindsFor]

theorem kindsFor_other {u r s r' s' : Uuid} {kind : NotificationKind} (h : AlertKey.state r' s' ≠ .state r s) :
    kindsFor r' s' [⟨u, r, s, kind⟩] = [] := by
  have other : ¬(r = r' ∧ s = s') := fun ⟨hr, hs⟩ => h (by rw [hr, hs])
  simpa [kindsFor] using other

theorem fine_handleFiring (hn : Fine next) : Fine (AlertJob.handleFiring rule serverId next) := by
  refine fine_unlessFails hn fun q past now => safe_upsert (fun _ _ => safe_rollback (fine_remind hn)) ?_
  rintro base x - hx
  obtain ⟨hr, hs, transition⟩ := transition_start hx
  refine ⟨congrArg₂ AlertKey.state hr hs, safe_unlessFails (safe_rollback hn) ⟨?_, hn q _⟩⟩
  exact announces_of_only Tx.changes_write (fun k hk => Tx.changes_write_of_ne hk) kindsFor_self (fun _ _ =>
    kindsFor_other)
    transition

theorem fine_handleResolved (hn : Fine next) : Fine (AlertJob.handleResolved rule serverId next) := by
  refine fine_unlessFails hn fun q past now => safe_byKey (safe_rollback hn) fun base x hv valid _ => ?_
  refine ⟨fun y hy => Option.some.inj hy ▸ valid, safe_unlessFails (safe_rollback hn) ?_⟩
  have committed : base = some (.state x) := hv
  subst committed
  -- the row is locked as it was found, so the update meets that version
  refine safe_byKey_held Tx.changes_write rfl rfl (fun y hy => Option.some.inj hy ▸ valid) fun base' => ?_
  have here : ∀ new, (((Tx.empty now : AlertTx).write (.state rule.id serverId) (some (.state x))
    (some (.state x))).write
      (.state rule.id serverId) base' new).changes (.state rule.id serverId) = some ⟨some (.state x), new,
        false⟩ := fun new => by
    rw [Tx.changes_write, Tx.changes_write]
    rfl
  have only : ∀ new k, k ≠ .state rule.id serverId → (((Tx.empty now : AlertTx).write (.state rule.id serverId)
      (some (.state x)) (some (.state x))).write (.state rule.id serverId) base' new).changes k =
        none := fun new k hk => by
    rw [Tx.changes_write_of_ne hk, Tx.changes_write_of_ne hk]
    rfl
  split
  · rename_i firing
    refine safe_unlessFails (safe_rollback hn) ⟨?_, hn q _⟩
    refine announces_of_only (here _) (only _) kindsFor_self (fun _ _ => kindsFor_other) ?_
    rw [fires_state, firing]
    exact .resolved
  · rename_i idle
    refine ⟨announces_of_only (here _) (only _) rfl (fun _ _ _ => rfl) ?_, hn q _⟩
    rw [fires_state, Bool.eq_false_iff.mpr idle]
    exact .none

theorem fine_evaluateServers {p : Platform} {servers : List Server} (hn : Fine next) :
    Fine (AlertJob.evaluateServers p rule servers next) := by
  induction servers with
  | nil => exact hn
  | cons server rest ih =>
    intro q past reply now
    dsimp only
    split
    · exact ih q past
    · split
      · refine fine_conditionSatisfiedLongEnough (fun ready => ?_) q past
        cases ready with
        | true => exact fine_handleFiring ih
        | false => exact ih
      · exact fine_handleResolved ih q past

theorem fine_run {p : Platform} : Fine (AlertJob.run p) := by
  refine fine_unlessFails fine_answer (fine_select fun rules => fine_unlessFails fine_answer ?_)
  induction rules with
  | nil => exact fine_answer
  | cons rule rest ih => exact fine_unlessFails ih (fine_select fun servers => fine_evaluateServers ih)

/-! ### The owners -/

theorem safe_ownedRule (doomed : Option Uuid) {ruleId userId : Uuid} {set : AlertRule → Option AlertRule}
    (h : Quiet doomed tx)
    (keeps : ∀ rule rule', set rule = some rule' → rule'.id = rule.id)
    (hn : ∀ base rule, Quiet doomed (tx.write (.rule ruleId) base ((set rule).map .rule)) → rule.id = ruleId →
      rule.userId = userId → tx.view (.rule ruleId) base = some (.rule rule) →
        next.Safe spec q past (some (tx.write (.rule ruleId) base ((set rule).map .rule)))) :
    (AlertService.ownedRule ruleId userId set next).Safe spec q past (some tx) := by
  refine safe_byKey (safe_rollback fine_answer) fun base rule hv valid hw => ⟨fun rule' hs => ?_, ?_⟩
  · exact (congrArg AlertKey.rule (keeps rule rule' hs)).trans valid
  · simp only [Bool.and_eq_true, decide_eq_true_eq] at hw
    exact hn base rule (h.writeRow (by simp) (by rw [hv]; simp)) hw.1 hw.2 hv

theorem fine_insertRule {p : Platform} {userId : Uuid} {r : RulePayload} (hn : Fine next) :
    Fine (AlertService.insertRule p userId r next) := by
  intro q past now snapshot _ _
  dsimp only
  split
  · exact safe_rollback fine_answer
  · refine safe_unlessFails (safe_rollback fine_answer) ⟨safe_commit .empty hn, fun k row hk unused => ?_⟩
    cases k with
    | rule id =>
      obtain rfl := Option.some.inj hk
      exact ⟨rfl, safe_commit (Quiet.empty.create (by simp) unused) hn⟩
    | server id => cases hk
    | state r s => cases hk

theorem fine_insertRules {p : Platform} {userId : Uuid} {r : RulePayload} {ids : List String} :
    Fine (AlertService.insertRules p userId r ids) := by
  induction ids with
  | nil => exact fine_answer
  | cons id rest ih => exact fine_insertRule ih

theorem fine_createRule {p : Platform} {userId : Uuid} {payload : RulePayload} :
    Fine (AlertService.createRule p userId payload) := by
  unfold AlertService.createRule
  dsimp only
  split
  · split
    · exact fine_insertRules
    · exact fine_insertRule fine_answer
  · exact fine_answer

theorem fine_updateRule {p : Platform} {ruleId userId : Uuid} {payload : RulePayload} :
    Fine (AlertService.updateRule p ruleId userId payload) := by
  unfold AlertService.updateRule
  dsimp only
  split
  · intro q past now snapshot _ _
    dsimp only
    split
    · exact safe_rollback fine_answer
    · refine safe_unlessFails (safe_rollback fine_answer) (safe_ownedRule none .empty (fun rule rule' hs => ?_) ?_)
      · obtain rfl := Option.some.inj hs
        rfl
      · exact fun _ _ quiet _ _ _ => safe_commit quiet fine_answer
  · exact fine_answer

theorem fine_toggleRule {ruleId userId : Uuid} {explicitState : Option Bool} :
    Fine (AlertService.toggleRule ruleId userId explicitState) := by
  refine fun q past now => safe_ownedRule none .empty (fun rule rule' hs => ?_) fun _ _ quiet _ _ _ =>
    safe_commit quiet fine_answer
  obtain rfl := Option.some.inj hs
  rfl

theorem fine_deleteRule {ruleId userId : Uuid} : Fine (AlertService.deleteRule ruleId userId) := by
  refine fun q past now => safe_ownedRule (some ruleId) .empty (fun rule rule' hs => Option.some.inj hs ▸ rfl) ?_
  intro base rule quiet hid howner hv
  -- the rule stays locked while its rows go
  refine safe_delete (J := fun tx => Quiet (some ruleId) tx ∧
      ∃ c, tx.changes (.rule ruleId) = some c ∧ c.new = some (.rule rule)) ⟨quiet, _, Tx.changes_write, rfl⟩ ?_ ?_
  · rintro tx k base x ⟨quiet, held⟩ - valid hw
    obtain rfl : AlertKey.state x.ruleId x.serverId = k := valid
    have doomed : some ruleId = some x.ruleId := congrArg some (of_decide_eq_true hw).symm
    refine ⟨quiet.writeState (Or.inr (Or.inr doomed)), ?_⟩
    rwa [Tx.changes_write_of_ne (by simp)]
  · rintro tx ⟨quiet, c, held, left⟩
    refine safe_byKey_held held left (by simp [hid, howner]) (fun _ h => (by cases h)) fun base => ?_
    have removed : Quiet (some ruleId) (tx.write (.rule ruleId) base none) :=
      quiet.writeRow (by simp) (by rw [Tx.view_of_changes held, left]; simp)
    refine ⟨removed.announces ?_, trivial⟩
    rintro _ ⟨⟩ s
    exact Or.inl ⟨_, Tx.changes_write, by rw [held]⟩

theorem safe_cascadeRules {serverId : Uuid} {ids : List Uuid} (h : Quiet none tx)
    (hn : ∀ tx, Quiet none tx → next.Safe spec q past (some tx)) :
    (AlertService.cascadeRules serverId ids next).Safe spec q past (some tx) := by
  induction ids generalizing tx with
  | nil => exact hn tx h
  | cons id rest ih =>
    refine safe_byKey (ih h) fun base rule hv valid _ => ⟨fun _ h => (by cases h), ?_⟩
    -- the rule is gone before its rows
    refine safe_delete (J := fun tx => Quiet none tx ∧ ∃ c, tx.changes (.rule id) = some c ∧ c.new = none)
      ⟨h.writeRow (by simp) (by rw [hv]; simp), _, Tx.changes_write, by split <;> rfl⟩ ?_ fun tx hJ => ih hJ.1
    rintro tx k base x ⟨quiet, gone⟩ - valid hw
    obtain rfl : AlertKey.state x.ruleId x.serverId = k := valid
    obtain rfl := of_decide_eq_true hw
    refine ⟨quiet.writeState (Or.inr (Or.inl (Or.inl gone))), ?_⟩
    rwa [Tx.changes_write_of_ne (by simp)]

theorem fine_deleteServer {serverId userId : Uuid} : Fine (AlertService.deleteServer serverId userId) := by
  refine fun q past now => safe_byKey (safe_rollback fine_answer) fun base server hv _ _ =>
    ⟨fun _ h => (by cases h), ?_⟩
  refine safe_delete (J := fun tx => Quiet none tx ∧ ∃ c, tx.changes (.server serverId) = some c ∧ c.new = none)
    ⟨Quiet.empty.writeRow (by simp) (by rw [hv]; simp), _, Tx.changes_write, by split <;> rfl⟩ ?_ ?_
  · rintro tx k base x ⟨quiet, gone⟩ - valid hw
    obtain rfl : AlertKey.state x.ruleId x.serverId = k := valid
    obtain rfl := of_decide_eq_true hw
    refine ⟨quiet.writeState (Or.inr (Or.inl (Or.inr gone))), ?_⟩
    rwa [Tx.changes_write_of_ne (by simp)]
  · exact fun tx hJ snapshot _ _ => safe_cascadeRules hJ.1 fun tx quiet => safe_commit quiet fine_answer

theorem fine_editServers {which : Server → Bool} {edit : Server → Server} :
    Fine (.start fun _ => update alertServers (fun _ =>
        { where_ := which, set := fun s => { edit s with id := s.id } }) fun _ =>
      .commit (.answer .done)) := by
  refine fun q past now => safe_update (J := fun _ => Quiet none) .empty ?_ fun _ _ quiet =>
    safe_commit quiet fine_answer
  intro snapshot found tx k base server quiet _ hv valid _
  refine ⟨valid, quiet.writeRow ?_ (by rw [hv]; simp)⟩
  obtain rfl : AlertKey.server server.id = k := valid
  simp

theorem fine_enrolServer {server : Server} : Fine (.start fun _ => .insert (fun
    | .server id => some (.server { server with id := id })
    | _ => none) (fun _ => false) fun _ => .commit (.answer .done)) := by
  refine fun q past now => ⟨safe_commit .empty fine_answer, fun k row hk unused => ?_⟩
  cases k with
  | server id =>
    obtain rfl := Option.some.inj hk
    exact ⟨rfl, safe_commit (Quiet.empty.create (by simp) unused) fine_answer⟩
  | rule id => cases hk
  | state r s => cases hk

/-- Every handler keeps the specification. -/
theorem fine_serveAlerts {p : Platform} (request : AlertRequest) : Fine (serveAlerts p request) := by
  cases request with
  | run => exact fine_run
  | createRule userId payload =>
    rw [serveAlerts]
    exact @fine_createRule p userId payload
  | updateRule ruleId userId payload =>
    rw [serveAlerts]
    exact @fine_updateRule p ruleId userId payload
  | toggleRule ruleId userId explicitState => exact fine_toggleRule
  | deleteRule ruleId userId => exact fine_deleteRule
  | enrolServer server => exact fine_enrolServer
  | editServers which edit => exact fine_editServers
  | deleteServer serverId userId => exact fine_deleteServer

end

/-! ### Histories -/

/-- The commits of the alerts, newest first. -/
abbrev AlertLog := List (Commit AlertRequest AlertKey AlertRow DashboardNotification)

/-- The notifications about a rule and a server that a log has committed, newest first. -/
def announced (r s : Uuid) (log : AlertLog) : List NotificationKind :=
  log.flatMap fun e => (kindsFor r s e.tx.events).reverse

/-- Newest first: an alert and its resolution by turns, the alert first of all. -/
def Alternates : List NotificationKind → Prop
  | [] => True
  | [first] => first = .alertFiring
  | newer :: older :: rest => newer ≠ older ∧ Alternates (older :: rest)

section
variable {rows₀ rows : AlertKey → Option AlertRow} {log : AlertLog} {r s : Uuid}

theorem serial_announces (h : Serial spec rows₀ log rows) : ∀ e ∈ log, Announces e.tx := by
  induction h with
  | nil => exact fun _ h => (by cases h)
  | cons _ ok _ _ ih =>
    intro e' he'
    rcases List.mem_cons.mp he' with rfl | he'
    · exact ok
    · exact ih e' he'

/-- In a serial history that removes neither the rule nor the server, the announcements alternate, and the row
    fires when the last of them was an alert. -/
theorem serial_alternates (h : Serial spec rows₀ log rows) (quiet : fires (rows₀ (.state r s)) = false)
    (kept : ∀ e ∈ log, ¬Removed e.tx r s) :
    Alternates (announced r s log) ∧ (fires (rows (.state r s)) = true ↔
      (announced r s log).head? = some .alertFiring) := by
  induction h with
  | nil => simp [announced, Alternates, quiet]
  | @cons log rows e _ ok base _ ih =>
    obtain ⟨alternates, last⟩ := ih fun e' he' => kept e' (List.mem_cons_of_mem _ he')
    rw [announced, List.flatMap_cons, ← announced]
    cases hc : e.tx.changes (.state r s) with
    | none =>
      rw [ok.unchanged r s hc, Tx.apply, Tx.view_of_unchanged hc]
      exact ⟨alternates, last⟩
    | some c =>
      have transition := (ok.changed r s c hc).resolve_right (kept e (List.mem_cons_self ..))
      rw [base _ c hc] at transition
      rw [Tx.apply, Tx.view_of_changes hc]
      generalize kindsFor r s e.tx.events = kinds at transition
      generalize fires c.new = after at transition
      generalize fires (rows (.state r s)) = before at transition last
      cases transition with
      | none => exact ⟨alternates, last⟩
      | firing =>
        refine ⟨?_, by simp⟩
        cases hl : announced r s log with
        | nil => rfl
        | cons newest rest =>
          rw [hl] at alternates last
          exact ⟨fun same => by simp [← same] at last, alternates⟩
      | resolved =>
        refine ⟨?_, by simp⟩
        cases hl : announced r s log with
        | nil =>
          rw [hl] at last
          simp at last
        | cons newest rest =>
          rw [hl] at alternates last
          obtain rfl := Option.some.inj (last.mp rfl)
          exact ⟨by simp, alternates⟩

end

/-- In every state that any interleaving of workers and owners reaches, from one without open incidents, the
    announcements of every rule and server that are there alternate, beginning with an alert. -/
theorem announcements_alternate {p : Platform} {rows : AlertKey → Option AlertRow}
    {state : State AlertRequest AlertKey AlertRow DashboardNotification Reply AlertResponse}
    (keyed : ∀ k row, rows k = some row → row.key = k) (quiet : ∀ r s, fires (rows (.state r s)) = false)
    (h : Reachable (serveAlerts p) rows state) :
    ∀ r s, state.rows (.rule r) ≠ none → state.rows (.server s) ≠ none → Alternates (announced r s state.log) := by
  intro r s hr hs
  have history := (h.consistent (fun q => fine_serveAlerts q q []) keyed).history
  have announces := serial_announces history
  refine (serial_alternates history (quiet r s) fun e he removed => ?_).1
  rcases removed with ⟨c, hc, gone⟩ | ⟨c, hc, gone⟩
  · exact history.present (fun e he c => (announces e he).born _ c (by simp)) hr e he c hc gone
  · exact history.present (fun e he c => (announces e he).born _ c (by simp)) hs e he c hc gone

/-! ### Two workers at once -/

/-- User 7's server and a rule on its status. -/
def oneRule : List (AlertKey × AlertRow) :=
  [(.rule 3, .rule ⟨3, 7, "down", "status", "==", 0, 1, 5, none, none, true⟩), (.server 1, .server linuxServer)]

theorem keyed_oneRule : ∀ k row, oneRule.lookup k = some row → row.key = k := by
  intro k row h
  simp only [oneRule, List.lookup_cons, List.lookup_nil] at h
  split at h
  · rename_i here
    obtain rfl := Option.some.inj h
    exact (beq_iff_eq.mp here).symm
  · split at h
    · rename_i here
      obtain rfl := Option.some.inj h
      exact (beq_iff_eq.mp here).symm
    · cases h

/-- A worker whose statements succeed takes so many steps after each of them. -/
def working (i : Nat) (steps : List Nat) : List (Move AlertRequest AlertKey Reply) :=
  steps.flatMap fun n => .reply i ⟨false, none⟩ :: List.replicate n (.next i)

/-- The server has been silent for 1000 s when two workers evaluate the rule: the second one announces the incident
    while the first is about to. Then the server is heard of, and a third worker announces the end. -/
def incident : List (Move AlertRequest AlertKey Reply) :=
  .tick (1000 * second) :: .arrive 0 .run :: .arrive 1 .run ::
    working 0 [3, 0, 3, 1, 4, 1] ++ working 1 [3, 0, 3, 1, 4, 2, 3] ++ List.replicate 2 (.next 0) ++ working 0 [4, 5] ++
    .tick (1010 * second) :: .arrive 2 (.editServers (·.id = 1) fun s =>
      { s with lastSeenAt := some (1010 * second) }) ::
    List.replicate 5 (.next 2) ++ .arrive 3 .run :: working 3 [3, 0, 3, 1, 3, 2, 3]

/-- For examples: all the workers are done, and the incident and its end have been announced once. -/
def announcedOnce (s : Listed AlertRequest AlertKey AlertRow DashboardNotification Reply AlertResponse) : Bool :=
  announced 3 1 s.log = [.alertResolved, .alertFiring] &&
    [0, 1, 2, 3].all fun i => (s.sessions.lookup i).any fun session => session.control matches .answered .done

theorem announcements_alternate_oneRule :
    ∃ s : Listed AlertRequest AlertKey AlertRow DashboardNotification Reply AlertResponse, announcedOnce s = true ∧
      ∀ r s', s.state.rows (.rule r) ≠ none → s.state.rows (.server s') ≠ none →
      Alternates (announced r s' s.state.log) := by
  obtain ⟨s, reachable, h⟩ :=
    Listed.reachable_of_check (serveAlerts plainPlatform) 0 oneRule incident announcedOnce (by decide +kernel)
  exact ⟨s, h, announcements_alternate keyed_oneRule (fun _ _ => rfl) reachable⟩

end AlertAlternation
end DatrixOps
