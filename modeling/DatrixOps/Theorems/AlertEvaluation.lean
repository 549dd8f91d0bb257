import DatrixOps.Postgres.Alone
import DatrixOps.Alert.Worker

/-! The alert job served alone: what its statements leave of the row of a rule and a server, and what they
    announce, is what one evaluation of the alerting system leaves and sends. -/

namespace DatrixOps
namespace AlertEvaluation
open Postgres Prog

/-- Every row is under its own key. -/
def Keyed (rows : AlertKey → Option AlertRow) : Prop := ∀ k row, rows k = some row → row.key = k

/-- The row of a rule and a server. -/
def stateOf (rows : AlertKey → Option AlertRow) (ruleId serverId : Uuid) : Option AlertState :=
  ((rows (.state ruleId serverId)).bind alertStates.get).map (·.state)

/-- The rows with this one for a rule and a server. -/
def withState (rows : AlertKey → Option AlertRow) (ruleId serverId : Uuid) (state : Option AlertState) :
    AlertKey → Option AlertRow :=
  Function.update rows (.state ruleId serverId) (state.map fun state => .state ⟨ruleId, serverId, state⟩)

/-- What a notice writes to the dashboard. A reminder goes to the external channels only. -/
def notified (rule : AlertRule) (serverId : Uuid) : Notice → List DashboardNotification
  | .firing => [⟨rule.userId, rule.id, serverId, .alertFiring⟩]
  | .reminder => []
  | .resolved => [⟨rule.userId, rule.id, serverId, .alertResolved⟩]

/-- Between the scenes an evaluation has left `result` of its row and of its notices. -/
structure Evaluated (rule : AlertRule) (serverId : Uuid) (s : Scene AlertKey AlertRow DashboardNotification)
    (result : Option AlertState × List Notice) (s' : Scene AlertKey AlertRow DashboardNotification) : Prop where
  rows : s'.rows = withState s.rows rule.id serverId result.1
  announced : s'.announced = s.announced ++ result.2.flatMap (notified rule serverId)

section
variable {rows : AlertKey → Option AlertRow} {ruleId serverId : Uuid} {state state' : Option AlertState}

@[simp] theorem stateOf_withState : stateOf (withState rows ruleId serverId state) ruleId serverId = state := by
  rw [stateOf, withState, Function.update_self]
  cases state <;> rfl

@[simp] theorem withState_withState :
    withState (withState rows ruleId serverId state) ruleId serverId state' = withState rows ruleId serverId state' :=
  Function.update_idem ..

theorem Keyed.row (keyed : Keyed rows) :
    rows (.state ruleId serverId) = (stateOf rows ruleId serverId).map fun state =>
      .state ⟨ruleId, serverId, state⟩ := by
  cases row : rows (.state ruleId serverId) with
  | none => rw [stateOf, row]; rfl
  | some x =>
    have key := keyed _ _ row
    cases x with
    | rule r => cases key
    | server s => cases key
    | state x =>
      cases key
      rw [stateOf, row]
      rfl

theorem Keyed.withState_stateOf (keyed : Keyed rows) :
    withState rows ruleId serverId (stateOf rows ruleId serverId) = rows := by
  rw [withState, ← keyed.row, Function.update_eq_self]

theorem Keyed.withState (keyed : Keyed rows) : Keyed (withState rows ruleId serverId state) := by
  intro k row at_
  by_cases same : k = .state ruleId serverId
  · subst same
    rw [AlertEvaluation.withState, Function.update_self] at at_
    obtain ⟨state, -, rfl⟩ := Option.map_eq_some_iff.mp at_
    rfl
  · rw [AlertEvaluation.withState, Function.update_of_ne same] at at_
    exact keyed k row at_

end

section
variable {p : Platform} {rule : AlertRule} {serverId : Uuid} {now : Time} {a : AlertResponse} {next : AlertHandler}
  {s s' : Scene AlertKey AlertRow DashboardNotification}

theorem alone_unlessFails {failed statement : AlertHandler} {tx : Option (Tx AlertKey AlertRow DashboardNotification)}
    (h : (unlessFails failed statement).Alone now tx s a s') :
    failed.Alone now tx s a s' ∨ statement.Alone now tx s a s' := by
  obtain ⟨reply, h⟩ := h
  beta_reduce at h
  split at h
  · exact Or.inl h
  · exact Or.inr h

/-- Nothing was left and nothing sent. -/
theorem Evaluated.kept (keyed : Keyed s.rows) {used : AlertKey → Prop} :
    Evaluated rule serverId s (stateOf s.rows rule.id serverId, []) { s with used := used } where
  rows := keyed.withState_stateOf.symm
  announced := (List.append_nil _).symm

theorem alone_conditionSatisfiedLongEnough {next : Bool → AlertHandler}
    (h : (AlertJob.conditionSatisfiedLongEnough rule serverId next).Alone now none s a s') :
    (next false).Alone now none s a s' ∨
      ∃ s₁, Evaluated rule serverId s (some (.observe now (stateOf s.rows rule.id serverId)), []) s₁ ∧
        (next (satisfiedLongEnough now rule (.observe now (stateOf s.rows rule.id serverId)))).Alone now
        none s₁ a s' := by
  rcases alone_unlessFails h with h | h
  · exact Or.inl h
  rcases Alone.upsert (Alone.start h) with ⟨-, h⟩ | ⟨t, observed, h⟩
  · exact Or.inl h
  · cases observed
    refine Or.inr ⟨_, ⟨?_, ?_⟩, h⟩
    · exact Tx.apply_write_empty
    · rfl

theorem Evaluated.trans {state : Option AlertState} {result : Option AlertState × List Notice}
    {s₁ s₂ : Scene AlertKey AlertRow DashboardNotification} (h : Evaluated rule serverId s (state, []) s₁)
    (h' : Evaluated rule serverId s₁ result s₂) : Evaluated rule serverId s result s₂ where
  rows := by rw [h'.rows, h.rows, withState_withState]
  announced := by rw [h'.announced, h.announced, List.flatMap_nil, List.append_nil]

/-- A reminder writes nothing to the dashboard. -/
theorem Evaluated.remind {state : Option AlertState} (h : Evaluated rule serverId s (state, []) s) :
    Evaluated rule serverId s (state, [.reminder]) s := ⟨h.rows, h.announced⟩

theorem alone_remind {x : AlertState} (keyed : Keyed s.rows) (row : stateOf s.rows rule.id serverId = some x)
    (fires : AlertState.start now (some x) = none) (h : (AlertJob.remind rule serverId next).Alone now none s a s') :
    ∃ f s₁, Evaluated rule serverId s (handleFiring now rule f (some x)) s₁ ∧ next.Alone now none s₁ a s' := by
  have unread : handleFiring now rule { Faults.none with lastNotified := true } (some x) = (some x, []) := by
    simp [handleFiring, fires, Faults.none]
  have same : Evaluated rule serverId s (some x, []) s := row ▸ .kept keyed
  unfold AlertJob.remind at h
  split at h
  · rename_i repeats
    rcases alone_unlessFails h with h | h
    · exact ⟨_, s, unread ▸ same, h⟩
    obtain ⟨snapshot, ⟨-, found⟩, h⟩ := Alone.select h
    split at h
    · exact ⟨_, s, unread ▸ same, h⟩
    · rename_i k t first
      obtain ⟨mem, here⟩ := List.mem_filter.mp (List.mem_of_head? first)
      have stored : s.rows k = some (.state t) := (found _ _).mp (Table.mem_rows.mp mem)
      obtain ⟨hrule, hserver⟩ : t.ruleId = rule.id ∧ t.serverId = serverId := by simpa using here
      obtain rfl : t.state = x := by
        have key : AlertKey.state t.ruleId t.serverId = k := keyed _ _ stored
        rw [stateOf, ← hrule, ← hserver, key, stored] at row
        exact Option.some.inj row
      change Alone now (if _ then _ else _) none s a s' at h
      split at h
      · rename_i due
        have reminded (notified : Bool) :
          handleFiring now rule { Faults.none with notified := notified } (some t.state) =
            (some (if notified then t.state else t.state.notified now), [.reminder]) := by
          simp [handleFiring, fires, Faults.none, repeats, due]
        rcases alone_unlessFails h with h | h
        · exact ⟨_, s, reminded true ▸ same.remind, h⟩
        rcases Alone.byKey (Alone.start h) with ⟨t', view, -, h⟩ | ⟨-, h⟩
        · have written : s.rows (.state rule.id serverId) = some (.state t') := view
          obtain rfl : t = t' := by
            have key : AlertKey.state t.ruleId t.serverId = k := keyed _ _ stored
            rw [hrule, hserver] at key
            rw [key, stored] at written
            cases written
            rfl
          refine ⟨{ Faults.none with notified := false }, _, ?_, h⟩
          rw [reminded false]
          refine ⟨Tx.apply_write_empty.trans ?_, rfl⟩
          rw [withState, ← hrule, ← hserver]
          rfl
        · refine ⟨{ Faults.none with notified := true }, _, ?_, h⟩
          rw [reminded true]
          exact ⟨same.rows, rfl⟩
      · rename_i early
        have nothing : handleFiring now rule .none (some t.state) = (some t.state, []) := by
          simp [handleFiring, fires, Faults.none, early]
        exact ⟨.none, s, nothing ▸ same, h⟩
  · rename_i never
    have nothing : handleFiring now rule .none (some x) = (some x, []) := by
      simp [handleFiring, fires, Faults.none, never]
    exact ⟨.none, s, nothing ▸ same, h⟩

theorem alone_handleFiring (keyed : Keyed s.rows)
    (h : (AlertJob.handleFiring rule serverId next).Alone now none s a s') :
    ∃ f s₁, Evaluated rule serverId s (handleFiring now rule f (stateOf s.rows rule.id serverId)) s₁ ∧
      next.Alone now none s₁ a s' := by
  have failed : handleFiring now rule { Faults.none with start := true } (stateOf s.rows rule.id serverId) =
      (stateOf s.rows rule.id serverId, []) := by
    simp [handleFiring]
  rcases alone_unlessFails h with h | h
  · exact ⟨_, s, by rw [failed]; exact .kept keyed, h⟩
  rcases Alone.upsert (Alone.start h) with ⟨none_, h⟩ | ⟨t, some_, h⟩
  · have fires : AlertState.start now (stateOf s.rows rule.id serverId) = none := Option.map_eq_none_iff.mp none_
    cases row : stateOf s.rows rule.id serverId with
    | none =>
      rw [row] at fires
      cases fires
    | some x => exact alone_remind keyed row (row ▸ fires) h
  · obtain ⟨started, starts, rfl⟩ := Option.map_eq_some_iff.mp some_
    have starts : AlertState.start now (stateOf s.rows rule.id serverId) = some started := starts
    have fired : handleFiring now rule .none (stateOf s.rows rule.id serverId) = (some started, [.firing]) := by
      simp [handleFiring, Faults.none, starts]
    rcases alone_unlessFails h with h | h
    · refine ⟨{ Faults.none with start := true }, _, ?_, h⟩
      rw [failed]
      exact .kept keyed
    · refine ⟨.none, _, ?_, h⟩
      rw [fired]
      exact ⟨Tx.apply_write_empty, rfl⟩

theorem alone_handleResolved (keyed : Keyed s.rows)
    (h : (AlertJob.handleResolved rule serverId next).Alone now none s a s') :
    ∃ f s₁, Evaluated rule serverId s (handleResolved now f (stateOf s.rows rule.id serverId)) s₁ ∧
      next.Alone now none s₁ a s' := by
  have failed : handleResolved now { Faults.none with resolve := true } (stateOf s.rows rule.id serverId) =
      (stateOf s.rows rule.id serverId, []) := by
    cases stateOf s.rows rule.id serverId <;> rfl
  have kept {used : AlertKey → Prop} : Evaluated rule serverId s
      (handleResolved now { Faults.none with resolve := true }
        (stateOf s.rows rule.id serverId)) { s with used := used } := by
    rw [failed]
    exact .kept keyed
  rcases alone_unlessFails h with h | h
  · exact ⟨_, _, kept, h⟩
  rcases Alone.byKey (Alone.start h) with ⟨t, view, -, h⟩ | ⟨-, h⟩
  · have row : stateOf s.rows rule.id serverId = some t.state := by
      rw [stateOf, show s.rows (.state rule.id serverId) = some (.state t) from view]
      rfl
    rcases alone_unlessFails h with h | h
    · exact ⟨_, _, kept, h⟩
    rcases Alone.byKey h with ⟨t', view', -, h⟩ | ⟨missed, -⟩
    · obtain rfl : t = t' := by
        rw [Tx.view_write, if_pos rfl] at view'
        cases view'
        rfl
      have resolved : handleResolved now .none (stateOf s.rows rule.id serverId) =
          (some (t.state.resolve now), if t.state.firing then [.resolved] else []) := by
        simp [handleResolved, Faults.none, row]
      have key : AlertKey.state t.ruleId t.serverId = .state rule.id serverId := keyed _ _ view
      have left : (((Tx.empty now : Tx AlertKey AlertRow DashboardNotification).write (.state rule.id serverId)
          (s.rows (.state rule.id serverId)) (some (.state t))).write (.state rule.id serverId)
          (s.rows (.state rule.id serverId)) (some (.state { t with state := t.state.resolve now }))).apply s.rows =
          withState s.rows rule.id serverId (some (t.state.resolve now)) := by
        obtain ⟨hrule, hserver⟩ := AlertKey.state.inj key
        rw [Tx.write_write, Tx.apply_write_empty, withState, Option.map_some, ← hrule, ← hserver]
      change Alone now (if _ then _ else _) _ _ a s' at h
      split at h
      · rename_i firing
        rcases alone_unlessFails h with h | h
        · exact ⟨_, _, kept, h⟩
        · refine ⟨.none, _, ?_, h⟩
          rw [resolved, if_pos firing]
          exact ⟨left, rfl⟩
      · rename_i idle
        refine ⟨.none, _, ?_, h⟩
        rw [resolved, if_neg idle]
        exact ⟨left, rfl⟩
    · cases missed t (Tx.view_write.trans (if_pos rfl))
  · exact ⟨_, _, kept, h⟩

/-- Where the job evaluates a rule on a server by itself, it leaves and announces what an evaluation does, some
    statements of which may fail. -/
theorem alone_evaluateServers {server : Server} {rest : List Server} (keyed : Keyed s.rows)
    (h : (AlertJob.evaluateServers p rule (server :: rest) next).Alone now none s a s') :
    ∃ telemetry f s₁, Evaluated rule server.id s
        (handleVerdict now rule (evaluateCondition p now telemetry rule server.lastSeenAt) f
          (stateOf s.rows rule.id server.id)) s₁ ∧
      (AlertJob.evaluateServers p rule rest next).Alone now none s₁ a s' := by
  obtain ⟨reply, h⟩ := h
  change Alone now (if _ then _ else _) none s a s' at h
  generalize verdict : evaluateCondition p now reply.telemetry rule server.lastSeenAt = v at h
  have kept (f : Faults) (passed : v.hasData = false ∨ f.observe = true ∧ f.resolve = true) : Evaluated rule server.id s
      (handleVerdict now rule v f (stateOf s.rows rule.id server.id)) s := by
    have skipped : handleVerdict now rule v f (stateOf s.rows rule.id server.id) =
        (stateOf s.rows rule.id server.id, []) := by
      rcases passed with passed | ⟨observe, resolve⟩
      · rw [handleVerdict, if_pos passed]
      · cases stateOf s.rows rule.id server.id <;> simp [handleVerdict, handleResolved, observe, resolve]
    rw [skipped]
    exact .kept keyed
  refine ⟨reply.telemetry, ?_⟩
  rw [verdict]
  split at h
  · exact ⟨⟨true, true, true, true, true⟩, s, kept _ (Or.inr ⟨rfl, rfl⟩), h⟩
  rename_i data
  have hasData : v.hasData = true := Bool.eq_true_of_not_eq_false (not_or.mp data).2
  split at h
  · rename_i firing
    rcases alone_conditionSatisfiedLongEnough h with h | ⟨s₁, observed, h⟩
    · exact ⟨⟨true, true, true, true, true⟩, s, kept _ (Or.inr ⟨rfl, rfl⟩), h⟩
    split at h
    · rename_i long
      have row : stateOf s₁.rows rule.id server.id = some (.observe now (stateOf s.rows rule.id server.id)) := by
        rw [observed.rows, stateOf_withState]
      obtain ⟨f, s₂, handled, h⟩ := alone_handleFiring (observed.rows ▸ keyed.withState) h
      refine ⟨{ f with observe := false }, s₂, observed.trans ?_, h⟩
      rw [row] at handled
      simpa [handleVerdict, hasData, firing, long, handleFiring] using handled
    · rename_i short
      refine ⟨.none, s₁, ?_, h⟩
      simpa [handleVerdict, hasData, firing, short, Faults.none] using observed
  · rename_i resolved
    obtain ⟨f, s₁, handled, h⟩ := alone_handleResolved keyed h
    refine ⟨f, s₁, ?_, h⟩
    rw [handleVerdict, if_neg (ne_true_of_eq_false · hasData), if_neg resolved]
    exact handled

end

/-! ### The alerting system -/

/-- The notification on the dashboard that an entry of the journal is: its rule, its server and its kind. -/
def announcement : Entry → Option (Uuid × Uuid × NotificationKind)
  | .sent ruleId serverId _ .firing => some (ruleId, serverId, .alertFiring)
  | .sent ruleId serverId _ .resolved => some (ruleId, serverId, .alertResolved)
  | _ => none

/-- The system has still to evaluate the rule on the same servers as the job, has the same rows, and has announced the
    same. -/
structure Matches (db : AlertDb) (rule : AlertRule) (servers : List Server)
    (s : Scene AlertKey AlertRow DashboardNotification) : Prop where
  queue : db.queue = servers.map fun server => ⟨rule, server.id, server.lastSeenAt⟩
  linked : ∀ server ∈ servers, db.linked rule.id server.id = true
  states : ∀ ruleId serverId, db.states ruleId serverId = stateOf s.rows ruleId serverId
  announced : s.announced.map (fun n => (n.alertRuleId, n.serverId, n.kind)) =
    (db.journal.filterMap announcement).reverse

section
variable {p : Platform} {db : AlertDb} {rule : AlertRule} {server : Server} {servers : List Server}
  {s s₁ s' : Scene AlertKey AlertRow DashboardNotification} {telemetry : Option Telemetry} {f : Faults}

theorem stateOf_withState_of_ne {rows : AlertKey → Option AlertRow} {ruleId serverId ruleId' serverId' : Uuid}
    {state : Option AlertState} (other : ¬(ruleId' = ruleId ∧ serverId' = serverId)) :
    stateOf (withState rows ruleId serverId state) ruleId' serverId' = stateOf rows ruleId' serverId' := by
  have key : AlertKey.state ruleId' serverId' ≠ .state ruleId serverId := fun same => other (AlertKey.state.inj same)
  rw [stateOf, withState, Function.update_of_ne key, stateOf]

theorem length_notices {now : Time} {v : Verdict} {old left : Option AlertState} {notices : List Notice}
    (h : Handled now rule v f old left notices) : notices.length ≤ 1 := by
  cases h with
  | skipped _ => exact Nat.zero_le 1
  | observed _ _ => exact Nat.zero_le 1
  | started _ _ _ _ => exact Nat.le_refl 1
  | reminded _ _ _ _ _ _ _ => exact Nat.le_refl 1
  | resolved _ _ _ _ => split <;> decide

/-- The notices of one evaluation are the same entries on both sides, as there is at most one. -/
theorem announced_notices {now : Time} {serverId : Uuid} {notices : List Notice} (few : notices.length ≤ 1) :
    (notices.flatMap (notified rule serverId)).map (fun n => (n.alertRuleId, n.serverId, n.kind)) =
      ((notices.map (Entry.sent rule.id serverId now)).filterMap announcement).reverse := by
  cases notices with
  | nil => rfl
  | cons notice rest =>
    obtain rfl : rest = [] := List.eq_nil_of_length_eq_zero (Nat.le_zero.mp (Nat.le_of_succ_le_succ few))
    cases notice <;> rfl

/-- One evaluation of the system does what the job has done by itself. -/
theorem Matches.evaluateNext (h : Matches db rule (server :: servers) s)
    (done : Evaluated rule server.id s
      (handleVerdict db.now rule (evaluateCondition p db.now telemetry rule server.lastSeenAt) f
        (stateOf s.rows rule.id server.id)) s₁) :
    Matches (db.evaluateNext p telemetry f) rule servers s₁ := by
  have faults : db.faults rule.id server.id f = f := if_pos (h.linked _ List.mem_cons_self)
  have result : db.evaluation p ⟨rule, server.id, server.lastSeenAt⟩ telemetry f =
      handleVerdict db.now rule (evaluateCondition p db.now telemetry rule server.lastSeenAt) f
      (stateOf s.rows rule.id server.id) := by
    rw [AlertDb.evaluation, faults, h.states]
    rfl
  have queue : db.queue = ⟨rule, server.id, server.lastSeenAt⟩ :: servers.map fun server =>
      ⟨rule, server.id, server.lastSeenAt⟩ :=
    h.queue
  refine ⟨?_, fun other mem => ?_, fun ruleId serverId => ?_, ?_⟩
  · simp only [AlertDb.evaluateNext, queue]
  · rw [AlertDb.linked, AlertDb.rules_evaluateNext, AlertDb.servers_evaluateNext]
    exact h.linked other (List.mem_cons_of_mem _ mem)
  · rw [AlertDb.states_evaluateNext queue, result, done.rows]
    split
    · rename_i here
      rw [here.1, here.2, stateOf_withState]
    · rename_i other
      rw [stateOf_withState_of_ne other, h.states]
  · have silent : (db.evaluated p ⟨rule, server.id, server.lastSeenAt⟩ telemetry).filterMap announcement = [] := by
      unfold AlertDb.evaluated
      split <;> rfl
    rw [AlertDb.journal_evaluateNext queue, result, done.announced, List.filterMap_append,
      List.filterMap_append, silent,
      List.nil_append, List.reverse_append, List.map_append, h.announced]
    exact congrArg _ (announced_notices (length_notices handleVerdict_handled))

/-- What the job does by itself on the servers of a rule, the system does in as many evaluations. -/
theorem evaluateServers_refines {a : AlertResponse} {next : AlertHandler} (h : Matches db rule servers s)
    (keyed : Keyed s.rows)
    (alone : (AlertJob.evaluateServers p rule servers next).Alone db.now none s a s') :
    ∃ inputs : List (Option Telemetry × Faults), ∃ s₁,
      Matches (inputs.foldl (fun db input => db.evaluateNext p input.1 input.2) db) rule [] s₁ ∧ Keyed s₁.rows ∧
        next.Alone db.now none s₁ a s' := by
  induction servers generalizing db s with
  | nil => exact ⟨[], s, h, keyed, alone⟩
  | cons server servers ih =>
    obtain ⟨telemetry, f, s₁, done, alone⟩ := alone_evaluateServers keyed alone
    have now : (db.evaluateNext p telemetry f).now = db.now := by
      simp only [AlertDb.evaluateNext, h.queue, List.map_cons]
      rfl
    rw [← now] at alone
    obtain ⟨inputs, s₂, matches_, keyed₂, alone⟩ := ih (h.evaluateNext done) (done.rows ▸ keyed.withState) alone
    exact ⟨(telemetry, f) :: inputs, s₂, matches_, keyed₂, now ▸ alone⟩

end

end AlertEvaluation
end DatrixOps
