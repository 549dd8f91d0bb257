import DatrixOps.Alert.WellFormed

/-! When an incident of a rule with a duration starts. The timer of a rule and a server starts at the first
    evaluation that finds the condition satisfied, and an evaluation that does not resets it. An edit or a
    toggle of the rule does not: so it may not come while a timer runs, nor while the worker holds a copy of
    the rule. -/

namespace DatrixOps
namespace AlertDuration
open Postgres

/-- A timer: the row is not firing and the condition has a start. -/
def timer (state : Option AlertState) : Option Time :=
  state.bind fun s => if s.status = .firing then none else s.conditionStartedAt

/-- The law for an incident that `rule` starts on `server` now: for its duration the rule has been enabled and its
    definition unchanged, and the evaluations found the condition satisfied, one of them before that. -/
structure Law (rule : AlertRule) (server : Uuid) (now : Time) (journal : List Entry) : Prop where
  enabled : rule.enabled = true
  unchanged : ∀ t, .redefined rule.id t ∈ journal → t < now - rule.durationMinutes * minute
  satisfied : ∀ t firing, .evaluated rule.id server t firing ∈ journal → now - rule.durationMinutes * minute ≤ t →
    firing = true
  since : ∃ t, t ≤ now - rule.durationMinutes * minute ∧ .evaluated rule.id server t true ∈ journal

/-- An evaluation that starts an incident obeys the law. -/
def ObeysLaw (p : Platform) (db : AlertDb) : AlertOp → Prop
  | .evaluateNext telemetry f =>
    ∀ next rest, db.queue = next :: rest →
      startsIncident db.now next.rule (db.verdict p next telemetry) (db.faults next.rule.id next.serverId f)
          (db.states next.rule.id next.serverId) = true →
        ∀ rule ∈ db.rules, rule.id = next.rule.id → rule.immediate = false → rule.durationMinutes > 0 →
          Law rule next.serverId db.now (db.evaluated p next telemetry ++ db.journal)
  | _ => True

/-- No timer of the rule runs, and the worker holds no copy of it. -/
def Untimed (db : AlertDb) (ruleId : Uuid) : Prop :=
  (∀ s, timer (db.states ruleId s) = none) ∧ ∀ c ∈ db.copies, c.id ≠ ruleId

/-- An edit changes what the rule watches, or suspends it, only while nothing is timed, and its duration only
    while the worker holds no copy. -/
def CarefulEdit (db : AlertDb) (ruleId userId : Uuid) (set : AlertRule → AlertRule) : Prop :=
  ∀ rule ∈ db.rules, rule.id = ruleId → rule.userId = userId →
    ((set rule).definition ≠ rule.definition ∨ (set rule).enabled ≠ rule.enabled → Untimed db ruleId) ∧
    ((set rule).durationMinutes ≠ rule.durationMinutes → ∀ c ∈ db.copies, c.id ≠ ruleId)

/-- The actions that keep timers true: edits that are careful, and evaluations whose reset of a running
    timer does not fail. -/
def Careful (p : Platform) (db : AlertDb) : AlertOp → Prop
  | .updateRule ruleId userId payload =>
    ∀ set, db.acceptUpdate p userId payload = some set → CarefulEdit db ruleId userId set
  | .toggleRule ruleId userId explicitState => CarefulEdit db ruleId userId (AlertDb.toggle explicitState)
  -- the reset of a running timer does not fail
  | .evaluateNext telemetry f =>
    ∀ next rest, db.queue = next :: rest → (db.verdict p next telemetry).hasData = true →
      (db.verdict p next telemetry).firing = false →
        (timer (db.states next.rule.id next.serverId)).isSome = true → f.resolve = false
  | _ => True

/-- No timer runs, and the worker is idle. -/
structure Start (db : AlertDb) : Prop where
  wellFormed : db.WellFormed
  untimed : ∀ r s, timer (db.states r s) = none
  idle : db.loaded = [] ∧ db.queue = []
  past : ∀ e ∈ db.journal, e.time ≤ db.now

/-! ### The invariant -/

/-- A running timer started with an evaluation, and since then no evaluation went the other way and the rule was
    not changed. -/
def Timed (r s : Uuid) (startedAt : Time) (journal : List Entry) : Prop :=
  ∃ newer older, journal = newer ++ .evaluated r s startedAt true :: older ∧
    (∀ t, .evaluated r s t false ∉ newer ∧ .redefined r t ∉ newer) ∧ ∀ e ∈ older, e.time < startedAt

/-- Running timers are true, and the copies of a rule watch what the rule does, for as long, while it is
    enabled. -/
structure Inv (db : AlertDb) : Prop where
  wellFormed : db.WellFormed
  past : ∀ e ∈ db.journal, e.time ≤ db.now
  timed : ∀ r s startedAt, timer (db.states r s) = some startedAt → Timed r s startedAt db.journal
  copies : ∀ c ∈ db.copies, ∀ rule ∈ db.rules, rule.id = c.id →
    c.definition = rule.definition ∧ c.durationMinutes = rule.durationMinutes ∧ rule.enabled = true

section
variable {p : Platform} {db db' : AlertDb} {r s : Uuid} {now startedAt : Time} {journal entries : List Entry}

theorem timer_eq_some {state : Option AlertState} : timer state = some startedAt ↔
    ∃ row, state = some row ∧ row.status ≠ .firing ∧ row.conditionStartedAt = some startedAt := by
  cases state with
  | none => simp [timer]
  | some row =>
    by_cases h : row.status = .firing
    · simp [timer, h]
    · simp [timer, h]

theorem Timed.append (h : Timed r s startedAt journal)
    (new : ∀ t, .evaluated r s t false ∉ entries ∧ .redefined r t ∉ entries) :
      Timed r s startedAt (entries ++ journal) := by
  obtain ⟨newer, older, rfl, hnewer, holder⟩ := h
  refine ⟨entries ++ newer, older, (List.append_assoc ..).symm, fun t => ⟨fun h => ?_, fun h => ?_⟩, holder⟩
  · rcases List.mem_append.mp h with h | h
    · exact (new t).1 h
    · exact (hnewer t).1 h
  · rcases List.mem_append.mp h with h | h
    · exact (new t).2 h
    · exact (hnewer t).2 h

/-- The timer law: an incident that a timed row starts after the rule's duration. -/
theorem Timed.law {rule : AlertRule} {server : Uuid} (h : Timed rule.id server startedAt journal)
    (enabled : rule.enabled = true) (long : startedAt + rule.durationMinutes * minute ≤ now) :
    Law rule server now journal := by
  obtain ⟨newer, older, rfl, hnewer, holder⟩ := h
  have before : startedAt ≤ now - rule.durationMinutes * minute := Int.le_sub_right_of_add_le long
  refine ⟨enabled, fun t ht => ?_, fun t firing ht hlate => ?_, startedAt, before, by simp⟩
  · simp only [List.mem_append, List.mem_cons, reduceCtorEq, false_or] at ht
    rcases ht with ht | ht
    · exact absurd ht (hnewer t).2
    · exact lt_of_lt_of_le (holder _ ht) before
  · simp only [List.mem_append, List.mem_cons, Entry.evaluated.injEq, true_and] at ht
    rcases ht with ht | ⟨-, rfl⟩ | ht
    · cases firing with
      | true => rfl
      | false => exact absurd ht (hnewer t).1
    · rfl
    · exact absurd (lt_of_lt_of_le (holder _ ht) before) (not_lt.mpr hlate)

theorem Start.inv (h : Start db) : Inv db where
  wellFormed := h.wellFormed
  past := h.past
  timed r s startedAt ht := by
    rw [h.untimed r s] at ht
    cases ht
  copies c hc := by
    rw [AlertDb.copies, h.idle.1, h.idle.2] at hc
    cases hc

/-! ### Evaluations -/

/-- A satisfied evaluation of a row: its timer runs on from before, or starts now. -/
theorem timed_observe {next : Pending} {telemetry : Option Telemetry} (h : Inv db)
    (before : ∀ e ∈ db.journal, e.time < db.now)
    (satisfied : (db.verdict p next telemetry).hasData = true ∧ (db.verdict p next telemetry).firing = true)
    (ht : timer (some (.observe db.now (db.states next.rule.id next.serverId))) = some startedAt) :
    Timed next.rule.id next.serverId startedAt (db.evaluated p next telemetry ++ db.journal) := by
  obtain ⟨row, hrow, idle, hstart⟩ := timer_eq_some.mp ht
  obtain rfl := Option.some.inj hrow
  have entry : db.evaluated p next telemetry = [.evaluated next.rule.id next.serverId db.now true] := by
    simp [AlertDb.evaluated, satisfied]
  rw [entry]
  cases hold : timer (db.states next.rule.id next.serverId) with
  | some startedBefore =>
    obtain ⟨old, holdrow, -, hcond⟩ := timer_eq_some.mp hold
    rw [holdrow] at hstart
    simp only [AlertState.observe, hcond, Option.getD_some, Option.some.injEq] at hstart
    subst hstart
    exact (h.timed _ _ _ hold).append fun t => by simp
  | none =>
    have fresh : db.now = startedAt := by
      cases hstate : db.states next.rule.id next.serverId with
      | none =>
        rw [hstate] at hstart
        exact Option.some.inj hstart
      | some old =>
        rw [hstate] at hstart idle hold
        have notFiring : old.status ≠ .firing := fun fires => idle (AlertState.observe_firing.mpr ⟨old, rfl, fires⟩)
        have unset : old.conditionStartedAt = none := by simpa [timer, notFiring] using hold
        simpa [AlertState.observe, unset] using hstart
    subst fresh
    exact ⟨[], db.journal, rfl, fun t => by simp, before⟩

/-- The timer of an evaluated row is one that `Timed` explains. -/
theorem timer_evaluation {next : Pending} {rest : List Pending} {telemetry : Option Telemetry} {f : Faults} (h : Inv db)
    (before : ∀ e ∈ db.journal, e.time < db.now) (careful : Careful p db (.evaluateNext telemetry f))
    (hq : db.queue = next :: rest) (ht : timer (db.evaluation p next telemetry f).1 = some startedAt) :
    Timed next.rule.id next.serverId startedAt ((db.evaluation p next telemetry f).2.map
      (.sent next.rule.id next.serverId db.now) ++ (db.evaluated p next telemetry ++ db.journal)) := by
  have resolve : (db.faults next.rule.id next.serverId f).resolve = f.resolve := by
    unfold AlertDb.faults
    split <;> rfl
  have handled := AlertDb.handled_evaluation p db next telemetry f
  generalize (db.evaluation p next telemetry f).2 = notices at handled
  generalize (db.evaluation p next telemetry f).1 = state at handled ht
  have quiet : ∀ t, Entry.evaluated next.rule.id next.serverId t false ∉
        notices.map (Entry.sent next.rule.id next.serverId db.now) ∧
      Entry.redefined next.rule.id t ∉ notices.map (Entry.sent next.rule.id next.serverId db.now) := by
    intro t
    simp
  cases handled with
  | skipped why =>
    refine Timed.append ?_ quiet
    by_cases hasData : (db.verdict p next telemetry).hasData = true
    · refine (h.timed _ _ _ ht).append fun t => ?_
      -- an unsatisfied condition would have reset the timer
      have satisfied : (db.verdict p next telemetry).firing = true := by
        rcases why with why | ⟨why, -⟩ | ⟨unsatisfied, why⟩
        · rw [hasData] at why
          cases why
        · exact why
        · rcases why with gone | failed
          · rw [gone] at ht
            cases ht
          · rw [resolve, careful next rest hq hasData unsatisfied (by rw [ht]; rfl)] at failed
            cases failed
      simp [AlertDb.evaluated, hasData, satisfied]
    · simpa [AlertDb.evaluated, hasData] using h.timed _ _ _ ht
  | observed satisfied written => exact (timed_observe h before satisfied ht).append quiet
  | started satisfied written idle long =>
    obtain ⟨row, hrow, idle, -⟩ := timer_eq_some.mp ht
    obtain rfl := Option.some.inj hrow
    exact absurd rfl idle
  | reminded old was satisfied fires read repeats due =>
    obtain ⟨row, hrow, idle, -⟩ := timer_eq_some.mp ht
    obtain rfl := Option.some.inj hrow
    have stays : (AlertState.observe db.now (some old)).status = .firing :=
      AlertState.observe_firing.mpr ⟨old, rfl, fires⟩
    rw [was] at idle
    split at idle
    · exact absurd stays idle
    · exact absurd stays idle
  | resolved old was unsatisfied written =>
    obtain ⟨row, hrow, -, hstart⟩ := timer_eq_some.mp ht
    obtain rfl := Option.some.inj hrow
    cases hstart

theorem Inv.evaluateNext {telemetry : Option Telemetry} {f : Faults} (h : Inv db)
    (before : ∀ e ∈ db.journal, e.time < db.now) (careful : Careful p db (.evaluateNext telemetry f)) :
    Inv (db.evaluateNext p telemetry f) := by
  cases hq : db.queue with
  | nil =>
    simp only [AlertDb.evaluateNext, hq]
    exact h
  | cons next rest =>
    refine ⟨h.wellFormed.evaluateNext telemetry f, fun e he => ?_, fun r s startedAt ht => ?_, fun c hc rule hr => ?_⟩
    · have sameNow : (db.evaluateNext p telemetry f).now = db.now := by
        simp only [AlertDb.evaluateNext, hq]
        rfl
      rw [sameNow]
      rw [AlertDb.journal_evaluateNext hq] at he
      rcases List.mem_append.mp he with he | he
      · obtain ⟨notice, -, rfl⟩ := List.mem_map.mp he
        exact le_refl _
      rcases List.mem_append.mp he with he | he
      · unfold AlertDb.evaluated at he
        split at he
        · rw [List.mem_singleton.mp he]
          exact le_refl _
        · cases he
      · exact h.past e he
    · rw [AlertDb.journal_evaluateNext hq]
      rw [AlertDb.states_evaluateNext hq] at ht
      by_cases here : r = next.rule.id ∧ s = next.serverId
      · obtain ⟨rfl, rfl⟩ := here
        simp only [and_self, if_true] at ht
        exact timer_evaluation h before careful hq ht
      · rw [if_neg here] at ht
        refine ((h.timed r s startedAt ht).append fun t => ?_).append fun t => by simp
        unfold AlertDb.evaluated
        split
        · simp only [List.mem_singleton, Entry.evaluated.injEq, reduceCtorEq, not_false_eq_true, and_true]
          exact fun h => here ⟨h.1, h.2.1⟩
        · simp
    · rw [AlertDb.rules_evaluateNext] at hr
      exact h.copies c (AlertDb.mem_copies_evaluateNext hc) rule hr

/-! ### The other operations -/

/-- An operation that adds nothing to the journal and starts no timer. -/
theorem Inv.mono (h : Inv db) (wellFormed : db'.WellFormed) (now : db.now ≤ db'.now)
    (journal : db'.journal = db.journal)
    (states : ∀ r s startedAt, timer (db'.states r s) = some startedAt → timer (db.states r s) = some startedAt)
    (copies : ∀ c ∈ db'.copies, ∀ rule ∈ db'.rules, rule.id = c.id →
      c.definition = rule.definition ∧ c.durationMinutes = rule.durationMinutes ∧ rule.enabled = true) : Inv db' where
  wellFormed := wellFormed
  past e he := by
    rw [journal] at he
    exact le_trans (h.past e he) now
  timed r s startedAt ht := by
    rw [journal]
    exact h.timed r s startedAt (states r s startedAt ht)
  copies := copies

theorem now_lt_await (a : AlertAction) : db.now < (db.await a).now :=
  Int.lt_add_one_of_le (Int.le_add_of_nonneg_right (Int.natCast_nonneg _))

theorem Inv.await (h : Inv db) (a : AlertAction) : Inv (db.await a) :=
  h.mono (h.wellFormed.await a) (le_of_lt (now_lt_await a)) rfl (fun _ _ _ ht => ht) h.copies

theorem Inv.before_await (h : Inv db) (a : AlertAction) : ∀ e ∈ (db.await a).journal, e.time < (db.await a).now := by
  exact fun e he => lt_of_le_of_lt (h.past e he) (now_lt_await a)

theorem Inv.listEnabledRules (h : Inv db) : Inv db.listEnabledRules := by
  have now : db.now = db.listEnabledRules.now := by
    unfold AlertDb.listEnabledRules
    split <;> rfl
  refine h.mono h.wellFormed.listEnabledRules (le_of_eq now) (by simp) (by simp) fun c hc rule hr hid => ?_
  rw [AlertDb.rules_listEnabledRules] at hr
  rcases AlertDb.mem_copies_listEnabledRules hc with hc | ⟨hc, enabled⟩
  · exact h.copies c hc rule hr hid
  · obtain rfl := h.wellFormed.rule_unique hr hc hid
    exact ⟨rfl, rfl, enabled⟩

theorem Inv.selectServers (h : Inv db) (fails : Bool) : Inv (db.selectServers fails) := by
  have now : db.now = (db.selectServers fails).now := by
    unfold AlertDb.selectServers
    split <;> rfl
  refine h.mono (h.wellFormed.selectServers fails) (le_of_eq now) (by simp) (by simp) fun c hc rule hr hid => ?_
  rw [AlertDb.rules_selectServers] at hr
  exact h.copies c (AlertDb.mem_copies_selectServers hc) rule hr hid

theorem Inv.createRule (h : Inv db) (userId : Uuid) (payload : RulePayload) : Inv (db.createRule p userId payload) := by
  obtain ⟨hnow, -, hstates, hloaded, hqueue, hjournal, -, new, hrules, hnew⟩ :=
    AlertDb.createRule_extends p db userId payload
  have sameCopies : (db.createRule p userId payload).copies = db.copies := by
    rw [AlertDb.copies, hloaded, hqueue, AlertDb.copies]
  refine h.mono (h.wellFormed.createRule userId payload) (le_of_eq hnow.symm) hjournal (fun r s startedAt ht => ?_)
    fun c hc rule hr hid => ?_
  · rwa [hstates] at ht
  · rw [sameCopies] at hc
    rw [hrules] at hr
    rcases List.mem_append.mp hr with hr | hr
    · exact h.copies c hc rule hr hid
    · exact absurd hid (Nat.ne_of_gt (lt_of_lt_of_le (h.wellFormed.copies c hc).1 (hnew rule hr).1))

theorem Inv.deleteRule (h : Inv db) (ruleId userId : Uuid) : Inv (db.deleteRule ruleId userId) := by
  have wellFormed := h.wellFormed.deleteRule ruleId userId
  unfold AlertDb.deleteRule at wellFormed ⊢
  split
  · rename_i found
    rw [if_pos found] at wellFormed
    refine h.mono wellFormed (le_refl _) rfl (fun r s startedAt ht => ?_)
      fun c hc rule hr => h.copies c hc rule (List.mem_filter.mp hr).1
    dsimp only at ht
    split at ht
    · cases ht
    · exact ht
  · exact h

theorem Inv.deleteServer (h : Inv db) (serverId userId : Uuid) : Inv (db.deleteServer serverId userId) := by
  have wellFormed := h.wellFormed.deleteServer serverId userId
  unfold AlertDb.deleteServer at wellFormed ⊢
  split
  · rename_i found
    rw [if_pos found] at wellFormed
    refine h.mono wellFormed (le_refl _) rfl (fun r s startedAt ht => ?_)
      fun c hc rule hr => h.copies c hc rule (List.mem_filter.mp hr).1
    dsimp only at ht
    split at ht
    · cases ht
    · exact ht
  · exact h

/-- A careful edit keeps the invariant: what it redefines is neither timed nor copied. -/
theorem Inv.editRule {ruleId userId : Uuid} {set : AlertRule → AlertRule} (h : Inv db)
    (keeps : AlertDb.KeepsIdentity set) (careful : CarefulEdit db ruleId userId set) :
      Inv (db.editRule ruleId userId set) := by
  have entries : ∃ entries, (db.editRule ruleId userId set).journal = entries ++ db.journal ∧
      (∀ e ∈ entries, e = .redefined ruleId db.now) ∧ (entries ≠ [] → Untimed db ruleId) := by
    by_cases hany : (db.rules.any fun r => (decide (r.id = ruleId) && decide (r.userId = userId)) &&
        (decide ((set r).definition ≠ r.definition) || decide ((set r).enabled ≠ r.enabled))) = true
    · refine ⟨[.redefined ruleId db.now], if_pos hany, by simp, fun _ => ?_⟩
      obtain ⟨rule, hr, hedit⟩ := List.any_eq_true.mp hany
      simp only [Bool.and_eq_true, Bool.or_eq_true, decide_eq_true_eq] at hedit
      exact (careful rule hr hedit.1.1 hedit.1.2).1 hedit.2
    · exact ⟨[], if_neg hany, by simp, fun h => absurd rfl h⟩
  obtain ⟨entries, hjournal, hentries, huntimed⟩ := entries
  refine ⟨h.wellFormed.editRule keeps, fun e he => ?_, fun r s startedAt ht => ?_, fun c hc rule hr hid => ?_⟩
  · rw [hjournal] at he
    rcases List.mem_append.mp he with he | he
    · rw [hentries e he]
      exact le_refl _
    · exact h.past e he
  · rw [hjournal]
    refine (h.timed r s startedAt ht).append fun t => ⟨fun he => (by cases hentries _ he), fun he => ?_⟩
    obtain ⟨rfl, -⟩ := Entry.redefined.inj (hentries _ he)
    have untimed := (huntimed (List.ne_nil_of_mem he)).1 s
    rw [show timer (db.states r s) = some startedAt from ht] at untimed
    cases untimed
  · rcases Update.mem_run_cases hr with ⟨hr, -⟩ | ⟨old, hold, edited, rfl⟩
    · exact h.copies c hc rule hr hid
    · simp only [Bool.and_eq_true, decide_eq_true_eq] at edited
      rw [keeps.id] at hid
      obtain ⟨redefines, retimes⟩ := careful old hold edited.1 edited.2
      obtain ⟨definition, duration, enabled⟩ := h.copies c hc old hold hid
      have copied : c.id = ruleId := hid.symm.trans edited.1
      refine ⟨definition.trans ?_, duration.trans ?_, ?_⟩
      · by_contra changed
        exact (redefines (Or.inl fun h => changed h.symm)).2 c hc copied
      · by_contra changed
        exact retimes (fun h => changed h.symm) c hc copied
      · rw [← enabled]
        by_contra changed
        exact (redefines (Or.inr changed)).2 c hc copied

theorem Inv.perform {op : AlertOp} (h : Inv db) (before : ∀ e ∈ db.journal, e.time < db.now)
    (careful : Careful p db op) :
    Inv (db.perform p op) := by
  cases op with
  | listEnabledRules => exact h.listEnabledRules
  | selectServers fails => exact h.selectServers fails
  | evaluateNext telemetry faults => exact h.evaluateNext before careful
  | abandon =>
    exact h.mono h.wellFormed.abandon (le_refl _) rfl (fun _ _ _ ht => ht) fun _ hc => (by cases hc)
  | createRule userId payload =>
    rw [AlertDb.perform]
    exact h.createRule userId payload
  | updateRule ruleId userId payload =>
    rw [AlertDb.perform, AlertDb.updateRule]
    split
    · rename_i set hset
      obtain ⟨r, serverId, -, -, -, rfl⟩ := AlertDb.acceptUpdate_eq_some hset
      exact h.editRule AlertDb.keepsIdentity_update (careful _ hset)
    · exact h
  | toggleRule ruleId userId explicitState => exact h.editRule AlertDb.keepsIdentity_toggle careful
  | deleteRule ruleId userId => exact h.deleteRule ruleId userId
  | addServer server =>
    exact h.mono (h.wellFormed.addServer server) (le_refl _) rfl (fun _ _ _ ht => ht) h.copies
  | deleteServer serverId userId => exact h.deleteServer serverId userId
  | onServers statement => exact h.mono (h.wellFormed.onServers statement) (le_refl _) rfl (fun _ _ _ ht => ht) h.copies

/-! ### The law -/

/-- An incident starts on a row whose timer has run for the rule's duration. -/
theorem Inv.obeysLaw {op : AlertOp} (h : Inv db) (before : ∀ e ∈ db.journal, e.time < db.now)
    (careful : Careful p db op) :
    ObeysLaw p db op := by
  cases op with
  | evaluateNext telemetry f =>
    intro next rest hq starts rule hr hid slow lasting
    simp only [startsIncident, Bool.and_eq_true, Bool.not_eq_true'] at starts
    obtain ⟨⟨⟨⟨⟨hasData, firing⟩, -⟩, -⟩, long⟩, idle⟩ := starts
    obtain ⟨definition, duration, enabled⟩ := h.copies next.rule (by simp [AlertDb.copies, hq]) rule hr hid
    have notFiring : (AlertState.observe db.now (db.states next.rule.id next.serverId)).status ≠ .firing :=
        fun fires => by
      rw [AlertState.any_firing.mpr (AlertState.observe_firing.mp fires)] at idle
      cases idle
    have metric : next.rule.metric = rule.metric := congrArg Prod.fst definition
    have sameSlow : next.rule.immediate = false := by rwa [AlertRule.immediate, metric, ← AlertRule.immediate]
    obtain ⟨startedAt, hstart⟩ : ∃ startedAt, (AlertState.observe db.now (db.states next.rule.id
        next.serverId)).conditionStartedAt = some startedAt := by
      cases db.states next.rule.id next.serverId <;> exact ⟨_, rfl⟩
    have ran : startedAt + rule.durationMinutes * minute ≤ db.now := by
      simpa [satisfiedLongEnough, AlertState.firing, notFiring, sameSlow, hstart, duration] using long
    have timed := timed_observe h before ⟨hasData, firing⟩ (timer_eq_some.mpr ⟨_, rfl, notFiring, hstart⟩)
    rw [← hid] at timed
    exact timed.law enabled ran
  | _ => trivial

/-- In every run whose edits and toggles come while the rule is neither timed nor being evaluated, and whose resets
    do not fail, every incident obeys the duration law. -/
theorem obeysLaw_of_careful {run : List AlertAction} (h : Start db)
    (careful : (alertMachine p).Each (fun db a => Careful p (db.await a) a.op) db run) :
    (alertMachine p).Each (fun db a => ObeysLaw p (db.await a) a.op) db run :=
  careful.imp (fun _ a h careful => (h.await a).perform (h.before_await a) careful)
    (fun _ a h careful => (h.await a).obeysLaw (h.before_await a) careful) h.inv

end

/-! ### A rule switched off and on again while its timer runs -/

/-- A rule of user 7 on the CPU of its servers, to hold for 5 minutes. -/
def cpuRule : AlertRule where
  id := 3
  userId := 7
  name := "cpu"
  metric := "cpu"
  operator := ">"
  threshold := 90
  durationMinutes := 5
  repeatIntervalMinutes := 0
  targetName := none
  serverId := none
  enabled := true

/-- One rule on the CPU of one server. -/
def busyServer : AlertDb where
  now := 0
  rules := [cpuRule]
  servers := [linuxServer]
  channels := []
  states := fun _ _ => none
  nextId := 4
  loaded := []
  queue := []
  journal := []

theorem busyServer_start : Start busyServer where
  wellFormed :=
    { ruleIds := by decide
      serverIds := by decide
      rulesOld := by decide
      serversOld := by decide
      copies := fun _ h => (by cases h)
      queued := fun _ h => (by cases h) }
  untimed _ _ := rfl
  idle := ⟨rfl, rfl⟩
  past _ h := by cases h

/-- The CPU of the server at 95 percent. -/
def busy : Telemetry where
  report := none
  metrics := [⟨95, 0, 0, 0⟩]
  networkTargets := []
  websites := []

/-- A run of the job up to its first server, `elapsed` microseconds after the last action. -/
def load (elapsed : Nat) : List AlertAction := [⟨elapsed, .listEnabledRules⟩, ⟨0, .selectServers false⟩]

/-- An evaluation that finds the CPU busy. -/
def evaluateBusy : AlertAction := ⟨0, .evaluateNext (some busy) .none⟩

theorem obeysLaw_of_careful_busyServer : (alertMachine plainPlatform).Each
    (fun db a => ObeysLaw plainPlatform (db.await a) a.op) busyServer
    (load 0 ++ evaluateBusy :: load 300000000 ++ [evaluateBusy]) := by
  refine obeysLaw_of_careful busyServer_start ?_
  refine ⟨trivial, trivial, ?_, trivial, trivial, ?_, trivial⟩
  · intro next rest hq _ unsatisfied
    obtain ⟨rfl, -⟩ := List.cons.inj hq
    exact absurd unsatisfied (by decide)
  · intro next rest hq _ unsatisfied
    obtain ⟨rfl, -⟩ := List.cons.inj hq
    exact absurd unsatisfied (by decide)

/-- An evaluation starts the timer; the rule is off from the first minute to the tenth; then the next evaluation
    announces the incident. -/
def suspended : List AlertAction :=
  load 0 ++ evaluateBusy :: ⟨60000000, .toggleRule 3 7 (some false)⟩ ::
    ⟨540000000, .toggleRule 3 7 (some true)⟩ :: load 0

theorem incident_after_suspension : Start busyServer ∧ ¬(alertMachine plainPlatform).Each
    (fun db a => ObeysLaw plainPlatform (db.await a) a.op) busyServer (suspended ++ [evaluateBusy]) := by
  refine ⟨busyServer_start, fun h => ?_⟩
  have law := h.last ⟨cpuRule, 1, some 0⟩ [] rfl (by decide) cpuRule (by decide) rfl (by decide) (by decide)
  have late := law.unchanged 600000005 (by decide)
  revert late
  decide

end AlertDuration
end DatrixOps
