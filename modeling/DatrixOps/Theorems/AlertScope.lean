import DatrixOps.Alert.WellFormed

/-! Whether every firing row belongs to a rule that still covers its server. Moving a rule to another server
    leaves its rows behind, and so does asking the server to uninstall its agent; a worker that selected the
    server before adds new ones. Without such steps every incident of the dashboard is one that a tick
    evaluates and can resolve. -/

namespace DatrixOps
namespace AlertScope
open Postgres

/-- Firing rows are in the current scope of their rule. -/
def InScope (db : AlertDb) : Prop :=
  ∀ r s, (db.states r s).any AlertState.firing = true → ∃ rule ∈ db.rules, rule.id = r ∧ rule.inScope s = true

/-- The rule's query selects the server, and an evaluation that finds the condition gone resolves the row. -/
def Resolvable (db : AlertDb) (rule : AlertRule) (s : Server) : Prop :=
  rule.selects s = true ∧ ∀ now v, v.hasData = true → v.firing = false →
    ∃ state, (handleVerdict now rule v .none (db.states rule.id s.id)).1 = some state ∧ state.status = .ok ∧
      .resolved ∈ (handleVerdict now rule v .none (db.states rule.id s.id)).2

/-- No open incident is a phantom. -/
def NoPhantom (db : AlertDb) : Prop :=
  InScope db ∧ ∀ userId, ∀ i ∈ db.openIncidents userId, Resolvable db i.1 i.2

/-- The operations that leave no phantom: an update keeps the servers that its rule is firing on in scope, a
    rule is not switched on while it is firing on a server that is not active, no server ceases to be active
    while an enabled rule is firing on it, and an incident starts only where the rule, as it now is, applies. -/
def Careful (p : Platform) (db : AlertDb) : AlertOp → Prop
  | .updateRule ruleId userId payload =>
    ∀ set, db.acceptUpdate p userId payload = some set →
      ∀ rule ∈ db.rules, rule.id = ruleId → rule.userId = userId →
        ∀ s, (db.states ruleId s).any AlertState.firing = true → (set rule).inScope s = true
  | .toggleRule ruleId userId explicitState =>
    ∀ rule ∈ db.rules, rule.id = ruleId → rule.userId = userId → (AlertDb.toggle explicitState rule).enabled = true →
      ∀ s ∈ db.servers, (db.states ruleId s.id).any AlertState.firing = true → s.deletionStatus = .active
  | .onServers statement =>
    ∀ s ∈ db.servers, ((statement.update p db.now).row s).deletionStatus ≠ .active →
      ∀ rule ∈ db.rules, rule.enabled = true → (db.states rule.id s.id).any AlertState.firing = false
  | .evaluateNext telemetry f =>
    ∀ next rest, db.queue = next :: rest →
      startsIncident db.now next.rule (db.verdict p next telemetry) (db.faults next.rule.id next.serverId f)
          (db.states next.rule.id next.serverId) = true →
        ∀ rule ∈ db.rules, rule.id = next.rule.id → rule.inScope next.serverId = true ∧
          (rule.enabled = true → ∀ s ∈ db.servers, s.id = next.serverId → s.deletionStatus = .active)
  | _ => True

/-- No incident is open, and the worker is idle. -/
structure Calm (db : AlertDb) : Prop where
  wellFormed : db.WellFormed
  quiet : ∀ r s, (db.states r s).any AlertState.firing = false

/-! ### The invariant -/

/-- A firing row has its rule, and its server is one that the rule watches, and that its query selects while
    it is enabled. -/
def Selected (db : AlertDb) : Prop :=
  ∀ r s, (db.states r s).any AlertState.firing = true →
    ∃ rule ∈ db.rules, rule.id = r ∧ ∃ server ∈ db.servers, server.id = s ∧ rule.watches server = true ∧
      (rule.enabled = true → server.deletionStatus = .active)

/-- What is kept: the tables are well formed, and firing rows are of servers that are selected. -/
structure Inv (db : AlertDb) : Prop where
  wellFormed : db.WellFormed
  selected : Selected db

section
variable {p : Platform} {db db' : AlertDb} {rule : AlertRule} {s : Server}

theorem Calm.inv (h : Calm db) : Inv db where
  wellFormed := h.wellFormed
  selected r s hf := by
    rw [h.quiet r s] at hf
    cases hf

theorem inScope_of_watches (h : rule.watches s = true) : rule.inScope s.id = true := by
  simp only [AlertRule.watches, Bool.and_eq_true] at h
  exact h.2

theorem userId_of_watches (h : rule.watches s = true) : s.userId = rule.userId := by
  simp only [AlertRule.watches, Bool.and_eq_true, decide_eq_true_eq] at h
  exact h.1.1.1

/-- Whether a rule watches a server depends on its owner and its scope. -/
theorem watches_congr {rule' : AlertRule} (hu : rule'.userId = rule.userId) (hs : rule'.inScope s.id = true)
    (h : rule.watches s = true) : rule'.watches s = true := by
  simp only [AlertRule.watches, Bool.and_eq_true, decide_eq_true_eq] at h ⊢
  exact ⟨⟨⟨h.1.1.1.trans hu.symm, h.1.1.2⟩, h.1.2⟩, hs⟩

theorem Inv.noPhantom (h : Inv db) : NoPhantom db := by
  refine ⟨fun r s hf => ?_, fun userId i hi => ?_⟩
  · obtain ⟨rule, hr, hid, server, -, rfl, watched, -⟩ := h.selected r s hf
    exact ⟨rule, hr, hid, inScope_of_watches watched⟩
  · obtain ⟨rule, server⟩ := i
    obtain ⟨hmem, hi⟩ := List.mem_filter.mp hi
    simp only [Bool.and_eq_true, decide_eq_true_eq] at hi
    obtain ⟨hr, hserver⟩ := List.pair_mem_product.mp hmem
    obtain ⟨rule', hr', hid, server', hs', hsid, watched, active⟩ := h.selected rule.id server.id hi.1.1.2
    obtain rfl := h.wellFormed.rule_unique hr' hr hid
    obtain rfl := h.wellFormed.server_unique hs' hserver hsid
    refine ⟨selects_iff.mpr ⟨watched, active hi.1.1.1⟩, fun now v hasData unsatisfied => ?_⟩
    obtain ⟨state, hstate, fires⟩ := AlertState.any_firing.mp hi.1.1.2
    refine ⟨state.resolve now, ?_, rfl, ?_⟩
    · simp [handleVerdict, hasData, unsatisfied, hstate, handleResolved, Faults.none]
    · simp [handleVerdict, hasData, unsatisfied, hstate, handleResolved, Faults.none, AlertState.firing, fires]

/-- Operations that touch no row and keep rules and servers keep the invariant. -/
theorem Selected.mono (h : Selected db) (states : db'.states = db.states) (rules : ∀ r ∈ db.rules, r ∈ db'.rules)
    (servers : ∀ s ∈ db.servers, s ∈ db'.servers) : Selected db' := by
  intro r s hf
  rw [states] at hf
  obtain ⟨rule, hr, hid, server, hs, hsid, kept⟩ := h r s hf
  exact ⟨rule, rules rule hr, hid, server, servers server hs, hsid, kept⟩

/-! ### Every careful action keeps it -/

theorem Selected.evaluateNext {telemetry : Option Telemetry} {f : Faults} (h : Selected db) (wellFormed : db.WellFormed)
    (careful : ∀ next rest, db.queue = next :: rest →
      startsIncident db.now next.rule (db.verdict p next telemetry) (db.faults next.rule.id next.serverId f)
          (db.states next.rule.id next.serverId) = true →
        ∀ rule ∈ db.rules, rule.id = next.rule.id → rule.inScope next.serverId = true ∧
          (rule.enabled = true → ∀ s ∈ db.servers, s.id = next.serverId → s.deletionStatus = .active)) :
    Selected (db.evaluateNext p telemetry f) := by
  cases hq : db.queue with
  | nil =>
    simp only [AlertDb.evaluateNext, hq]
    exact h
  | cons next rest =>
    intro r s hf
    rw [AlertDb.states_evaluateNext hq] at hf
    rw [AlertDb.rules_evaluateNext, AlertDb.servers_evaluateNext]
    by_cases here : r = next.rule.id ∧ s = next.serverId
    · obtain ⟨rfl, rfl⟩ := here
      simp only [and_self, if_true] at hf
      rcases firing_handleVerdict hf with before | starts
      · exact h _ _ before
      · -- the foreign keys held, or the insert would have failed
        have linked : db.linked next.rule.id next.serverId = true := by
          by_contra unlinked
          simp [startsIncident, AlertDb.faults, unlinked] at starts
        simp only [AlertDb.linked, Bool.and_eq_true, List.any_eq_true, decide_eq_true_eq] at linked
        obtain ⟨⟨rule, hr, hid⟩, server, hs, hsid⟩ := linked
        have hcopy : next.rule ∈ db.copies := by simp [AlertDb.copies, hq]
        have hqueued := (wellFormed.queued next (by rw [hq]; exact List.mem_cons_self ..)).2 server hs hsid
        obtain ⟨scope, active⟩ := careful next rest hq starts rule hr hid
        rw [← hsid] at scope
        have watched := watches_congr ((wellFormed.copies _ hcopy).2 rule hr hid) scope hqueued
        exact ⟨rule, hr, hid, server, hs, hsid, watched, fun enabled => active enabled server hs hsid⟩
    · rw [if_neg here] at hf
      exact h r s hf

theorem Selected.editRule {ruleId userId : Uuid} {set : AlertRule → AlertRule} (h : Selected db)
    (keeps : AlertDb.KeepsIdentity set)
    (scope : ∀ rule ∈ db.rules, rule.id = ruleId → rule.userId = userId →
      ∀ s, (db.states ruleId s).any AlertState.firing = true → rule.inScope s = true → (set rule).inScope s = true)
    (active : ∀ rule ∈ db.rules, rule.id = ruleId → rule.userId = userId → (set rule).enabled = true →
      rule.enabled = true ∨
      ∀ s ∈ db.servers, (db.states ruleId s.id).any AlertState.firing = true → s.deletionStatus = .active) :
    Selected (db.editRule ruleId userId set) := by
  intro r s hf
  obtain ⟨rule, hr, rfl, server, hs, rfl, watched, before⟩ := h r s hf
  by_cases edited : (decide (rule.id = ruleId) && decide (rule.userId = userId)) = true
  · refine ⟨set rule, Update.mem_run_of_where hr edited, keeps.id rule, server, hs, rfl, ?_⟩
    simp only [Bool.and_eq_true, decide_eq_true_eq] at edited
    have fires : (db.states ruleId server.id).any AlertState.firing = true := by
      rw [← edited.1]
      exact hf
    refine ⟨watches_congr (keeps.userId rule)
      (scope rule hr edited.1 edited.2 _ fires (inScope_of_watches watched)) watched, fun enabled => ?_⟩
    obtain was | active := active rule hr edited.1 edited.2 enabled
    · exact before was
    · exact active server hs fires
  · exact ⟨rule, Update.mem_run_of_not_where hr (by simpa using edited), rfl, server, hs, rfl, watched, before⟩

theorem Selected.deleteRule {ruleId userId : Uuid} (h : Selected db) : Selected (db.deleteRule ruleId userId) := by
  unfold AlertDb.deleteRule
  split
  · intro r s hf
    by_cases hid : r = ruleId
    · simp [hid] at hf
    · simp only [if_neg hid] at hf
      obtain ⟨rule, hr, rfl, rest⟩ := h r s hf
      exact ⟨rule, List.mem_filter.mpr ⟨hr, by simpa using hid⟩, rfl, rest⟩
  · exact h

theorem Selected.deleteServer {serverId userId : Uuid} (h : Selected db) :
    Selected (db.deleteServer serverId userId) := by
  unfold AlertDb.deleteServer
  split
  · intro r s hf
    dsimp only at hf
    split at hf
    · simp at hf
    · rename_i kept
      simp only [Bool.or_eq_true, decide_eq_true_eq, List.any_eq_true, Bool.and_eq_true, not_or, not_exists,
        not_and] at kept
      obtain ⟨rule, hr, hid, server, hs, hsid, kept_⟩ := h r s hf
      refine ⟨rule, List.mem_filter.mpr ⟨hr, ?_⟩, hid, server, List.mem_filter.mpr ⟨hs, ?_⟩, hsid, kept_⟩
      · simpa using kept.2 rule hr hid
      · simpa [hsid] using kept.1
  · exact h

theorem Selected.onServers {statement : ServerStatement} (h : Selected db)
    (careful : ∀ s ∈ db.servers, ((statement.update p db.now).row s).deletionStatus ≠ .active →
      ∀ rule ∈ db.rules, rule.enabled = true → (db.states rule.id s.id).any AlertState.firing = false) :
    Selected (db.onServers p statement) := by
  intro r s hf
  obtain ⟨rule, hr, rfl, server, hs, rfl, watched, -⟩ := h r s hf
  obtain ⟨same, watches⟩ := statement.keeps p db.now server
  refine ⟨rule, hr, rfl, _, Update.mem_run.mpr ⟨server, hs, rfl⟩, same, watches rule watched, fun enabled => ?_⟩
  by_contra inactive
  rw [AlertDb.onServers, careful server hs inactive rule hr enabled] at hf
  cases hf

theorem Inv.perform {op : AlertOp} (h : Inv db) (careful : Careful p db op) : Inv (db.perform p op) := by
  refine ⟨h.wellFormed.perform op, ?_⟩
  cases op with
  | listEnabledRules =>
    rw [AlertDb.perform]
    exact h.selected.mono (by simp) (by simp) (by simp)
  | selectServers fails =>
    rw [AlertDb.perform]
    exact h.selected.mono (by simp) (by simp) (by simp)
  | evaluateNext telemetry faults => exact h.selected.evaluateNext h.wellFormed careful
  | abandon => exact h.selected
  | createRule userId payload =>
    rw [AlertDb.perform]
    have ext := AlertDb.createRule_extends p db userId payload
    obtain ⟨new, hrules, -⟩ := ext.rules
    refine h.selected.mono ext.states (fun r hr => ?_) fun s hs => ?_
    · rw [hrules]
      exact List.mem_append_left new hr
    · rw [ext.servers]
      exact hs
  | updateRule ruleId userId payload =>
    simp only [AlertDb.perform, AlertDb.updateRule]
    split
    · rename_i set hset
      obtain ⟨r, serverId, -, -, -, rfl⟩ := AlertDb.acceptUpdate_eq_some hset
      exact h.selected.editRule AlertDb.keepsIdentity_update (fun rule hr hid hu s hf _ =>
        careful _ hset rule hr hid hu s hf)
        fun rule _ _ _ enabled => Or.inl enabled
    · exact h.selected
  | toggleRule ruleId userId explicitState =>
    exact h.selected.editRule AlertDb.keepsIdentity_toggle (fun _ _ _ _ _ _ hs => hs)
      fun rule hr hid hu enabled => Or.inr (careful rule hr hid hu enabled)
  | deleteRule ruleId userId => exact h.selected.deleteRule
  | addServer server => exact h.selected.mono rfl (fun _ hr => hr) fun s hs => List.mem_append_left _ hs
  | deleteServer serverId userId => exact h.selected.deleteServer
  | onServers statement => exact h.selected.onServers careful

/-! ### Only careful actions do -/

/-- An open incident on a server of its rule's owner is no phantom, so the server is active. -/
theorem NoPhantom.active (h : NoPhantom db) (hr : rule ∈ db.rules) (hs : s ∈ db.servers) (same : s.userId = rule.userId)
    (enabled : rule.enabled = true) (fires : (db.states rule.id s.id).any AlertState.firing = true) :
      s.deletionStatus = .active := by
  have opened : (rule, s) ∈ db.openIncidents rule.userId := by
    refine List.mem_filter.mpr ⟨List.pair_mem_product.mpr ⟨hr, hs⟩, ?_⟩
    simp only [enabled, fires, same, decide_true, Bool.and_self]
  exact (selects_iff.mp (h.2 _ _ opened).1).2

theorem careful_of_noPhantom {op : AlertOp} (h : Inv db) (after : NoPhantom (db.perform p op)) : Careful p db op := by
  cases op with
  | updateRule ruleId userId payload =>
    intro set hset rule hr hid hu s hf
    obtain ⟨r, serverId, -, -, -, rfl⟩ := AlertDb.acceptUpdate_eq_some hset
    simp only [AlertDb.perform, AlertDb.updateRule, hset] at after
    obtain ⟨rule', hr', hid', scope⟩ := after.1 ruleId s hf
    -- the rule of that identifier is the edited one
    rcases Update.mem_run_cases hr' with ⟨hold, hno⟩ | ⟨old, hold, -, rfl⟩
    · obtain rfl := h.wellFormed.rule_unique hold hr (hid'.trans hid.symm)
      simp [hid, hu] at hno
    · obtain rfl := h.wellFormed.rule_unique hold hr (hid'.trans hid.symm)
      exact scope
  | evaluateNext telemetry faults =>
    intro next rest hq starts rule hr hid
    rw [AlertDb.perform] at after
    have fires : ((db.evaluateNext p telemetry faults).states next.rule.id next.serverId).any AlertState.firing =
        true := by
      rw [AlertDb.states_evaluateNext hq, if_pos ⟨rfl, rfl⟩, AlertDb.evaluation, handleVerdict_of_starts starts]
      simp [AlertState.firing]
    obtain ⟨rule', hr', hid', scope⟩ := after.1 next.rule.id next.serverId fires
    rw [AlertDb.rules_evaluateNext] at hr'
    obtain rfl := h.wellFormed.rule_unique hr' hr (hid'.trans hid.symm)
    refine ⟨scope, fun enabled s hs hsid => ?_⟩
    have queued := (h.wellFormed.queued next (by rw [hq]; exact List.mem_cons_self ..)).2 s hs hsid
    have owner := (h.wellFormed.copies next.rule (by simp [AlertDb.copies, hq])).2 rule' hr hid
    refine after.active ?_ ?_ ((userId_of_watches queued).trans owner.symm) enabled ?_
    · rw [AlertDb.rules_evaluateNext]
      exact hr
    · rw [AlertDb.servers_evaluateNext]
      exact hs
    · rw [hid, hsid]
      exact fires
  | toggleRule ruleId userId explicitState =>
    intro rule hr hid hu enabled s hs fires
    obtain ⟨rule', hr', hid', server, hs', hsid, watched, -⟩ := h.selected ruleId s.id fires
    obtain rfl := h.wellFormed.rule_unique hr' hr (hid'.trans hid.symm)
    obtain rfl := h.wellFormed.server_unique hs' hs hsid
    have edited : AlertDb.toggle explicitState rule' ∈ (db.perform p (.toggleRule ruleId userId explicitState)).rules :=
      Update.mem_run_of_where hr (by simp [hid, hu])
    refine after.active edited hs (userId_of_watches watched) enabled ?_
    rw [show (AlertDb.toggle explicitState rule').id = ruleId from hid]
    exact fires
  | onServers statement =>
    intro s hs inactive rule hr enabled
    by_contra fires
    rw [Bool.not_eq_false] at fires
    obtain ⟨rule', hr', hid, server, hs', hsid, watched, -⟩ := h.selected rule.id s.id fires
    obtain rfl := h.wellFormed.rule_unique hr' hr hid
    obtain rfl := h.wellFormed.server_unique hs' hs hsid
    obtain ⟨same, watches⟩ := statement.keeps p db.now server
    refine inactive (after.active hr (Update.mem_run.mpr ⟨server, hs, rfl⟩)
      (userId_of_watches (watches _ watched)) enabled ?_)
    rw [same]
    exact fires
  | _ => trivial

end

theorem Inv.await {db : AlertDb} (h : Inv db) (a : AlertAction) : Inv (db.await a) := ⟨h.wellFormed.await a, h.selected⟩

/-- No run leaves a phantom incident exactly when its actions are careful. -/
theorem noPhantom_iff_careful {p : Platform} {db : AlertDb} (h : Calm db) (run : List AlertAction) :
    (alertMachine p).Always NoPhantom db run ↔
      (alertMachine p).Each (fun db a => Careful p (db.await a) a.op) db run :=
  Machine.always_iff_each (fun _ => Inv.noPhantom) (fun _ a hI careful => (hI.await a).perform careful)
    (fun _ a hI after => careful_of_noPhantom (hI.await a) after) h.inv

/-! ### A rule that moves while it fires -/

/-- Two servers of user 7 and a channel. -/
def twoServers : AlertDb where
  now := 0
  rules := []
  servers := [linuxServer, { linuxServer with id := 2, name := "web-2" }]
  channels := [⟨"mail", 7, true⟩]
  states := fun _ _ => none
  nextId := 3
  loaded := []
  queue := []
  journal := []

/-- A rule on the status of one server. -/
def statusOf (serverId : String) : RulePayload where
  name := "down"
  metric := "status"
  operator := ""
  threshold := 0
  durationMinutes := 1
  repeatIntervalMinutes := 0
  targetName := none
  serverId := some serverId
  serverIds := []
  channelIds := ["mail"]

/-- The rule on server 1 is created and fires. -/
def incident : List AlertAction :=
  [⟨0, .createRule 7 (statusOf "1")⟩, ⟨60000000, .listEnabledRules⟩, ⟨0, .selectServers false⟩,
    ⟨0, .evaluateNext none .none⟩]

theorem twoServers_calm : Calm twoServers where
  wellFormed :=
    { ruleIds := by decide
      serverIds := by decide
      rulesOld := by decide
      serversOld := by decide
      copies := fun _ h => (by cases h)
      queued := fun _ h => (by cases h) }
  quiet _ _ := rfl

/-- The server is heard from again, so the next tick resolves the incident; then its uninstall is requested. -/
def recovery : List AlertAction :=
  [⟨30000000, .onServers (.markOnline ⟨"agent-token", "1.5.0", [], ""⟩)⟩, ⟨0, .listEnabledRules⟩,
    ⟨0, .selectServers false⟩,
    ⟨0, .evaluateNext none .none⟩, ⟨0, .onServers (.markDeletionPending 1 7 "token-hash")⟩]

theorem noPhantom_iff_careful_twoServers :
    (alertMachine plainPlatform).Always NoPhantom twoServers (incident ++ recovery) ∧
    ((alertMachine plainPlatform).exec twoServers (incident ++ recovery)).notifications.length = 2 := by
  refine ⟨(noPhantom_iff_careful twoServers_calm _).mpr ?_, by decide⟩
  refine ⟨trivial, trivial, trivial, ?_, ?_, trivial, trivial, ?_, ?_, trivial⟩
  · intro next rest hq _
    obtain ⟨rfl, -⟩ := List.cons.inj hq
    decide
  · dsimp only [Careful]
    decide
  · intro next rest hq starts
    obtain ⟨rfl, -⟩ := List.cons.inj hq
    exact absurd starts (by decide)
  · dsimp only [Careful]
    decide

/-- Moved to server 2, it leaves server 1 firing outside its scope. -/
theorem phantom_after_move : Calm twoServers ∧
    ¬(alertMachine plainPlatform).Always NoPhantom twoServers (incident ++ [⟨0, .updateRule 3 7 (statusOf "2")⟩]) := by
  refine ⟨twoServers_calm, fun h => ?_⟩
  obtain ⟨rule, hr, hid, scope⟩ := h.last.1 3 1 (by decide)
  revert rule
  decide

/-- Asked to uninstall its agent while the rule is firing on it, server 1 is not evaluated any more, and stays
among the incidents. -/
theorem phantom_after_uninstall : Calm twoServers ∧ ¬(alertMachine plainPlatform).Always NoPhantom twoServers
    (incident ++ [⟨0, .onServers (.markDeletionPending 1 7 "token-hash")⟩,
      ⟨900000000, .onServers (.failStaleServers [1])⟩]) := by
  refine ⟨twoServers_calm, fun h => ?_⟩
  have active := fun rule hr s hs => @NoPhantom.active _ rule s h.last hr hs
  revert active
  decide

end AlertScope
end DatrixOps
