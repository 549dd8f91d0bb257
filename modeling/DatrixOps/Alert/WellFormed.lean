import DatrixOps.Alert.System

/-! What every state of the alerting system satisfies: identifiers are unique, and a copy of a rule that
    the worker holds agrees with the rule on what no edit changes. -/

namespace DatrixOps
open Postgres

/-- What the rule's query asks of a server beside `active`. -/
def AlertRule.watches (rule : AlertRule) (s : Server) : Bool :=
  s.userId = rule.userId && s.enrolledAt.isSome && s.bootstrapCompletedAt.isSome && rule.inScope s.id

theorem selects_iff {rule : AlertRule} {s : Server} :
    rule.selects s = true ↔ rule.watches s = true ∧ s.deletionStatus = .active := by
  simp only [AlertRule.selects, AlertRule.watches, Bool.and_eq_true, decide_eq_true_eq]
  tauto

namespace ServerStatement
variable (statement : ServerStatement) (p : Platform) (now : Time)

theorem set_id (s : Server) : ((statement.update p now).set s).id = s.id := by
  cases statement <;> rfl

/-- A statement takes no server away from the rules that watch it. -/
theorem watches_set {s : Server} {rule : AlertRule} (watched : rule.watches s = true) :
    rule.watches ((statement.update p now).set s) = true := by
  cases statement with
  | markOnline req =>
    simp only [AlertRule.watches, Bool.and_eq_true] at watched ⊢
    exact ⟨⟨watched.1.1, rfl⟩, watched.2⟩
  | _ => exact watched

/-- What it leaves of a row. -/
theorem keeps (s : Server) : ((statement.update p now).row s).id = s.id ∧
    ∀ rule : AlertRule, rule.watches s = true → rule.watches ((statement.update p now).row s) = true := by
  unfold Update.row
  split
  · exact ⟨statement.set_id p now s, fun _ => statement.watches_set p now⟩
  · exact ⟨rfl, fun _ watched => watched⟩

end ServerStatement

namespace AlertDb

/-- The worker's copies of rules. -/
def copies (db : AlertDb) : List AlertRule := db.loaded ++ db.queue.map (·.rule)

theorem mem_copies_listEnabledRules {db : AlertDb} {c : AlertRule} (h : c ∈ db.listEnabledRules.copies) :
    c ∈ db.copies ∨ (c ∈ db.rules ∧ c.enabled = true) := by
  unfold AlertDb.listEnabledRules at h
  split at h
  · rename_i idle
    simp only [Bool.and_eq_true, List.isEmpty_iff] at idle
    simp only [AlertDb.copies, idle.2, List.map_nil, List.append_nil] at h
    exact Or.inr (List.mem_filter.mp h)
  · exact Or.inl h

theorem mem_copies_selectServers {db : AlertDb} {fails : Bool} {c : AlertRule}
    (h : c ∈ (db.selectServers fails).copies) :
    c ∈ db.copies := by
  unfold AlertDb.selectServers at h
  split at h
  · rename_i rule rest hq hl
    simp only [AlertDb.copies, List.map_map, List.mem_append, List.mem_map] at h
    rcases h with h | ⟨s, -, rfl⟩
    · simp [AlertDb.copies, hl, h]
    · simp [AlertDb.copies, hl]
  · exact h

theorem mem_copies_evaluateNext {p : Platform} {db : AlertDb} {telemetry : Option Telemetry} {f : Faults}
    {c : AlertRule}
    (h : c ∈ (db.evaluateNext p telemetry f).copies) : c ∈ db.copies := by
  unfold AlertDb.evaluateNext at h
  split at h
  · exact h
  · rename_i next rest hq
    simp only [AlertDb.copies, AlertDb.setState, hq, List.map_cons, List.mem_append, List.mem_cons] at h ⊢
    rcases h with h | h
    · exact Or.inl h
    · exact Or.inr (Or.inr h)

structure WellFormed (db : AlertDb) : Prop where
  ruleIds : (db.rules.map (·.id)).Nodup
  serverIds : (db.servers.map (·.id)).Nodup
  rulesOld : ∀ r ∈ db.rules, r.id < db.nextId
  serversOld : ∀ s ∈ db.servers, s.id < db.nextId
  /-- a copy has the owner of its rule -/
  copies : ∀ c ∈ db.copies, c.id < db.nextId ∧ ∀ r ∈ db.rules, r.id = c.id → r.userId = c.userId
  /-- the worker's query selected the servers in its queue, which may have been asked to uninstall since -/
  queued : ∀ q ∈ db.queue, q.serverId < db.nextId ∧ ∀ s ∈ db.servers, s.id = q.serverId → q.rule.watches s = true

/-- What an edit keeps. -/
structure KeepsIdentity (set : AlertRule → AlertRule) : Prop where
  id : ∀ r, (set r).id = r.id
  userId : ∀ r, (set r).userId = r.userId

theorem keepsIdentity_toggle {explicitState : Option Bool} : KeepsIdentity (toggle explicitState) :=
  ⟨fun _ => rfl, fun _ => rfl⟩

theorem keepsIdentity_update {r : RulePayload} {serverId : Option Uuid} : KeepsIdentity (r.update serverId) :=
  ⟨fun _ => rfl, fun _ => rfl⟩

section
variable {p : Platform} {db : AlertDb} {rule rule' : AlertRule} {s s' : Server}

namespace WellFormed

theorem rule_unique (h : db.WellFormed) (hr : rule ∈ db.rules) (hr' : rule' ∈ db.rules) (hid : rule.id = rule'.id) :
    rule = rule' :=
  List.inj_on_of_nodup_map h.ruleIds hr hr' hid

theorem server_unique (h : db.WellFormed) (hs : s ∈ db.servers) (hs' : s' ∈ db.servers) (hid : s.id = s'.id) : s = s' :=
  List.inj_on_of_nodup_map h.serverIds hs hs' hid

theorem await (h : db.WellFormed) (a : AlertAction) : (db.await a).WellFormed :=
  ⟨h.ruleIds, h.serverIds, h.rulesOld, h.serversOld, h.copies, h.queued⟩

theorem listEnabledRules (h : db.WellFormed) : db.listEnabledRules.WellFormed := by
  have copies : ∀ c ∈ db.listEnabledRules.copies, c.id < db.nextId ∧ ∀ r ∈ db.rules, r.id = c.id →
      r.userId = c.userId := by
    intro c hc
    rcases mem_copies_listEnabledRules hc with hc | ⟨hc, -⟩
    · exact h.copies c hc
    · exact ⟨h.rulesOld c hc, fun r hr hid => by rw [h.rule_unique hr hc hid]⟩
  unfold AlertDb.listEnabledRules at copies ⊢
  split
  · rename_i idle
    rw [if_pos idle] at copies
    exact ⟨h.ruleIds, h.serverIds, h.rulesOld, h.serversOld, copies, h.queued⟩
  · exact h

theorem selectServers (h : db.WellFormed) (fails : Bool) : (db.selectServers fails).WellFormed := by
  have copies : ∀ c ∈ (db.selectServers fails).copies, c ∈ db.copies := fun c => mem_copies_selectServers
  unfold AlertDb.selectServers at copies ⊢
  split
  · rename_i rule rest hq hl
    simp only [hq, hl] at copies
    refine ⟨h.ruleIds, h.serverIds, h.rulesOld, h.serversOld, fun c hc => h.copies c (copies c hc), fun q hqu => ?_⟩
    obtain ⟨s, hs, rfl⟩ := List.mem_map.mp hqu
    split at hs
    · cases hs
    · obtain ⟨hs, sel⟩ := List.mem_filter.mp hs
      exact ⟨h.serversOld s hs, fun s' hs' hid => by rw [h.server_unique hs' hs hid]; exact (selects_iff.mp sel).1⟩
  · exact h

theorem evaluateNext (h : db.WellFormed) (telemetry : Option Telemetry) (f : Faults) :
    (db.evaluateNext p telemetry f).WellFormed := by
  have copies : ∀ c ∈ (db.evaluateNext p telemetry f).copies, c ∈ db.copies := fun c => mem_copies_evaluateNext
  unfold AlertDb.evaluateNext at copies ⊢
  split
  · exact h
  · rename_i next rest hq
    simp only [hq] at copies
    refine ⟨h.ruleIds, h.serverIds, h.rulesOld, h.serversOld, fun c hc => h.copies c (copies c hc), fun q hqu => ?_⟩
    exact h.queued q (by rw [hq]; exact List.mem_cons_of_mem _ hqu)

theorem abandon (h : db.WellFormed) : ({ db with loaded := [], queue := [] } : AlertDb).WellFormed :=
  ⟨h.ruleIds, h.serverIds, h.rulesOld, h.serversOld, fun _ hc => (by cases hc), fun _ hq => (by cases hq)⟩

theorem insertRule {userId : Uuid} {r : RulePayload} {db' : AlertDb} (h : db.WellFormed)
    (hi : db.insertRule p userId r = some db') : db'.WellFormed := by
  unfold AlertDb.insertRule at hi
  split at hi
  · obtain ⟨serverId, -, rfl⟩ := Option.map_eq_some_iff.mp hi
    refine ⟨?_, h.serverIds, fun rule hr => ?_, fun s hs => Nat.lt_succ_of_lt (h.serversOld s hs), fun c hc => ?_,
      fun q hq => ⟨Nat.lt_succ_of_lt (h.queued q hq).1, (h.queued q hq).2⟩⟩
    · simp only [List.map_append, List.map_cons, List.map_nil]
      refine List.nodup_append.mpr ⟨h.ruleIds, List.nodup_singleton _, fun a ha b hb => ?_⟩
      obtain ⟨old, hold, rfl⟩ := List.mem_map.mp ha
      rw [List.mem_singleton.mp hb]
      exact Nat.ne_of_lt (h.rulesOld old hold)
    · rcases List.mem_append.mp hr with hr | hr
      · exact Nat.lt_succ_of_lt (h.rulesOld rule hr)
      · rw [List.mem_singleton.mp hr]
        exact Nat.lt_succ_self _
    · refine ⟨Nat.lt_succ_of_lt (h.copies c hc).1, fun rule hr hid => ?_⟩
      rcases List.mem_append.mp hr with hr | hr
      · exact (h.copies c hc).2 rule hr hid
      · rw [List.mem_singleton.mp hr] at hid
        exact absurd hid (Nat.ne_of_gt (h.copies c hc).1)
  · cases hi

theorem createRule (h : db.WellFormed) (userId : Uuid) (payload : RulePayload) :
    (db.createRule p userId payload).WellFormed := by
  have each : ∀ (ids : List String) {db : AlertDb} {r : RulePayload}, db.WellFormed →
      (insertRules p userId r ids db).WellFormed := by
    intro ids
    induction ids with
    | nil => exact fun h => h
    | cons id rest ih =>
      intro db r h
      unfold insertRules
      split
      · rename_i db' hi
        exact ih (h.insertRule hi)
      · exact h
  simp only [AlertDb.createRule]
  split
  · split
    · exact each _ h
    · cases hi : db.insertRule p userId payload.selectServers.normalize with
      | none => exact h
      | some db' => exact h.insertRule hi
  · exact h

theorem editRule (h : db.WellFormed) {ruleId userId : Uuid} {set : AlertRule → AlertRule} (keeps : KeepsIdentity set) :
    (db.editRule ruleId userId set).WellFormed := by
  have back : ∀ rule ∈ (db.editRule ruleId userId set).rules, ∃ old ∈ db.rules, old.id = rule.id ∧
      old.userId = rule.userId := by
    intro rule hr
    rcases Update.mem_run_cases hr with ⟨hr, -⟩ | ⟨old, hold, -, rfl⟩
    · exact ⟨rule, hr, rfl, rfl⟩
    · exact ⟨old, hold, (keeps.id old).symm, (keeps.userId old).symm⟩
  refine ⟨?_, h.serverIds, fun rule hr => ?_, h.serversOld, fun c hc =>
    ⟨(h.copies c hc).1, fun rule hr hid => ?_⟩, h.queued⟩
  · rw [AlertDb.editRule, Update.map_run keeps.id]
    exact h.ruleIds
  · obtain ⟨old, hold, hid, -⟩ := back rule hr
    exact hid ▸ h.rulesOld old hold
  · obtain ⟨old, hold, hid', hu⟩ := back rule hr
    exact hu ▸ (h.copies c hc).2 old hold (hid'.trans hid)

theorem updateRule (h : db.WellFormed) (ruleId userId : Uuid) (payload : RulePayload) :
    (db.updateRule p ruleId userId payload).WellFormed := by
  unfold AlertDb.updateRule
  split
  · rename_i set hset
    obtain ⟨r, serverId, -, -, -, rfl⟩ := acceptUpdate_eq_some hset
    exact h.editRule keepsIdentity_update
  · exact h

theorem deleteRule (h : db.WellFormed) (ruleId userId : Uuid) : (db.deleteRule ruleId userId).WellFormed := by
  unfold AlertDb.deleteRule
  split
  · exact ⟨h.ruleIds.sublist (List.filter_sublist.map _), h.serverIds,
      fun r hr => h.rulesOld r (List.mem_filter.mp hr).1,
      h.serversOld, fun c hc => ⟨(h.copies c hc).1, fun r hr =>
        (h.copies c hc).2 r (List.mem_filter.mp hr).1⟩, h.queued⟩
  · exact h

theorem deleteServer (h : db.WellFormed) (serverId userId : Uuid) : (db.deleteServer serverId userId).WellFormed := by
  unfold AlertDb.deleteServer
  split
  · exact ⟨h.ruleIds.sublist (List.filter_sublist.map _), h.serverIds.sublist (List.filter_sublist.map _),
      fun r hr => h.rulesOld r (List.mem_filter.mp hr).1, fun s hs => h.serversOld s (List.mem_filter.mp hs).1,
      fun c hc => ⟨(h.copies c hc).1, fun r hr => (h.copies c hc).2 r (List.mem_filter.mp hr).1⟩,
      fun q hq => ⟨(h.queued q hq).1, fun s hs => (h.queued q hq).2 s (List.mem_filter.mp hs).1⟩⟩
  · exact h

theorem addServer (h : db.WellFormed) (s : Server) : (db.addServer s).WellFormed := by
  have older : ∀ n, n < db.nextId → n < (db.addServer s).nextId := fun n hn => Nat.lt_add_right 1 hn
  have enrolled : ∀ s' ∈ (db.addServer s).servers, s' ∈ db.servers ∨ s'.id = db.nextId := by
    intro s' hs'
    rcases List.mem_append.mp hs' with hs' | hs'
    · exact Or.inl hs'
    · exact Or.inr (List.mem_singleton.mp hs' ▸ rfl)
  constructor
  · exact h.ruleIds
  · simp only [AlertDb.addServer, List.map_append, List.map_cons, List.map_nil]
    refine List.nodup_append.mpr ⟨h.serverIds, List.nodup_singleton _, fun a ha b hb => ?_⟩
    obtain ⟨old, hold, rfl⟩ := List.mem_map.mp ha
    rw [List.mem_singleton.mp hb]
    exact Nat.ne_of_lt (h.serversOld old hold)
  · exact fun r hr => older _ (h.rulesOld r hr)
  · intro s' hs'
    rcases enrolled s' hs' with hs' | hid
    · exact older _ (h.serversOld s' hs')
    · rw [hid]
      exact Nat.lt_succ_self _
  · exact fun c hc => ⟨older _ (h.copies c hc).1, (h.copies c hc).2⟩
  · refine fun q hq => ⟨older _ (h.queued q hq).1, fun s' hs' hid => ?_⟩
    rcases enrolled s' hs' with hs' | hid'
    · exact (h.queued q hq).2 s' hs' hid
    · exact absurd (hid'.symm.trans hid) (Nat.ne_of_gt (h.queued q hq).1)

theorem onServers (h : db.WellFormed) (statement : ServerStatement) : (db.onServers p statement).WellFormed := by
  have back : ∀ s ∈ (db.onServers p statement).servers, ∃ old ∈ db.servers, s.id = old.id ∧
      ∀ rule : AlertRule, rule.watches old = true → rule.watches s = true := by
    intro s hs
    obtain ⟨old, hold, rfl⟩ := Update.mem_run.mp hs
    exact ⟨old, hold, statement.keeps p db.now old⟩
  refine ⟨h.ruleIds, ?_, h.rulesOld, fun s hs => ?_, h.copies, fun q hq => ⟨(h.queued q hq).1, fun s hs hid => ?_⟩⟩
  · rw [AlertDb.onServers, Update.map_run (statement.set_id p db.now)]
    exact h.serverIds
  · obtain ⟨old, hold, hid, -⟩ := back s hs
    exact hid ▸ h.serversOld old hold
  · obtain ⟨old, hold, hid', watched⟩ := back s hs
    exact watched q.rule ((h.queued q hq).2 old hold (hid'.symm.trans hid))

theorem perform (h : db.WellFormed) (op : AlertOp) : (db.perform p op).WellFormed := by
  cases op with
  | listEnabledRules => exact h.listEnabledRules
  | selectServers fails => exact h.selectServers fails
  | evaluateNext telemetry faults => exact h.evaluateNext telemetry faults
  | abandon => exact h.abandon
  | createRule userId payload =>
    rw [AlertDb.perform]
    exact h.createRule userId payload
  | updateRule ruleId userId payload => exact h.updateRule ruleId userId payload
  | toggleRule ruleId userId explicitState => exact h.editRule keepsIdentity_toggle
  | deleteRule ruleId userId => exact h.deleteRule ruleId userId
  | addServer server => exact h.addServer server
  | deleteServer serverId userId => exact h.deleteServer serverId userId
  | onServers statement => exact h.onServers statement

end WellFormed

end
end AlertDb
end DatrixOps
