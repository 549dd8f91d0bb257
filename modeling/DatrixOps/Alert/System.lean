import DatrixOps.Machine
import DatrixOps.Alert.State

/-! The alerting system: the rules their owners edit, the servers that come and go, are heard from and are
    uninstalled, and the alert worker, which loads the enabled rules, selects the servers of one after the
    other and evaluates them. Edits may come between any two steps of the worker, which then holds an
    outdated copy of the rule. Any two actions are at least a microsecond apart. -/

namespace DatrixOps
open Postgres

/-- A row of `alert_channels`, known by the text of its id. -/
structure AlertChannel where
  id : String
  userId : Uuid
  enabled : Bool

/-- What has happened, as far as the properties speak of it. -/
inductive Entry where
  /-- an evaluation with a usable sample, and whether it found the condition satisfied -/
  | evaluated (rule server : Uuid) (at_ : Time) (firing : Bool)
  /-- the rule's definition or its enabled flag changed -/
  | redefined (rule : Uuid) (at_ : Time)
  | sent (rule server : Uuid) (at_ : Time) (notice : Notice)
  deriving DecidableEq, Repr

/-- The entry is a dashboard notification. -/
def Entry.onDashboard : Entry → Bool
  | .sent _ _ _ notice => notice ≠ .reminder
  | _ => false

def Entry.time : Entry → Time
  | .evaluated _ _ t _ | .redefined _ t | .sent _ _ t _ => t

/-- A server the worker has still to evaluate: the copy of the rule, the server and its last sign of life. -/
structure Pending where
  rule : AlertRule
  serverId : Uuid
  lastSeen : Option Time

structure AlertDb where
  now : Time
  rules : List AlertRule
  servers : List Server
  channels : List AlertChannel
  /-- the row of a rule and a server -/
  states : Uuid → Uuid → Option AlertState
  /-- the identifier of the next rule or server -/
  nextId : Uuid
  /-- the worker's copies of the rules it has not started on -/
  loaded : List AlertRule
  /-- the servers of the rule it is at -/
  queue : List Pending
  /-- newest first -/
  journal : List Entry

/-- What a rule says it watches: metric, operator, threshold, target and scope. -/
def AlertRule.definition (r : AlertRule) : String × String × ℚ × Option String × Option Uuid :=
  (r.metric, r.operator, r.threshold, r.targetName, r.serverId)

/-- The check of the selected server, if any: `user_id = $1 AND id::text = $2`. -/
def selectedServer (p : Platform) (servers : List Server) (userId : Uuid) : Option String → Option (Option Uuid)
  | none => some none
  | some text => (servers.find? fun s => s.userId = userId && p.uuidText s.id = text).map fun s => some s.id

/-- The query of evaluateRule. -/
def AlertRule.selects (rule : AlertRule) (s : Server) : Bool :=
  s.userId = rule.userId && s.enrolledAt.isSome && s.bootstrapCompletedAt.isSome &&
    s.deletionStatus = .active && rule.inScope s.id

/-- The statements of the other handlers on a row of `servers`: a heartbeat, a request to uninstall the agent,
    what the agent reports and confirms of it, and the sweeps. Their handlers decide when they come, so here
    they come at any time. -/
inductive ServerStatement where
  | markOnline (req : HeartbeatRequest)
  | markDeletionPending (id userId : Uuid) (tokenHash : String)
  | beginUninstalling (serverId : Uuid)
  | failUninstall (serverId : Uuid) (error : Option String)
  | failStaleServers (ids : List Uuid)
  | expireConfirmations (userId : Uuid)

def ServerStatement.update (p : Platform) (now : Time) : ServerStatement → Update Server
  | .markOnline req => DatrixOps.markOnline now req (p.sha256Hex req.agentToken)
  | .markDeletionPending id userId tokenHash => DatrixOps.markDeletionPending now id userId tokenHash
  | .beginUninstalling serverId => DatrixOps.beginUninstalling now serverId
  | .failUninstall serverId error => DatrixOps.failUninstall now serverId error
  | .failStaleServers ids => DatrixOps.failStaleServers now ids
  | .expireConfirmations userId => DatrixOps.expireConfirmations now userId

namespace AlertDb

/-- The committed rows of `dashboard_notifications`, newest first. -/
def notifications (db : AlertDb) : List Entry := db.journal.filter Entry.onDashboard

/-! ### The worker -/

def listEnabledRules (db : AlertDb) : AlertDb :=
  if db.loaded.isEmpty && db.queue.isEmpty then { db with loaded := db.rules.filter (·.enabled) } else db

/-- The first half of evaluateRule: select the servers of the next rule. When the query fails the rule is
    passed over. -/
def selectServers (db : AlertDb) (fails : Bool) : AlertDb :=
  match db.queue, db.loaded with
  | [], rule :: rest =>
    let servers := if fails then [] else db.servers.filter rule.selects
    { db with loaded := rest, queue := servers.map fun s => ⟨rule, s.id, s.lastSeenAt⟩ }
  | _, _ => db

def setState (db : AlertDb) (rule server : Uuid) (state : Option AlertState) : AlertDb :=
  { db with states := fun r s => if r = rule ∧ s = server then state else db.states r s }

def linked (db : AlertDb) (rule server : Uuid) : Bool :=
  db.rules.any (fun r => r.id = rule) && db.servers.any (fun s => s.id = server)

/-- The foreign keys of `alert_state`: its inserts fail once the rule or the server is gone. -/
def faults (db : AlertDb) (rule server : Uuid) (f : Faults) : Faults :=
  if db.linked rule server then f else { f with observe := true, start := true }

/-- The verdict on the next server, from what the database holds about it (nothing when the query fails). -/
def verdict (p : Platform) (db : AlertDb) (next : Pending) (telemetry : Option Telemetry) : Verdict :=
  evaluateCondition p db.now telemetry next.rule next.lastSeen

/-- What the evaluation of the next server leaves of its row, and what it sends. -/
def evaluation (p : Platform) (db : AlertDb) (next : Pending) (telemetry : Option Telemetry) (f : Faults) :
    Option AlertState × List Notice :=
  handleVerdict db.now next.rule (db.verdict p next telemetry) (db.faults next.rule.id next.serverId f)
    (db.states next.rule.id next.serverId)

/-- The entry of an evaluation that had a usable sample. -/
def evaluated (p : Platform) (db : AlertDb) (next : Pending) (telemetry : Option Telemetry) : List Entry :=
  if (db.verdict p next telemetry).hasData then
    [.evaluated next.rule.id next.serverId db.now (db.verdict p next telemetry).firing]
  else []

/-- The second half of evaluateRule, on the next server. -/
def evaluateNext (p : Platform) (db : AlertDb) (telemetry : Option Telemetry) (f : Faults) : AlertDb :=
  match db.queue with
  | [] => db
  | next :: rest =>
    let (state, notices) := db.evaluation p next telemetry f
    { db.setState next.rule.id next.serverId state with
      queue := rest
      journal := notices.map (.sent next.rule.id next.serverId db.now) ++
        (db.evaluated p next telemetry ++ db.journal) }

/-! ### The owners -/

/-- The check of the selected channels: all are the user's and enabled. -/
def validChannels (db : AlertDb) (userId : Uuid) (channelIds : List String) : Bool :=
  let ids := uniqueStrings channelIds
  ids ≠ [] && ((db.channels.filter fun c => c.userId = userId && c.enabled && c.id ∈ ids).map (·.id)).dedup.length =
    ids.length

/-- CreateRule of the repository. -/
def insertRule (p : Platform) (db : AlertDb) (userId : Uuid) (r : RulePayload) : Option AlertDb :=
  if db.validChannels userId r.channelIds then
    (selectedServer p db.servers userId r.serverId).map fun serverId =>
      { db with
        rules := db.rules ++ [r.row db.nextId userId serverId true]
        nextId := db.nextId + 1 }
  else none

/-- One rule for each of the servers, until the repository refuses one. -/
def insertRules (p : Platform) (userId : Uuid) (r : RulePayload) : List String → AlertDb → AlertDb
  | [], db => db
  | id :: rest, db =>
    match db.insertRule p userId { r with serverId := some id } with
    | some db => insertRules p userId r rest db
    | none => db

/-- CreateRule of the handler. -/
def createRule (p : Platform) (db : AlertDb) (userId : Uuid) (payload : RulePayload) : AlertDb :=
  let r := payload.selectServers.normalize
  if validateRule r = "" then
    if r.serverIds.length > 1 then insertRules p userId r r.serverIds db
    else (db.insertRule p userId r).getD db
  else db

/-- Rewrite the rule of that id and owner, and note when its definition or its flag changes. -/
def editRule (db : AlertDb) (ruleId userId : Uuid) (set : AlertRule → AlertRule) : AlertDb :=
  let edited (r : AlertRule) : Bool := r.id = ruleId && r.userId = userId
  let changes (r : AlertRule) : Bool := (set r).definition ≠ r.definition || (set r).enabled ≠ r.enabled
  { db with
    rules := Update.run { where_ := edited, set := set } db.rules
    journal := if db.rules.any fun r => edited r && changes r then .redefined ruleId db.now :: db.journal
      else db.journal }

/-- UpdateRule: what it makes of the rule, when the request is accepted. -/
def acceptUpdate (p : Platform) (db : AlertDb) (userId : Uuid) (payload : RulePayload) :
    Option (AlertRule → AlertRule) :=
  let r := { payload.normalize with serverId := trimOptional payload.serverId }
  if validateRule r = "" && db.validChannels userId r.channelIds then
    (selectedServer p db.servers userId r.serverId).map fun serverId => RulePayload.update r serverId
  else none

def updateRule (p : Platform) (db : AlertDb) (ruleId userId : Uuid) (payload : RulePayload) : AlertDb :=
  match db.acceptUpdate p userId payload with
  | some set => db.editRule ruleId userId set
  | none => db

/-- ToggleRule: set the flag, or turn it over. -/
def toggle (explicitState : Option Bool) (r : AlertRule) : AlertRule :=
  { r with enabled := explicitState.getD (!r.enabled) }

/-- DeleteRule, with the rows of `alert_state`. -/
def deleteRule (db : AlertDb) (ruleId userId : Uuid) : AlertDb :=
  if db.rules.any fun r => r.id = ruleId && r.userId = userId then
    { db with
      rules := db.rules.filter (·.id ≠ ruleId)
      states := fun r s => if r = ruleId then none else db.states r s }
  else db

/-- Delete of the server repository; `ON DELETE CASCADE` takes the rules on this server alone and all its
    rows of `alert_state` along. -/
def deleteServer (db : AlertDb) (serverId userId : Uuid) : AlertDb :=
  if db.servers.any fun s => s.id = serverId && s.userId = userId then
    { db with
      servers := db.servers.filter (·.id ≠ serverId)
      rules := db.rules.filter (·.serverId ≠ some serverId)
      states := fun r s =>
        if s = serverId || db.rules.any (fun rule => rule.id = r && rule.serverId = some serverId) then none
        else db.states r s }
  else db

/-- A server enrols. -/
def addServer (db : AlertDb) (s : Server) : AlertDb :=
  { db with servers := db.servers ++ [{ s with id := db.nextId }], nextId := db.nextId + 1 }

/-- A statement of another handler on the servers. -/
def onServers (p : Platform) (db : AlertDb) (statement : ServerStatement) : AlertDb :=
  { db with servers := (statement.update p db.now).run db.servers }

/-- The incidents of the dashboard: the enabled rules and the servers of a user whose row is firing. -/
def openIncidents (db : AlertDb) (userId : Uuid) : List (AlertRule × Server) :=
  (db.rules ×ˢ db.servers).filter fun (rule, s) =>
    rule.enabled && (db.states rule.id s.id).any (·.firing) && rule.userId = userId && s.userId = userId

end AlertDb

inductive AlertOp where
  | listEnabledRules
  | selectServers (fails : Bool)
  | evaluateNext (telemetry : Option Telemetry) (faults : Faults)
  -- the job's context runs out, or the worker restarts
  | abandon
  | createRule (userId : Uuid) (payload : RulePayload)
  | updateRule (ruleId userId : Uuid) (payload : RulePayload)
  | toggleRule (ruleId userId : Uuid) (explicitState : Option Bool)
  | deleteRule (ruleId userId : Uuid)
  | addServer (server : Server)
  | deleteServer (serverId userId : Uuid)
  | onServers (statement : ServerStatement)

/-- An operation and the microseconds, beyond one, since the last. -/
structure AlertAction where
  elapsed : Nat
  op : AlertOp

namespace AlertDb

def perform (p : Platform) (db : AlertDb) : AlertOp → AlertDb
  | .listEnabledRules => db.listEnabledRules
  | .selectServers fails => db.selectServers fails
  | .evaluateNext telemetry faults => db.evaluateNext p telemetry faults
  | .abandon => { db with loaded := [], queue := [] }
  | .createRule userId payload => db.createRule p userId payload
  | .updateRule ruleId userId payload => db.updateRule p ruleId userId payload
  | .toggleRule ruleId userId explicitState => db.editRule ruleId userId (toggle explicitState)
  | .deleteRule ruleId userId => db.deleteRule ruleId userId
  | .addServer server => db.addServer server
  | .deleteServer serverId userId => db.deleteServer serverId userId
  | .onServers statement => db.onServers p statement

/-- The database when the action begins. -/
def await (db : AlertDb) (a : AlertAction) : AlertDb := { db with now := db.now + a.elapsed + 1 }

/-! ### What the operations leave alone -/

section
variable {p : Platform} {db : AlertDb} {telemetry : Option Telemetry} {f : Faults} {fails : Bool} {a : AlertAction}

@[simp] theorem rules_await : (db.await a).rules = db.rules := rfl

@[simp] theorem servers_await : (db.await a).servers = db.servers := rfl

@[simp] theorem states_await : (db.await a).states = db.states := rfl

@[simp] theorem journal_await : (db.await a).journal = db.journal := rfl

@[simp] theorem rules_listEnabledRules : db.listEnabledRules.rules = db.rules := by
  unfold listEnabledRules
  split <;> rfl

@[simp] theorem states_listEnabledRules : db.listEnabledRules.states = db.states := by
  unfold listEnabledRules
  split <;> rfl

@[simp] theorem journal_listEnabledRules : db.listEnabledRules.journal = db.journal := by
  unfold listEnabledRules
  split <;> rfl

@[simp] theorem journal_selectServers : (db.selectServers fails).journal = db.journal := by
  unfold selectServers
  split <;> rfl

@[simp] theorem rules_selectServers : (db.selectServers fails).rules = db.rules := by
  unfold selectServers
  split <;> rfl

@[simp] theorem states_selectServers : (db.selectServers fails).states = db.states := by
  unfold selectServers
  split <;> rfl

@[simp] theorem servers_listEnabledRules : db.listEnabledRules.servers = db.servers := by
  unfold listEnabledRules
  split <;> rfl

@[simp] theorem servers_selectServers : (db.selectServers fails).servers = db.servers := by
  unfold selectServers
  split <;> rfl

@[simp] theorem rules_evaluateNext : (db.evaluateNext p telemetry f).rules = db.rules := by
  unfold evaluateNext
  split <;> rfl

@[simp] theorem servers_evaluateNext : (db.evaluateNext p telemetry f).servers = db.servers := by
  unfold evaluateNext
  split <;> rfl

section
variable {next : Pending} {rest : List Pending}

theorem states_evaluateNext (hq : db.queue = next :: rest) (r s : Uuid) : (db.evaluateNext p telemetry f).states r s =
    if r = next.rule.id ∧ s = next.serverId then (db.evaluation p next telemetry f).1 else db.states r s := by
  simp only [evaluateNext, hq]
  rfl

theorem journal_evaluateNext (hq : db.queue = next :: rest) : (db.evaluateNext p telemetry f).journal =
    (db.evaluation p next telemetry f).2.map (.sent next.rule.id next.serverId db.now) ++
      (db.evaluated p next telemetry ++ db.journal) := by
  simp only [evaluateNext, hq]

theorem handled_evaluation (p : Platform) (db : AlertDb) (next : Pending) (telemetry : Option Telemetry) (f : Faults) :
    Handled db.now next.rule (db.verdict p next telemetry)
    (db.faults next.rule.id next.serverId f) (db.states next.rule.id next.serverId)
    (db.evaluation p next telemetry f).1 (db.evaluation p next telemetry f).2 :=
  handleVerdict_handled

end

/-- CreateRule only adds rules: rows of the validated request, with new identifiers. -/
structure Extends (db db' : AlertDb) (isNew : AlertRule → Prop) : Prop where
  now : db'.now = db.now
  servers : db'.servers = db.servers
  states : db'.states = db.states
  loaded : db'.loaded = db.loaded
  queue : db'.queue = db.queue
  journal : db'.journal = db.journal
  nextId : db.nextId ≤ db'.nextId
  rules : ∃ new, db'.rules = db.rules ++ new ∧ ∀ rule ∈ new, db.nextId ≤ rule.id ∧ isNew rule

theorem Extends.refl {isNew : AlertRule → Prop} : Extends db db isNew :=
  ⟨rfl, rfl, rfl, rfl, rfl, rfl, Nat.le_refl _, [], by simp, fun _ h => (by cases h)⟩

theorem Extends.trans {db' db'' : AlertDb} {isNew : AlertRule → Prop} (h : Extends db db' isNew)
    (h' : Extends db' db'' isNew) :
    Extends db db'' isNew where
  now := h'.now.trans h.now
  servers := h'.servers.trans h.servers
  states := h'.states.trans h.states
  loaded := h'.loaded.trans h.loaded
  queue := h'.queue.trans h.queue
  journal := h'.journal.trans h.journal
  nextId := h.nextId.trans h'.nextId
  rules := by
    obtain ⟨new, hr, hnew⟩ := h.rules
    obtain ⟨new', hr', hnew'⟩ := h'.rules
    refine ⟨new ++ new', by rw [hr', hr, List.append_assoc], fun rule hmem => ?_⟩
    rcases List.mem_append.mp hmem with hmem | hmem
    · exact hnew rule hmem
    · exact ⟨h.nextId.trans (hnew' rule hmem).1, (hnew' rule hmem).2⟩

theorem insertRule_extends {userId : Uuid} {r : RulePayload} {db' : AlertDb} {isNew : AlertRule → Prop}
    (hnew : ∀ id serverId, isNew (r.row id userId serverId true)) (h : db.insertRule p userId r = some db') :
    Extends db db' isNew := by
  unfold insertRule at h
  split at h
  · obtain ⟨serverId, -, rfl⟩ := Option.map_eq_some_iff.mp h
    refine ⟨rfl, rfl, rfl, rfl, rfl, rfl, Nat.le_succ _, _, rfl, fun rule hr => ?_⟩
    rw [List.mem_singleton.mp hr]
    exact ⟨Nat.le_refl _, hnew _ _⟩
  · cases h

theorem insertRules_extends {userId : Uuid} {r : RulePayload} {isNew : AlertRule → Prop}
    (hnew : ∀ id serverId, isNew (r.row id userId serverId true)) (ids : List String) :
    Extends db (insertRules p userId r ids db) isNew := by
  induction ids generalizing db with
  | nil => exact .refl
  | cons id rest ih =>
    unfold insertRules
    split
    · rename_i db' hi
      exact (insertRule_extends (r := { r with serverId := some id }) hnew hi).trans ih
    · exact .refl

theorem createRule_extends (p : Platform) (db : AlertDb) (userId : Uuid) (payload : RulePayload) :
    Extends db (db.createRule p userId payload) fun rule => validateRule payload.selectServers.normalize = "" ∧
      ∃ id serverId, rule = payload.selectServers.normalize.row id userId serverId true := by
  simp only [createRule]
  split
  · rename_i accepted
    have hnew : ∀ id serverId, validateRule payload.selectServers.normalize = "" ∧ ∃ id' serverId',
        payload.selectServers.normalize.row id userId serverId true =
          payload.selectServers.normalize.row id' userId serverId' true :=
            fun id serverId => ⟨accepted, id, serverId, rfl⟩
    split
    · exact insertRules_extends hnew _
    · cases hi : db.insertRule p userId payload.selectServers.normalize with
      | none => exact .refl
      | some db' => exact insertRule_extends hnew hi
  · exact .refl

/-- What UpdateRule makes of a rule, when it accepts the request. -/
theorem acceptUpdate_eq_some {userId : Uuid} {payload : RulePayload} {set : AlertRule → AlertRule}
    (h : db.acceptUpdate p userId payload = some set) : ∃ r serverId,
      r = { payload.normalize with serverId := trimOptional payload.serverId } ∧ validateRule r = "" ∧
        selectedServer p db.servers userId r.serverId = some serverId ∧ set = RulePayload.update r serverId := by
  unfold acceptUpdate at h
  simp only [Bool.and_eq_true, decide_eq_true_eq] at h
  split at h
  · rename_i ok
    obtain ⟨serverId, hs, rfl⟩ := Option.map_eq_some_iff.mp h
    exact ⟨_, serverId, rfl, ok.1, hs, rfl⟩
  · cases h

end

end AlertDb

def alertMachine (p : Platform) : Machine AlertDb AlertAction := ⟨fun db a => (db.await a).perform p a.op⟩

end DatrixOps
