import DatrixOps.Postgres.Rules
import DatrixOps.Alert.System

/-! The alert worker and the handlers of rules and servers, command by command, for any number of them at
    once. A run of the job evaluates every rule on every server with what it read at some point, which may
    be outdated by the time its transactions come. -/

namespace DatrixOps
open Postgres Prog

inductive AlertKey where
  | rule (id : Uuid)
  | server (id : Uuid)
  | state (ruleId serverId : Uuid)
  deriving DecidableEq, Repr

/-- A row of `alert_state` with its key. -/
structure StateRow where
  ruleId : Uuid
  serverId : Uuid
  state : AlertState
  deriving DecidableEq

inductive AlertRow where
  | rule (r : AlertRule)
  | server (s : Server)
  | state (x : StateRow)

namespace AlertRow

def key : AlertRow → AlertKey
  | rule r => .rule r.id
  | server s => .server s.id
  | state x => .state x.ruleId x.serverId

def rule? : AlertRow → Option AlertRule
  | rule r => some r
  | _ => none

def server? : AlertRow → Option Server
  | server s => some s
  | _ => none

def state? : AlertRow → Option StateRow
  | state x => some x
  | _ => none

end AlertRow

def alertRules : Table AlertRow AlertRule where
  get := AlertRow.rule?
  put := .rule
  get_put _ := rfl
  put_get r t h := by
    cases r <;> cases h
    rfl

def alertServers : Table AlertRow Server where
  get := AlertRow.server?
  put := .server
  get_put _ := rfl
  put_get r t h := by
    cases r <;> cases h
    rfl

def alertStates : Table AlertRow StateRow where
  get := AlertRow.state?
  put := .state
  get_put _ := rfl
  put_get r t h := by
    cases r <;> cases h
    rfl

@[simp] theorem alertRules_put (r : AlertRule) : alertRules.put r = .rule r := rfl

@[simp] theorem alertServers_put (s : Server) : alertServers.put s = .server s := rfl

@[simp] theorem alertStates_put (x : StateRow) : alertStates.put x = .state x := rfl

inductive NotificationKind where
  | alertFiring | alertResolved
  deriving DecidableEq, Repr

/-- A row of `dashboard_notifications`. -/
structure DashboardNotification where
  userId : Uuid
  alertRuleId : Uuid
  serverId : Uuid
  kind : NotificationKind
  deriving DecidableEq, Repr

/-- What the outside answers: whether the next statement fails, and what the database holds about a server. -/
structure Reply where
  fails : Bool
  telemetry : Option Telemetry

inductive AlertResponse where
  | done | refused
  deriving DecidableEq, Repr

abbrev AlertHandler := Prog AlertKey AlertRow DashboardNotification Reply AlertResponse

/-- A statement after whose failure the handler goes on with `failed`. -/
def unlessFails (failed statement : AlertHandler) : AlertHandler :=
  .ask fun reply => if reply.fails then failed else statement

/-! ### AlertJob -/

namespace AlertJob

section
variable (p : Platform) (rule : AlertRule) (serverId : Uuid)

/-- conditionSatisfiedLongEnough; not satisfied when its statement fails. -/
def conditionSatisfiedLongEnough (next : Bool → AlertHandler) : AlertHandler :=
  unlessFails (next false) <|
    .start fun now => upsert alertStates (.state rule.id serverId)
      (fun old => some ⟨rule.id, serverId, .observe now (old.map (·.state))⟩) fun
        | none => .rollback (next false)
        | some observed => .commit (.clock fun now => next (satisfiedLongEnough now rule observed.state))

/-- The reminder of handleFiring, which is sent to the external channels only. -/
def remind (next : AlertHandler) : AlertHandler :=
  if rule.repeatIntervalMinutes > 0 then
    unlessFails next <|
      select (fun _ snapshot =>
        (matching alertStates (fun x => x.ruleId = rule.id && x.serverId = serverId) snapshot).head?) fun
        | none => next
        | some (_, x) => .clock fun now =>
          if x.state.reminderDue now rule.repeatIntervalMinutes then
            unlessFails next <|
              .start fun now => byKey alertStates (.state rule.id serverId) (fun _ => true)
                (fun x => some { x with state := x.state.notified now }) fun _ => .commit next
          else next
  else next

/-- handleFiring -/
def handleFiring (next : AlertHandler) : AlertHandler :=
  unlessFails next <|
    .start fun now => upsert alertStates (.state rule.id serverId)
      (fun old => (AlertState.start now (old.map (·.state))).map (⟨rule.id, serverId, ·⟩)) fun
        -- the alert fires since an earlier run
        | none => .rollback (remind rule serverId next)
        | some _ => unlessFails (.rollback next) <|
          .emit [⟨rule.userId, rule.id, serverId, .alertFiring⟩] (.commit next)

/-- handleResolved -/
def handleResolved (next : AlertHandler) : AlertHandler :=
  unlessFails next <|
    .start fun now => byKey alertStates (.state rule.id serverId) (fun _ => true) some fun
      | some (some previous) => unlessFails (.rollback next) <|
        byKey alertStates (.state rule.id serverId) (fun _ => true)
          (fun x => some { x with state := x.state.resolve now }) fun _ =>
            if previous.state.firing then unlessFails (.rollback next) <|
              .emit [⟨rule.userId, rule.id, serverId, .alertResolved⟩] (.commit next)
            else .commit next
      | _ => .rollback next

/-- The loop of evaluateRule. A server whose row cannot be read is passed over. -/
def evaluateServers : List Server → AlertHandler → AlertHandler
  | [], next => next
  | server :: rest, next => .ask fun reply => .clock fun now =>
    let v := evaluateCondition p now reply.telemetry rule server.lastSeenAt
    let next := evaluateServers rest next
    if reply.fails ∨ v.hasData = false then next
    else if v.firing then
      conditionSatisfiedLongEnough rule server.id fun ready => if ready then handleFiring rule server.id next else next
    else handleResolved rule server.id next

def evaluateRule (next : AlertHandler) : AlertHandler :=
  unlessFails next <|
    select (fun _ snapshot => (matching alertServers rule.selects snapshot).map Prod.snd) fun servers =>
      evaluateServers p rule servers next

/-- The loop of run. -/
def evaluateRules : List AlertRule → AlertHandler
  | [] => .answer .done
  | rule :: rest => evaluateRule p rule (evaluateRules rest)

/-- run loads the enabled rules and then evaluates every one. -/
def run : AlertHandler :=
  unlessFails (.answer .refused) <|
    select (fun _ snapshot => (matching alertRules (·.enabled) snapshot).map Prod.snd) fun rules =>
      -- the query of the rules' channels
      unlessFails (.answer .refused) (evaluateRules p rules)

end

end AlertJob

/-! ### The owners

The channels of a rule are in no table here, so their check is asked outside. -/

namespace AlertService

section
variable (p : Platform)

/-- CreateRule of the repository. -/
def insertRule (userId : Uuid) (r : RulePayload) (next : AlertHandler) : AlertHandler :=
  .start fun _ => .scan fun snapshot =>
    match selectedServer p ((alertServers.rows snapshot).map Prod.snd) userId r.serverId with
    | none => .rollback (.answer .refused)
    | some serverId => unlessFails (.rollback (.answer .refused)) <|
      .insert (fun
        | .rule id => some (.rule (r.row id userId serverId true))
        | _ => none) (fun _ => false) fun _ => .commit next

def insertRules (userId : Uuid) (r : RulePayload) : List String → AlertHandler
  | [] => .answer .done
  | id :: rest => insertRule p userId { r with serverId := some id } (insertRules userId r rest)

/-- CreateRule of the handler. -/
def createRule (userId : Uuid) (payload : RulePayload) : AlertHandler :=
  let r := payload.selectServers.normalize
  if validateRule r = "" then
    if r.serverIds.length > 1 then insertRules p userId r r.serverIds
    else insertRule p userId r (.answer .done)
  else .answer .refused

/-- A statement on one rule of a user. -/
def ownedRule (ruleId userId : Uuid) (set : AlertRule → Option AlertRule) (next : AlertHandler) : AlertHandler :=
  byKey alertRules (.rule ruleId) (fun r => r.id = ruleId && r.userId = userId) set fun
    | none => .rollback (.answer .refused)
    | some _ => next

def updateRule (ruleId userId : Uuid) (payload : RulePayload) : AlertHandler :=
  let r := { payload.normalize with serverId := trimOptional payload.serverId }
  if validateRule r = "" then
    .start fun _ => .scan fun snapshot =>
      match selectedServer p ((alertServers.rows snapshot).map Prod.snd) userId r.serverId with
      | none => .rollback (.answer .refused)
      | some serverId => unlessFails (.rollback (.answer .refused)) <|
        ownedRule ruleId userId (fun rule => some (r.update serverId rule)) (.commit (.answer .done))
  else .answer .refused

def toggleRule (ruleId userId : Uuid) (explicitState : Option Bool) : AlertHandler :=
  .start fun _ => ownedRule ruleId userId (fun rule => some (AlertDb.toggle explicitState rule))
    (.commit (.answer .done))

/-- DeleteRule locks the rule, cleans up its rows and deletes it. -/
def deleteRule (ruleId userId : Uuid) : AlertHandler :=
  .start fun _ => ownedRule ruleId userId some <|
    delete alertStates (fun x => x.ruleId = ruleId) <|
      ownedRule ruleId userId (fun _ => none) (.commit (.answer .done))

/-- `ON DELETE CASCADE` of the rules `ids` on a server, and of their rows. -/
def cascadeRules (serverId : Uuid) : List Uuid → AlertHandler → AlertHandler
  | [], next => next
  | id :: rest, next =>
    byKey alertRules (.rule id) (fun r => r.serverId = some serverId) (fun _ => none) fun
      | none => cascadeRules serverId rest next
      | some _ => delete alertStates (fun x => x.ruleId = id) (cascadeRules serverId rest next)

/-- Delete of the server repository. -/
def deleteServer (serverId userId : Uuid) : AlertHandler :=
  .start fun _ => byKey alertServers (.server serverId) (fun s => s.id = serverId && s.userId = userId)
    (fun _ => none) fun
    | none => .rollback (.answer .refused)
    | some _ => delete alertStates (fun x => x.serverId = serverId) <| .scan fun snapshot =>
      cascadeRules serverId ((matching alertRules (fun r => r.serverId = some serverId) snapshot).map fun kr => kr.2.id)
        (.commit (.answer .done))

end

end AlertService

/-! ### The service -/

/-- The requests that touch alerts. `editServers` stands for every other handler that changes columns of
    servers. -/
inductive AlertRequest where
  | run
  | createRule (userId : Uuid) (payload : RulePayload)
  | updateRule (ruleId userId : Uuid) (payload : RulePayload)
  | toggleRule (ruleId userId : Uuid) (explicitState : Option Bool)
  | deleteRule (ruleId userId : Uuid)
  | enrolServer (server : Server)
  | editServers (which : Server → Bool) (edit : Server → Server)
  | deleteServer (serverId userId : Uuid)

def serveAlerts (p : Platform) : AlertRequest → AlertHandler
  | .run => AlertJob.run p
  | .createRule userId payload => AlertService.createRule p userId payload
  | .updateRule ruleId userId payload => AlertService.updateRule p ruleId userId payload
  | .toggleRule ruleId userId explicitState => AlertService.toggleRule ruleId userId explicitState
  | .deleteRule ruleId userId => AlertService.deleteRule ruleId userId
  | .enrolServer server =>
    .start fun _ => .insert (fun
      | .server id => some (.server { server with id := id })
      | _ => none) (fun _ => false) fun _ => .commit (.answer .done)
  | .editServers which edit =>
    .start fun _ => update alertServers (fun _ =>
        { where_ := which, set := fun s => { edit s with id := s.id } }) fun _ =>
      .commit (.answer .done)
  | .deleteServer serverId userId => AlertService.deleteServer serverId userId

end DatrixOps
