import Mathlib.Data.List.Dedup
import DatrixOps.Postgres.Call
import DatrixOps.Postgres.Numeric
import DatrixOps.Postgres.Text
import DatrixOps.Alert.System

/-! CreateRule with its channels: the repository creates a rule and its links in one transaction, and the
    handler calls it once for every server a request names. -/

namespace DatrixOps
open Postgres Call

/-- What the statements read. -/
structure AlertTables where
  servers : List Server
  channels : List AlertChannel
  /-- `alert_rule_channels` -/
  links : List (Uuid × String)

/-- A row that a CreateRule inserts. -/
inductive RuleRow where
  | rule (r : AlertRule)
  | link (ruleId : Uuid) (channelId : String)
  deriving DecidableEq

inductive CreateRuleError where
  | invalidChannelSelection
  | invalidServerSelection
  | other (text : String)
  deriving DecidableEq, Repr

/-- What the call returns of the rule. -/
structure CreatedRule where
  id : Uuid
  serverId : Option Uuid
  channelIds : List String
  channels : List String
  deriving DecidableEq, Repr

/-- An error response. -/
structure ErrorResponse where
  status : Nat
  code : String
  message : String
  deriving DecidableEq, Repr

namespace CreateRule

section
variable (p : Platform)

/-- A column `VARCHAR(n)` -/
def textColumn (n : Nat) (s : String) : Option String := (storedText n s.toList).map String.ofList

/-- The columns of `alert_rules` that hold the request's values, where they fit. -/
def columns (r : RulePayload) : Option RulePayload := do
  let name ← textColumn 255 r.name
  let metric ← textColumn 50 r.metric
  let operator ← textColumn 10 r.operator
  let durationMinutes ← int4 r.durationMinutes
  let repeatIntervalMinutes ← int4 r.repeatIntervalMinutes
  let targetName ← nullable (textColumn 255) r.targetName
  return { r with
    name := name, metric := metric, operator := operator, durationMinutes := durationMinutes
    repeatIntervalMinutes := repeatIntervalMinutes, targetName := targetName }

/-- The row of the insert, where the database accepts it beside the servers there are. -/
def ruleRow (userId : Uuid) (r : RulePayload) (serverId : Option Uuid) (db : AlertTables) (id : Uuid) :
    Option RuleRow :=
  if serverId.all fun serverId => db.servers.any (·.id = serverId) then
    (columns r).map fun stored => .rule (stored.row id userId serverId true)
  else none

/-- Only agents of the user may be chosen. -/
def validateServer (userId : Uuid) (r : RulePayload) (db : AlertTables) : Except CreateRuleError (Option Uuid) :=
  match selectedServer p db.servers userId r.serverId with
  | none => .error .invalidServerSelection
  | some serverId => .ok serverId

/-- `SELECT COUNT(DISTINCT id) .. WHERE user_id = $1 AND enabled = true AND id::text = ANY($2::text[])`,
    compared with the number asked for. -/
def validateChannels (userId : Uuid) (channelIds : List String) (db : AlertTables) : Except CreateRuleError Unit :=
  if ((db.channels.filter fun c => c.userId = userId && c.enabled && c.id ∈ channelIds).map (·.id)).dedup.length ≠
      channelIds.length then
    .error .invalidChannelSelection
  else .ok ()

/-- The statements of the transaction between its begin and its commit. -/
def insertRule (userId : Uuid) (r : RulePayload) (channelIds : List String) :
    Call AlertTables RuleRow CreateRuleError (Uuid × Option Uuid) := do
  let serverId ← match r.serverId with
    | none => pure none
    | some _ => statement (.other "validate alert server") (validateServer p userId r)
  statement (.other "validate alert channels") (validateChannels userId channelIds)
  let id ← insert (.other "insert alert rule") (ruleRow userId r serverId)
  let _ ← each (fun channelId =>
    insertRow (.other "link alert rule to channel") (fun db => db.channels.any (·.id = channelId))
      (.link id channelId)) channelIds
  return (id, serverId)

def listRuleChannels (ruleId : Uuid) (db : AlertTables) : List String := (db.links.filter (·.1 = ruleId)).map Prod.snd

/-- CreateRule of the repository. -/
def createRule (userId : Uuid) (r : RulePayload) : Call AlertTables RuleRow CreateRuleError CreatedRule :=
  let channelIds := uniqueStrings r.channelIds
  if channelIds = [] then fail .invalidChannelSelection
  else do
    begin_ (.other "begin create alert rule transaction")
    let made ← insertRule p userId r channelIds
    commit (.other "commit alert rule")
    statement (.other "list channels for alert rule") fun db =>
      .ok ⟨made.1, made.2, channelIds, listRuleChannels made.1 db⟩

/-- The response to an error of CreateRule. -/
def respond (agent internal : String) : CreateRuleError → ErrorResponse
  | .invalidChannelSelection =>
    ⟨400, "INVALID_CHANNEL_SELECTION", "One or more notification channels are invalid, disabled, or unavailable"⟩
  | .invalidServerSelection => ⟨400, "INVALID_AGENT_SELECTION", agent⟩
  | .other _ => ⟨500, "INTERNAL_ERROR", internal⟩

/-- One round of the loop over the servers of a request. -/
def createServerRule (userId : Uuid) (r : RulePayload) (serverId : String) :
    Call AlertTables RuleRow ErrorResponse CreatedRule :=
  mapError (respond "One of the selected agents is invalid or unavailable" "Failed to create alert rules")
    (createRule p userId { r with serverId := some serverId, serverIds := [] })

/-- The request as the handler passes it on. -/
def cleaned (payload : RulePayload) : RulePayload := payload.selectServers.normalize

/-- CreateRule of the handler. -/
def handle (userId : Uuid) (payload : RulePayload) : Call AlertTables RuleRow ErrorResponse (List CreatedRule) :=
  let r := cleaned payload
  if validateRule r ≠ "" then fail ⟨400, "VALIDATION_ERROR", validateRule r⟩
  else if r.serverIds.length > 1 then each (createServerRule p userId r) r.serverIds
  else do
    let rule ← mapError (respond "The selected agent is invalid or unavailable" "Failed to create alert rule")
      (createRule p userId r)
    return [rule]

end

end CreateRule
end DatrixOps
