import Mathlib.Data.Rat.Defs
import Mathlib.Algebra.Order.Ring.Rat
import DatrixOps.Server.Rows
import DatrixOps.Golang.Strings

/-! Alert rules: the rows of `alert_rules`, the requests that create and change them, and how the
    handlers clean and validate a request. -/

namespace DatrixOps
open Postgres

/-- A row of `alert_rules`. Thresholds are exact numbers. -/
structure AlertRule where
  id : Uuid
  userId : Uuid
  name : String
  metric : String
  operator : String
  threshold : ℚ
  durationMinutes : Int
  repeatIntervalMinutes : Int
  targetName : Option String
  serverId : Option Uuid
  enabled : Bool
  deriving DecidableEq

/-- The body of a request to create or to change a rule. -/
structure RulePayload where
  name : String
  metric : String
  operator : String
  threshold : ℚ
  durationMinutes : Int
  repeatIntervalMinutes : Int
  targetName : Option String
  serverId : Option String
  serverIds : List String
  channelIds : List String

/-- `strings.TrimSpace` -/
def trimString (s : String) : String := String.ofList (Golang.trimSpace s.toList)

/-- An optional text, trimmed, and absent when nothing is left. -/
def trimOptional (s : Option String) : Option String := (s.map trimString).filter (· ≠ "")

def uniqueStrings (values : List String) : List String :=
  values.foldl (fun result value => if value = "" ∨ value ∈ result then result else result ++ [value]) []

/-- What both handlers do to a request before they validate it: the metrics without a number have a fixed
    condition. -/
def RulePayload.normalize (r : RulePayload) : RulePayload :=
  let fixed := r.metric = "status" ∨ r.metric = "container" ∨ r.metric = "service"
  { r with
    name := trimString r.name
    operator := if fixed then "==" else r.operator
    threshold := if fixed then 0 else r.threshold
    targetName := trimOptional r.targetName }

/-- The selection of servers of CreateRule: one server id, or several in `serverIds`. -/
def RulePayload.selectServers (r : RulePayload) : RulePayload :=
  match uniqueStrings ((r.serverIds.map trimString).filter (· ≠ "")) with
  | [] => { r with serverId := trimOptional r.serverId, serverIds := [] }
  | [id] => { r with serverId := some id, serverIds := [] }
  | ids => { r with serverIds := ids }

/-- The operators and the largest threshold of a metric that compares a number. -/
def validateThreshold (r : RulePayload) (max : ℚ) (message : String) : String :=
  if r.operator ≠ ">" ∧ r.operator ≠ "<" then "Unsupported alert condition"
  else if r.threshold < 0 ∨ r.threshold > max then message
  else ""

/-- validateRule validates alert rule parameters before database persistence. The message is empty when
    the rule is accepted. -/
def validateRule (r : RulePayload) : String :=
  if r.name = "" then "Alert name is required"
  else if r.durationMinutes ≤ 0 ∨ r.durationMinutes > 1440 then "Duration must be between 1 and 1440 minutes"
  else if r.repeatIntervalMinutes < 0 ∨ r.repeatIntervalMinutes > 1440 then
    "Repeat interval must be between 0 and 1440 minutes"
  else if r.channelIds = [] then "Select at least one notification channel"
  else if r.metric ∈ ["cpu", "ram", "disk"] then validateThreshold r 100 "Threshold must be between 0 and 100"
  else if r.metric = "network_loss" then validateThreshold r 100 "Threshold must be between 0 and 100"
  else if r.metric = "network_latency" then validateThreshold r 60000 "Threshold must be between 0 and 60000 ms"
  -- here the source sets the operator of its own copy of the rule
  else if r.metric ∈ ["status", "container", "service", "website", "ssl"] then ""
  else "Unsupported alert metric"

/-- The row a request writes for the server it names, if any. -/
def RulePayload.row (r : RulePayload) (id userId : Uuid) (serverId : Option Uuid) (enabled : Bool) : AlertRule where
  id := id
  userId := userId
  name := r.name
  metric := r.metric
  operator := r.operator
  threshold := r.threshold
  durationMinutes := r.durationMinutes
  repeatIntervalMinutes := r.repeatIntervalMinutes
  targetName := r.targetName
  serverId := serverId
  enabled := enabled

/-- What UpdateRule makes of the row. -/
def RulePayload.update (r : RulePayload) (serverId : Option Uuid) (rule : AlertRule) : AlertRule :=
  r.row rule.id rule.userId serverId rule.enabled

/-- The rule applies to a server: to all of its owner's, or to the one it names. -/
def AlertRule.inScope (rule : AlertRule) (serverId : Uuid) : Bool := rule.serverId.all (· = serverId)

end DatrixOps
