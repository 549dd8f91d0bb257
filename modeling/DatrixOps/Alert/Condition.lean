import Mathlib.Data.List.Basic
import DatrixOps.Alert.Rule
import DatrixOps.Golang.Json
import DatrixOps.Postgres.Text
import DatrixOps.Server.Statements

/-! What the alert worker reads of a server, and how it decides whether a rule's condition holds there.
    Every metric family has its own read, decode and comparison. -/

namespace DatrixOps
open Postgres Golang

/-- A row of `server_metrics`. -/
structure MetricSample where
  cpuUsage : ℚ
  memoryUsed : Int
  memoryTotal : Int
  createdAt : Time
  deriving DecidableEq

/-- A row of `network_target_results`. -/
structure NetworkSample where
  latencyMs : Option ℚ
  packetLoss : Option ℚ
  measuredAt : Time
  deriving DecidableEq

/-- A row of `network_targets` with its results. -/
structure SampledTarget where
  name : String
  host : String
  tag : String
  enabled : Bool
  results : List NetworkSample
  deriving DecidableEq

/-- A row of `websites`: what website monitoring knows of one of the user's sites. -/
structure Website where
  url : String
  status : String
  sslDaysRemaining : Option Int

/-- The columns `snapshot` and `os_info` of the server's row. -/
structure ServerReport where
  snapshot : Option Json
  osInfo : Option Jsonb

/-- What the database holds about one server: its report, unless the row is gone, its samples and its
    network targets; and the websites of its owner. -/
structure Telemetry where
  report : Option ServerReport
  metrics : List MetricSample
  networkTargets : List SampledTarget
  websites : List Website

/-- What evaluateCondition returns. -/
structure Verdict where
  firing : Bool
  value : ℚ
  hasData : Bool
  deriving DecidableEq

def Verdict.noData : Verdict := ⟨false, 0, false⟩

/-- A condition that is not about a number. -/
def Verdict.of (firing : Bool) : Verdict := ⟨firing, 0, true⟩

def compareAlertValue (operator : String) (currentValue threshold : ℚ) : Bool :=
  if operator = ">" then currentValue > threshold
  else if operator = "<" then currentValue < threshold
  else false

/-! ### The snapshot of the agent -/

structure DockerContainer where
  name : String
  state : String
  status : String

structure SystemService where
  name : String
  displayName : String
  status : String
  subStatus : String

def decodeContainer : Json → Option DockerContainer :=
  Json.decodeStruct ⟨"", "", ""⟩ fun fields => do
    let name ← Json.field "name" Json.decodeString "" fields
    let state ← Json.field "state" Json.decodeString "" fields
    let status ← Json.field "status" Json.decodeString "" fields
    some ⟨name, state, status⟩

def decodeContainers : Json → Option (List DockerContainer) :=
  Json.decodeStruct [] fun fields => Json.field "docker_containers" (Json.decodeSlice decodeContainer) [] fields

def decodeService : Json → Option SystemService :=
  Json.decodeStruct ⟨"", "", "", ""⟩ fun fields => do
    let name ← Json.field "name" Json.decodeString "" fields
    let displayName ← Json.field "display_name" Json.decodeString "" fields
    let status ← Json.field "status" Json.decodeString "" fields
    let subStatus ← Json.field "sub_status" Json.decodeString "" fields
    some ⟨name, displayName, status, subStatus⟩

def decodeServices : Json → Option (List SystemService) :=
  Json.decodeStruct [] fun fields => Json.field "services" (Json.decodeSlice decodeService) [] fields

/-- The snapshot is absent or the empty object, which is the column's default. -/
def emptySnapshot : Option Json → Bool
  | none => true
  | some (.obj []) => true
  | some _ => false

def DockerContainer.down (p : Platform) (c : DockerContainer) : Bool :=
  p.toLower.toLower c.state.toList != "running".toList ||
    contains (p.toLower.toLower c.status.toList) "unhealthy".toList

/-- The container that `target`, in lower case, names. -/
def DockerContainer.named (p : Platform) (target : List Char) (c : DockerContainer) : Bool :=
  let name := trimPrefix ['/'] (p.toLower.toLower c.name.toList)
  name == target || contains name target

def evaluateContainerCondition (p : Platform) (targetName : String) (snapshot : Option Json) : Verdict :=
  if emptySnapshot snapshot then
    if trimSpace targetName.toList ≠ [] then .of true else .noData
  else
    match snapshot.bind decodeContainers with
    | none => .noData
    | some containers =>
      let target := p.toLower.toLower (trimSpace targetName.toList)
      if target ≠ [] then
        match containers.find? (DockerContainer.named p target) with
        | some c => .of (c.down p)
        | none => .of true
      else .of (containers.any (DockerContainer.down p))

/-- A text of a service, trimmed and in lower case. -/
def cleanText (p : Platform) (s : String) : List Char := p.toLower.toLower (trimSpace s.toList)

def SystemService.running (p : Platform) (s : SystemService) : Bool :=
  (cleanText p s.status == "running".toList || cleanText p s.status == "active".toList ||
      cleanText p s.status == "ok".toList) &&
    cleanText p s.subStatus != "failed".toList && cleanText p s.subStatus != "dead".toList

def SystemService.broken (p : Platform) (s : SystemService) : Bool :=
  cleanText p s.status == "failed".toList || cleanText p s.status == "dead".toList ||
    cleanText p s.subStatus == "failed".toList || cleanText p s.subStatus == "dead".toList

/-- The service that `target`, in lower case, names, with or without its suffix. -/
def SystemService.named (p : Platform) (target : List Char) (s : SystemService) : Bool :=
  let suffix := ".service".toList
  let cleanTarget := trimSuffix suffix target
  let sName := cleanText p s.name
  let dName := cleanText p s.displayName
  trimSuffix suffix sName == cleanTarget || trimSuffix suffix dName == cleanTarget || sName == target ||
    dName == target || contains (trimSuffix suffix sName) cleanTarget

def evaluateServiceCondition (p : Platform) (targetName : String) (snapshot : Option Json) : Verdict :=
  if emptySnapshot snapshot then
    if trimSpace targetName.toList ≠ [] then .of true else .noData
  else
    match snapshot.bind decodeServices with
    | none => .noData
    | some services =>
      let target := cleanText p targetName
      if trimSuffix ".service".toList target ≠ [] then
        match services.find? (SystemService.named p target) with
        | some s => .of (!s.running p)
        | none => .of true
      else .of (services.any (SystemService.broken p))

/-! ### Numbers -/

/-- `ORDER BY .. DESC LIMIT 1` -/
def newest {α : Type} (time : α → Time) : List α → Option α
  | [] => none
  | a :: rest =>
    match newest time rest with
    | some b => if time a < time b then some b else some a
    | none => some a

theorem newest_map {α β : Type} (time : β → Time) (g : α → β) (rows : List α) :
    newest time (rows.map g) = (newest (fun a => time (g a)) rows).map g := by
  induction rows with
  | nil => rfl
  | cons a rest ih =>
    simp only [List.map_cons, newest, ih]
    cases newest (fun a => time (g a)) rest with
    | none => rfl
    | some b =>
      simp only [Option.map_some]
      split <;> rfl

theorem newest_mem {α : Type} {time : α → Time} {rows : List α} {a : α} (h : newest time rows = some a) : a ∈ rows := by
  induction rows with
  | nil => cases h
  | cons b rest ih =>
    simp only [newest] at h
    cases hr : newest time rest with
    | none =>
      rw [hr] at h
      exact Option.some.inj h ▸ List.mem_cons_self ..
    | some c =>
      rw [hr] at h
      dsimp only at h
      split at h
      · obtain rfl := Option.some.inj h
        exact List.mem_cons_of_mem _ (ih hr)
      · exact Option.some.inj h ▸ List.mem_cons_self ..

/-- The latest sample of every enabled target the filter finds that has one within 15 minutes. -/
def latestResults (p : Platform) (now : Time) (targetFilter : List Char) (targets : List SampledTarget) :
    List NetworkSample :=
  let finds (text : String) : Bool := ilike p.sqlLower ('%' :: targetFilter ++ ['%']) text.toList
  (targets.filter fun t => t.enabled && (targetFilter = [] || finds t.name || finds t.tag || finds t.host)).filterMap
    fun t => newest (·.measuredAt) (t.results.filter fun r => now - 15 * minute ≤ r.measuredAt)

/-- `COALESCE(MAX(..), 0), COUNT(..)` over the values that are not null, `MIN` for the operator `<`; no
    value when there is none. -/
def aggregate (operator : String) (values : List ℚ) : Option ℚ :=
  if operator = "<" then values.min? else values.max?

/-- The filter text of a network rule. -/
def targetFilter (rule : AlertRule) : List Char :=
  match rule.targetName with
  | some name => if name ≠ "" then trimSpace name.toList else []
  | none => []

/-- A network rule on the column `column`. -/
def evaluateNetwork (p : Platform) (now : Time) (column : NetworkSample → Option ℚ) (rule : AlertRule)
    (db : Option Telemetry) : Verdict :=
  match db.bind fun t => aggregate rule.operator
      ((latestResults p now (targetFilter rule) t.networkTargets).filterMap column) with
  | none => .noData
  | some value => ⟨compareAlertValue rule.operator value rule.threshold, value, true⟩

/-- `NULLIF(os_info->>'disk_usage', '')::double precision`, which must not be null. -/
def diskUsage (t : Telemetry) : Option ℚ :=
  (t.report.bind (·.osInfo)).bind fun osInfo =>
    (osInfo.text "disk_usage").bind fun text => if text = "" then none else float8 text.toList

/-- `memory_used * 100.0 / NULLIF(memory_total, 0)`, which must not be null. -/
def memoryUsage (s : MetricSample) : Option ℚ :=
  if s.memoryTotal = 0 then none else some (s.memoryUsed * 100 / s.memoryTotal)

/-- A metric of the latest sample. -/
def latestMetric (expression : MetricSample → Option ℚ) (t : Telemetry) : Option ℚ :=
  (newest (·.createdAt) t.metrics).bind expression

/-- A rule that compares the number a query reads. -/
def evaluateNumber (rule : AlertRule) (value : Option ℚ) : Verdict :=
  match value with
  | none => .noData
  | some value => ⟨compareAlertValue rule.operator value rule.threshold, value, true⟩

/-- A rule on the snapshot, which it cannot read when the query fails or the server is gone. -/
def evaluateSnapshot (evaluate : String → Option Json → Verdict) (rule : AlertRule) (db : Option Telemetry) : Verdict :=
  match db.bind (·.report) with
  | none => if rule.targetName.any (· ≠ "") then .of true else .noData
  | some report => evaluate (rule.targetName.getD "") report.snapshot

/-- evaluateCondition decides whether the rule is firing. `db` is none when the query fails. -/
def evaluateCondition (p : Platform) (now : Time) (db : Option Telemetry) (rule : AlertRule) (lastSeen : Option Time) :
    Verdict :=
  if rule.metric = "status" then
    match lastSeen with
    | none => .noData
    | some lastSeen => .of (now - lastSeen ≥ max rule.durationMinutes 1 * minute)
  else if rule.metric = "container" then evaluateSnapshot (evaluateContainerCondition p) rule db
  else if rule.metric = "service" then evaluateSnapshot (evaluateServiceCondition p) rule db
  else if rule.metric = "network_latency" then evaluateNetwork p now (·.latencyMs) rule db
  else if rule.metric = "network_loss" then evaluateNetwork p now (·.packetLoss) rule db
  else if rule.metric = "disk" then evaluateNumber rule (db.bind diskUsage)
  else
    let metricExpression := if rule.metric = "ram" then memoryUsage else fun s => some s.cpuUsage
    evaluateNumber rule (db.bind (latestMetric metricExpression))

end DatrixOps
