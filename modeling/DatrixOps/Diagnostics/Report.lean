import DatrixOps.Diagnostics.Probe

/-! The diagnostic report of a server: measured live, and rebuilt from the results in the database. The
    sentences shown to users are left out; the reasons of an alert keep what they are about. -/

namespace DatrixOps
namespace Diagnostics
open Golang

section
variable [Arithmetic]

/-- A row of `network_target_results`. -/
structure NetworkTargetResult where
  targetId : String
  latencyMs : Option ℚ
  minLatencyMs : Option ℚ
  maxLatencyMs : Option ℚ
  packetLoss : Option ℚ
  totalProbes : Int
  successfulProbes : Int
  failedProbes : Int
  status : NetworkStatus

/-- ProbeSingleTarget probes a single target and formats the result for saving to network_target_results. -/
def probeSingleTarget (isCloudDeployment : Bool) (net : Network) (target : NetworkTarget) :
    NetworkTargetProbe × NetworkTargetResult :=
  let probe := (probeTarget isCloudDeployment net target).1
  let measured (x : ℚ) : Option ℚ := if 0 < probe.successfulProbes then some x else none
  (probe,
    { targetId := target.id, latencyMs := measured probe.latencyMs, minLatencyMs := measured probe.minLatencyMs
      maxLatencyMs := measured probe.maxLatencyMs, packetLoss := probe.packetLoss, totalProbes := probe.totalProbes
      successfulProbes := probe.successfulProbes, failedProbes := probe.failedProbes, status := probe.status })

/-! ### Pillars -/

inductive MeasurementMethod where
  | icmp | tcp | mixed | configured (method : List Char)
  deriving DecidableEq

structure NetworkPillarResult where
  status : NetworkStatus
  latencyMs : ℚ
  packetLoss : Option ℚ
  totalProbes : Int
  successfulProbes : Int
  failedProbes : Int
  measurementMethod : MeasurementMethod

def unavailablePillar : NetworkPillarResult := ⟨.unavailable, 0, none, 0, 0, 0, .icmp⟩

/-- The loss of some probes together, in percent. -/
def lossOf (probes : List NetworkTargetProbe) : Option ℚ :=
  let total : Int := (probes.map (·.totalProbes)).sum
  let failed : Int := (probes.map (·.failedProbes)).sum
  if 0 < total then some (rounded (mathRound (rounded (rounded (ofInt failed / ofInt total) * 1000)) / 10)) else none

/-- The mean latency of the successful ones among some probes. -/
def latencyOf (probes : List NetworkTargetProbe) : ℚ :=
  let answered := probes.filter fun p => 0 < p.successfulProbes
  let successCount : Int := (answered.map (·.successfulProbes)).sum
  let latencySum := sumOf (answered.map fun p => rounded (p.latencyMs * ofInt p.successfulProbes))
  if 0 < successCount then round1 (rounded (latencySum / ofInt successCount)) else 0

def icmpProbes (probes : List NetworkTargetProbe) : List NetworkTargetProbe := probes.filter (·.probeMethod = icmp)

def tcpProbes (probes : List NetworkTargetProbe) : List NetworkTargetProbe := probes.filter (·.probeMethod ≠ icmp)

/-- aggregatePillar calculates the aggregate result for a set of probes, whose status is evaluated next. -/
def aggregatePillar (probes : List NetworkTargetProbe) (status : NetworkStatus) : NetworkPillarResult :=
  { status
    measurementMethod :=
      if icmpProbes probes ≠ [] then if tcpProbes probes ≠ [] then .mixed else .icmp
      else if tcpProbes probes ≠ [] then .tcp else .icmp
    totalProbes := (probes.map (·.totalProbes)).sum
    successfulProbes := (probes.map (·.successfulProbes)).sum
    failedProbes := (probes.map (·.failedProbes)).sum
    packetLoss := if icmpProbes probes ≠ [] then lossOf (icmpProbes probes) else none
    latencyMs := if icmpProbes probes ≠ [] then latencyOf (icmpProbes probes) else latencyOf (tcpProbes probes) }

/-- evaluatePillarStatus determines the pillar status using Critical-first evaluation order. -/
def evaluatePillarStatus (pillar : NetworkPillarResult) (lossCrit latWarn latCrit : ℚ) : NetworkPillarResult :=
  let loss := pillar.packetLoss.getD 0
  { pillar with
    status :=
      if pillar.totalProbes = 0 ∨ pillar.successfulProbes = 0 then .unavailable
      else if (pillar.packetLoss.isSome ∧ lossCrit ≤ loss) ∨ latCrit < pillar.latencyMs then .critical
      else if (pillar.packetLoss.isSome ∧ 0 < loss) ∨ latWarn < pillar.latencyMs then .warning
      else if pillar.packetLoss.isSome = false then .reachable
      else .optimal }

def evaluateGatewayStatus (pillar : NetworkPillarResult) : NetworkPillarResult :=
  evaluatePillarStatus pillar defaultGatewayLossCriticalPct defaultGatewayLatencyWarningMs
    defaultGatewayLatencyCriticalMs

/-- What the agent reports about its own network. -/
structure ServerNetworkTelemetry where
  defaultGateway : List Char
  gatewayLatencyMs : ℚ
  gatewayPacketLoss : ℚ
  dnsLatencyMs : ℚ
  dnsResolvable : Bool
  errorRatePerMin : ℚ

/-- The target has a host of its own, and does not stand for the agent's default gateway. -/
def hasGatewayHost (target : NetworkTarget) : Bool := target.host ≠ [] && target.host ≠ "gateway".toList

/-- The part of probeGateway that goes by the agent's telemetry. -/
def probeDefaultGateway (isCloudDeployment : Bool) (net : Network) (telemetry : Option ServerNetworkTelemetry) :
    NetworkPillarResult :=
  match telemetry with
  | none => unavailablePillar
  | some telemetry =>
    if telemetry.defaultGateway = [] then unavailablePillar
    else if 0 < telemetry.gatewayLatencyMs ∨ 0 < telemetry.gatewayPacketLoss then
      let successfulProbes := max (5 - ⌊mathRound (rounded (rounded (telemetry.gatewayPacketLoss / 100) * 5))⌋) 0
      evaluateGatewayStatus
        { unavailablePillar with
          latencyMs := round1 telemetry.gatewayLatencyMs, packetLoss := some (round1 telemetry.gatewayPacketLoss)
          totalProbes := 5, successfulProbes, failedProbes := 5 - successfulProbes }
    else if isCloudDeployment then unavailablePillar
    else
      let result := (runICMPPing isCloudDeployment net telemetry.defaultGateway probesPerTarget).1
      if result.available then
        evaluateGatewayStatus
          { unavailablePillar with
            latencyMs := round1 result.avgMs, packetLoss := some (round1 result.lossPercent)
            totalProbes := result.total, successfulProbes := result.received, failedProbes := result.lost }
      else unavailablePillar

/-- probeGateway runs ICMP probes against the default gateway from agent telemetry or dedicated gateway
    target. -/
def probeGateway (isCloudDeployment : Bool) (net : Network) (telemetry : Option ServerNetworkTelemetry)
    (gwTarget : Option (NetworkTarget × Network)) : NetworkPillarResult :=
  match gwTarget with
  | some (target, targetNet) =>
    if hasGatewayHost target then
      let probe := (probeTarget isCloudDeployment targetNet target).1
      evaluateGatewayStatus
        { unavailablePillar with
          totalProbes := probe.totalProbes, successfulProbes := probe.successfulProbes
          failedProbes := probe.failedProbes, latencyMs := probe.latencyMs, packetLoss := probe.packetLoss }
    else probeDefaultGateway isCloudDeployment net telemetry
  | none => probeDefaultGateway isCloudDeployment net telemetry

/-! ### Groups -/

def groupTag (probe : NetworkTargetProbe) : List Char := if probe.tag = [] then "default".toList else probe.tag

/-- The average of the thresholds the targets set. -/
def averageThreshold (default : ℚ) (configured : List (Option ℚ)) : ℚ :=
  let set := configured.filterMap fun threshold => threshold.filter (0 < ·)
  if set = [] then default else rounded (sumOf set / ofInt set.length)

def groupLossCrit (targets : List NetworkTarget) : ℚ :=
  averageThreshold defaultLossCriticalPct (targets.map (·.alertLossCriticalPct))

def groupLatWarn (targets : List NetworkTarget) : ℚ :=
  averageThreshold defaultLatencyWarningMs (targets.map (·.alertLatencyWarningMs))

def groupLatCrit (targets : List NetworkTarget) : ℚ :=
  averageThreshold defaultLatencyCriticalMs (targets.map (·.alertLatencyCriticalMs))

/-- The probes of a tag, with their targets. -/
def tagged (tag : List Char) (probed : List (NetworkTargetProbe × NetworkTarget)) :
    List (NetworkTargetProbe × NetworkTarget) :=
  probed.filter fun member => groupTag member.1 = tag

/-- The pillar of a tag that has probes. -/
def groupPillar (members : List (NetworkTargetProbe × NetworkTarget)) : NetworkPillarResult :=
  let targets := members.map (·.2)
  evaluatePillarStatus (aggregatePillar (members.map (·.1)) .unavailable) (groupLossCrit targets) (groupLatWarn targets)
    (groupLatCrit targets)

def groupOf (probed : List (NetworkTargetProbe × NetworkTarget)) (tag : List Char) : Option NetworkPillarResult :=
  if tagged tag probed = [] then none else some (groupPillar (tagged tag probed))

/-! ### Alerts -/

inductive Severity where
  | none | warning | critical
  deriving DecidableEq, Repr

def Severity.rank : Severity → Nat
  | .none => 0
  | .warning => 1
  | .critical => 2

inductive AlertReason where
  | gatewayCritical (latencyMs : ℚ)
  | gatewayElevated (latencyMs : ℚ)
  | lossCritical (tag : List Char) (loss : ℚ)
  | lossDetected (tag : List Char) (loss : ℚ)
  | latencyCritical (tag : List Char) (latencyMs : ℚ)
  | latencyElevated (tag : List Char) (latencyMs : ℚ)
  | agentLossCritical (loss : ℚ)
  | agentLossElevated (loss : ℚ)
  | dnsUnresolvable
  | errorRateElevated (errorsPerMin : ℚ)

def AlertReason.severity : AlertReason → Severity
  | .gatewayCritical _ | .lossCritical .. | .latencyCritical .. | .agentLossCritical _ | .dnsUnresolvable => .critical
  | .gatewayElevated _ | .lossDetected .. | .latencyElevated .. | .agentLossElevated _ |
    .errorRateElevated _ => .warning

structure NetworkAlertEvaluation where
  isTriggered : Bool
  severity : Severity
  reasons : List AlertReason
  suggestedAction : String

structure NetworkDiagnosticReport where
  gateway : Option NetworkPillarResult
  groups : List Char → Option NetworkPillarResult
  groupOrder : List (List Char)
  probes : List NetworkTargetProbe
  serverTelemetry : Option ServerNetworkTelemetry

def gatewayReasons (gateway : NetworkPillarResult) : List AlertReason :=
  if gateway.status = .critical then [.gatewayCritical gateway.latencyMs]
  else if gateway.status = .warning then [.gatewayElevated gateway.latencyMs]
  else []

def lossReasons (tag : List Char) (loss : ℚ) : List AlertReason :=
  if defaultLossCriticalPct ≤ loss then [.lossCritical tag loss] else if 0 < loss then [.lossDetected tag loss] else []

def latencyReasons (tag : List Char) (latencyMs : ℚ) : List AlertReason :=
  if defaultLatencyCriticalMs < latencyMs then [.latencyCritical tag latencyMs]
  else if defaultLatencyWarningMs < latencyMs then [.latencyElevated tag latencyMs]
  else []

def groupReasons (tag : List Char) (group : NetworkPillarResult) : List AlertReason :=
  group.packetLoss.toList.flatMap (lossReasons tag) ++ latencyReasons tag group.latencyMs

def telemetryReasons (telemetry : ServerNetworkTelemetry) : List AlertReason :=
  (if 40 ≤ telemetry.gatewayPacketLoss then [.agentLossCritical telemetry.gatewayPacketLoss]
    else if 20 ≤ telemetry.gatewayPacketLoss then [.agentLossElevated telemetry.gatewayPacketLoss] else []) ++
  (if telemetry.dnsResolvable = false ∧ 0 < telemetry.dnsLatencyMs then [.dnsUnresolvable] else []) ++
  (if 10 < telemetry.errorRatePerMin then [.errorRateElevated telemetry.errorRatePerMin] else [])

/-- The reasons evaluateAlerts finds, whose order among the groups is that of a Go map. -/
def alertReasons (report : NetworkDiagnosticReport) : List AlertReason :=
  report.gateway.toList.flatMap gatewayReasons ++
    report.groupOrder.flatMap (fun tag => (report.groups tag).toList.flatMap (groupReasons tag)) ++
      report.serverTelemetry.toList.flatMap telemetryReasons

/-- evaluateAlerts builds the alert evaluation from Gateway and dynamic Tag groups. -/
def evaluateAlerts (report : NetworkDiagnosticReport) : NetworkAlertEvaluation :=
  let reasons := alertReasons report
  if reasons.any fun r => r.severity = .critical then
    { isTriggered := true, severity := .critical, reasons
      suggestedAction := "Inspect physical uplink switch/ports or contact upstream ISP to investigate routing anomalies." }
  else if reasons.any fun r => r.severity = .warning then
    { isTriggered := true, severity := .warning, reasons
      suggestedAction := "Monitor traffic patterns or configure automated alert rules in the Alerts tab." }
  else { isTriggered := false, severity := .none, reasons, suggestedAction := "" }

def NetworkDiagnosticReport.severity (report : NetworkDiagnosticReport) : Severity := (evaluateAlerts report).severity

/-! ### The two reports -/

variable {α : Type}

/-- The enabled gateway target, the last one where there are several. -/
def gatewayTarget (targets : List (NetworkTarget × α)) : Option (NetworkTarget × α) :=
  (targets.filter fun t => t.1.enabled && t.1.isGateway).getLast?

def regularTargets (targets : List (NetworkTarget × α)) : List (NetworkTarget × α) :=
  targets.filter fun t => t.1.enabled && !t.1.isGateway

def reportOf (gateway : Option NetworkPillarResult) (telemetry : Option ServerNetworkTelemetry)
    (probed : List (NetworkTargetProbe × NetworkTarget)) : NetworkDiagnosticReport :=
  { gateway, groups := groupOf probed, groupOrder := (probed.map fun member => groupTag member.1).eraseDups
    probes := probed.map (·.1), serverTelemetry := telemetry }

/-- RunNetworkDiagnostic executes network diagnostics for dynamic user-configured targets. Each target comes
    with the network its probe meets, and `net` is the one a probe of the default gateway meets. -/
def runNetworkDiagnostic (isCloudDeployment : Bool) (net : Network) (telemetry : Option ServerNetworkTelemetry)
    (targets : List (NetworkTarget × Network)) : NetworkDiagnosticReport × List NetworkTargetResult :=
  let gwTarget := gatewayTarget targets
  let gateway :=
    if telemetry.isSome ∨ gwTarget.isSome then some (probeGateway isCloudDeployment net telemetry gwTarget) else none
  let probed := (regularTargets targets).map fun t => (probeSingleTarget isCloudDeployment t.2 t.1, t.1)
  (reportOf gateway telemetry (probed.map fun p => (p.1.1, p.2)), probed.map fun p => p.1.2)

/-- The probe of a target as the database has it. -/
def storedProbe (target : NetworkTarget) (latestResult : Option NetworkTargetResult) : NetworkTargetProbe :=
  let pending : NetworkTargetProbe :=
    { id := target.id, tag := target.tag, host := target.host, port := target.port, isGateway := target.isGateway
      probeMethod := target.probeMethod, probeStatus := .pending, totalProbes := 0, successfulProbes := 0
      failedProbes := 0, packetLoss := none, latencyMs := 0, minLatencyMs := 0, maxLatencyMs := 0, status := .optimal }
  match latestResult with
  | none => pending
  | some latest =>
    { pending with
      probeStatus :=
        if latest.status = .optimal ∨ latest.status = .warning ∨ latest.status = .reachable then .success
        else if latest.status = .unreachable then .refused
        else .timeout
      totalProbes := latest.totalProbes, successfulProbes := latest.successfulProbes
      failedProbes := latest.failedProbes, packetLoss := latest.packetLoss, latencyMs := latest.latencyMs.getD 0
      minLatencyMs := latest.minLatencyMs.getD 0, maxLatencyMs := latest.maxLatencyMs.getD 0, status := latest.status }

/-- BuildDiagnosticReportFromTargets constructs a NetworkDiagnosticReport instantly using latest DB results. -/
def buildDiagnosticReportFromTargets (isCloudDeployment : Bool) (net : Network)
    (telemetry : Option ServerNetworkTelemetry)
    (targets : List (NetworkTarget × Option NetworkTargetResult)) : NetworkDiagnosticReport :=
  let probeTelemetry := if telemetry.isSome then some (probeGateway isCloudDeployment net telemetry none) else none
  let gateway :=
    match gatewayTarget targets with
    | some (target, some latest) =>
      some
        { status := latest.status, latencyMs := latest.latencyMs.getD 0, packetLoss := latest.packetLoss
          totalProbes := latest.totalProbes, successfulProbes := latest.successfulProbes
          failedProbes := latest.failedProbes
          measurementMethod := if target.probeMethod = [] then .icmp else .configured target.probeMethod }
    | some (_, none) => probeTelemetry
    | none => probeTelemetry
  reportOf gateway telemetry ((regularTargets targets).map fun t => (storedProbe t.1 t.2, t.1))

/-! ### The groups of the live report -/

/-- The measurement of a target, a probe outcome of the run. -/
def measured (flag : Bool) (t : NetworkTarget × Network) : NetworkTargetProbe := (probeTarget flag t.2 t.1).1

/-- The targets of a tag. -/
def membersOf (targets : List (NetworkTarget × Network)) (tag : List Char) : List (NetworkTarget × Network) :=
  (regularTargets targets).filter fun t => liveTag t.1 = tag

variable {flag : Bool}

omit [Arithmetic] in
theorem liveTag_ne_nil (target : NetworkTarget) : liveTag target ≠ [] := by
  unfold liveTag
  split
  · decide
  · assumption

theorem groupTag_measured (t : NetworkTarget × Network) : groupTag (measured flag t) = liveTag t.1 := by
  have tag : (measured flag t).tag = liveTag t.1 := (probeTarget_spec t.1).tag
  rw [groupTag, tag, if_neg (liveTag_ne_nil _)]

/-- The group of a tag over the probes that `f` gives of the targets. -/
theorem groupOf_map (f : NetworkTarget × Network → NetworkTargetProbe) (regs : List (NetworkTarget × Network))
    (tag : List Char) :
    groupOf (regs.map fun t => (f t, t.1)) tag =
      if regs.filter (fun t => groupTag (f t) = tag) = [] then none
      else some (groupPillar ((regs.filter fun t => groupTag (f t) = tag).map fun t => (f t, t.1))) := by
  simp only [groupOf, tagged, List.filter_map, Function.comp_def, List.map_eq_nil_iff]

theorem runNetworkDiagnostic_groups {net : Network} {telemetry : Option ServerNetworkTelemetry}
    {targets : List (NetworkTarget × Network)} (tag : List Char) :
    (runNetworkDiagnostic flag net telemetry targets).1.groups tag =
    if membersOf targets tag = [] then none
    else some (groupPillar ((membersOf targets tag).map fun t => (measured flag t, t.1))) := by
  have groups : (runNetworkDiagnostic flag net telemetry targets).1.groups tag =
      groupOf ((regularTargets targets).map fun t => (measured flag t, t.1)) tag := by
    simp only [runNetworkDiagnostic, reportOf, List.map_map]
    rfl
  rw [groups, groupOf_map]
  simp only [groupTag_measured]
  rfl

end

/-! ### With exact fractions -/

section
attribute [local instance] Arithmetic.exact

variable {probes : List NetworkTargetProbe}

theorem lossOf_exact : lossOf probes =
    let total : Int := (probes.map (·.totalProbes)).sum
    let failed : Int := (probes.map (·.failedProbes)).sum
    if 0 < total then some (mathRound ((failed : ℚ) / total * 1000) / 10) else none := rfl

theorem latencyOf_exact : latencyOf probes =
    let answered := probes.filter fun p => 0 < p.successfulProbes
    let successCount : Int := (answered.map (·.successfulProbes)).sum
    if 0 < successCount then round1 ((answered.map fun p => p.latencyMs * (p.successfulProbes : ℚ)).sum / successCount)
      else 0 := by
  simp only [latencyOf, sumOf_exact]
  rfl

end

end Diagnostics
end DatrixOps
