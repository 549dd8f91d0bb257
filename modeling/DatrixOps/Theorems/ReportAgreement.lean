import Mathlib.Algebra.Order.BigOperators.Group.List
import DatrixOps.Diagnostics.Report

/-! When the report rebuilt from the stored results of the probes is the one that was measured. -/

namespace DatrixOps
namespace ReportAgreement
open Golang Diagnostics

attribute [local instance] Arithmetic.binary64

variable {flag : Bool} {net : Network} {telemetry : Option ServerNetworkTelemetry} {targets : List
  (NetworkTarget × Network)}

/-- What a report shows of a pillar. -/
def figures (p : NetworkPillarResult) : NetworkStatus × ℚ × Option ℚ × Int × Int × Int :=
  (p.status, p.latencyMs, p.packetLoss, p.totalProbes, p.successfulProbes, p.failedProbes)

/-- The two reports show the same status of the gateway, the same groups and the same severity. -/
structure Agree (live rebuilt : NetworkDiagnosticReport) : Prop where
  gateway : live.gateway.map (·.status) = rebuilt.gateway.map (·.status)
  groups : ∀ tag, (live.groups tag).map figures = (rebuilt.groups tag).map figures
  severity : live.severity = rebuilt.severity

/-- The targets with the results of probing them as the latest stored ones. -/
def stored (flag : Bool) (targets : List (NetworkTarget × Network)) :
    List (NetworkTarget × Option NetworkTargetResult) :=
  targets.map fun t => (t.1, some (probeSingleTarget flag t.2 t.1).2)

/-- The measurement of a target as it comes back from the database. -/
def restored (flag : Bool) (t : NetworkTarget × Network) : NetworkTargetProbe :=
  storedProbe t.1 (some (probeSingleTarget flag t.2 t.1).2)

/-! ### The conditions -/

/-- The gateway target answered, and its own thresholds say the same of the answers as those of a gateway;
over TCP it answered fast. -/
def GatewayKept (flag : Bool) (t : NetworkTarget × Network) : Prop :=
  let p := measured flag t
  0 < p.successfulProbes ∧
    if p.probeMethod = icmp then
      evaluateTargetStatus t.1 p.packetLoss p.latencyMs icmp =
        evaluateTargetStatus
          { t.1 with alertLatencyWarningMs := none, alertLatencyCriticalMs := none, alertLossCriticalPct := none }
          p.packetLoss p.latencyMs icmp
    else p.latencyMs ≤ defaultGatewayLatencyWarningMs

/-- The status kept of a gateway target is the one its measurement gets in a live report. -/
def GatewayAgrees (flag : Bool) (net : Network) (telemetry : Option ServerNetworkTelemetry)
    (t : NetworkTarget × Network) : Prop :=
  if hasGatewayHost t.1 then GatewayKept flag t else (probeDefaultGateway flag net telemetry).status =
    (measured flag t).status

/-- The targets measured by ping. -/
def pinged (flag : Bool) (members : List (NetworkTarget × Network)) : List (NetworkTarget × Network) :=
  members.filter fun t => (measured flag t).probeMethod = icmp

/-- The targets stored as ones to ping. -/
def configured (members : List (NetworkTarget × Network)) : List (NetworkTarget × Network) :=
  members.filter fun t => t.1.probeMethod = icmp

/-- The targets of a tag measured by ping are those configured for it, or both kinds come to the same. -/
def GroupAgrees (flag : Bool) (members : List (NetworkTarget × Network)) : Prop :=
  pinged flag members = configured members ∨
    (pinged flag members ≠ [] ∧ configured members ≠ [] ∧
      lossOf ((pinged flag members).map (measured flag)) = lossOf ((configured members).map (measured flag)) ∧
      latencyOf ((pinged flag members).map (measured flag)) = latencyOf ((configured members).map (measured flag)))

/-- What is stored of the targets is enough: a gateway target has a host of its own and shows the same status
    by its own thresholds, the tags are stored as they are grouped, and what was measured by ping is what is
    stored as such. -/
structure Kept (flag : Bool) (targets : List (NetworkTarget × Network)) : Prop where
  gateway : ∀ t ∈ gatewayTarget targets, hasGatewayHost t.1 = true ∧ GatewayKept flag t
  tags : ∀ t ∈ regularTargets targets, trimSpace t.1.tag = t.1.tag
  methods : ∀ t ∈ regularTargets targets, (measured flag t).probeMethod = icmp ↔ t.1.probeMethod = icmp

/-! ### Groups -/

theorem gatewayTarget_stored :
    gatewayTarget (stored flag targets) = (gatewayTarget targets).map fun t =>
      (t.1, some (probeSingleTarget flag t.2 t.1).2) := by
  simp only [gatewayTarget, stored, List.filter_map, List.getLast?_map]
  rfl

theorem regularTargets_stored :
    regularTargets (stored flag targets) = (regularTargets targets).map fun t =>
      (t.1, some (probeSingleTarget flag t.2 t.1).2) := by
  simp only [regularTargets, stored, List.filter_map]
  rfl

theorem liveTag_trimmed (target : NetworkTarget) : trimSpace (liveTag target) = liveTag target := by
  unfold liveTag
  split
  · decide
  · exact trimSpace_trimSpace _

theorem groupTag_restored (t : NetworkTarget × Network) :
    groupTag (restored flag t) = if t.1.tag = [] then "default".toList else t.1.tag := rfl

/-- Trimming leaves the tag of a target as it is. -/
def Trimmed (target : NetworkTarget) : Prop := trimSpace target.tag = target.tag

theorem groupTag_restored_of_trimmed {t : NetworkTarget × Network} (trimmed : Trimmed t.1) :
    groupTag (restored flag t) = liveTag t.1 := by
  rw [groupTag_restored, liveTag, trimmed]

/-- A tag that the live report can have is trimmed already. -/
theorem trimmed_of_groupTag {t t' : NetworkTarget × Network} (h : groupTag (restored flag t) = liveTag t'.1) :
    Trimmed t.1 := by
  rw [groupTag_restored] at h
  split at h
  · rename_i empty
    rw [Trimmed, empty]
    rfl
  · rw [Trimmed, h]
    exact liveTag_trimmed _

theorem lossOf_restored (ts : List (NetworkTarget × Network)) :
    lossOf (ts.map (restored flag)) = lossOf (ts.map (measured flag)) := by
  simp only [lossOf, List.map_map]
  rfl

theorem latencyOf_restored (ts : List (NetworkTarget × Network)) :
    latencyOf (ts.map (restored flag)) = latencyOf (ts.map (measured flag)) := by
  have answered : ∀ t, 0 < (measured flag t).successfulProbes →
      (restored flag t).latencyMs = (measured flag t).latencyMs := by
    intro t success
    unfold measured at success ⊢
    simp only [restored, storedProbe, probeSingleTarget]
    rw [if_pos success]
    rfl
  have successes : ∀ t, (restored flag t).successfulProbes = (measured flag t).successfulProbes := fun _ => rfl
  simp only [latencyOf, List.filter_map, List.map_map, Function.comp_def, successes]
  have products : (ts.filter fun t => 0 < (measured flag t).successfulProbes).map
        (fun t => rounded ((restored flag t).latencyMs * ofInt (measured flag t).successfulProbes)) =
      (ts.filter fun t => 0 < (measured flag t).successfulProbes).map
        fun t => rounded ((measured flag t).latencyMs * ofInt (measured flag t).successfulProbes) := by
    refine List.map_congr_left fun t member => ?_
    rw [answered t (of_decide_eq_true (List.mem_filter.mp member).2)]
  rw [products]

theorem lossOf_isSome (flag : Bool) {ts : List (NetworkTarget × Network)} (nonempty : ts ≠ []) :
    (lossOf (ts.map (measured flag))).isSome = true := by
  have positive : 0 < ((ts.map (measured flag)).map (·.totalProbes)).sum := by
    refine List.sum_pos _ (fun n member => ?_) (by simpa using nonempty)
    simp only [List.map_map, List.mem_map, Function.comp_apply] at member
    obtain ⟨t, -, rfl⟩ := member
    exact (probeTarget_spec t.1).total_pos
  rw [lossOf, if_pos positive]
  rfl

/-- The loss and the latency that a group shows when the members `chosen` count as pings. -/
def shown (flag : Bool) (members chosen : List (NetworkTarget × Network)) : Option ℚ × ℚ :=
  if chosen ≠ [] then (lossOf (chosen.map (measured flag)), latencyOf (chosen.map (measured flag)))
  else (none, latencyOf (members.map (measured flag)))

theorem shown_eq_iff {members : List (NetworkTarget × Network)} :
    shown flag members (pinged flag members) = shown flag members (configured members) ↔ GroupAgrees flag members := by
  unfold GroupAgrees shown
  by_cases byPing : pinged flag members = [] <;> by_cases byConfig : configured members = []
  · simp [byPing, byConfig]
  · have some_loss := lossOf_isSome flag byConfig
    cases loss : lossOf ((configured members).map (measured flag)) with
    | none => simp [loss] at some_loss
    | some _ => simp [byPing, byConfig, Ne.symm byConfig]
  · have some_loss := lossOf_isSome flag byPing
    cases loss : lossOf ((pinged flag members).map (measured flag)) with
    | none => simp [loss] at some_loss
    | some _ => simp [byPing, byConfig]
  · simp only [ne_eq, byPing, byConfig, not_false_eq_true, if_true, Prod.mk.injEq, true_and]
    constructor
    · exact .inr
    · rintro (same | both)
      · rw [same]
        exact ⟨rfl, rfl⟩
      · exact both

/-- A group in the live report. -/
theorem aggregate_measured (flag : Bool) (members : List (NetworkTarget × Network)) (status : NetworkStatus) :
    ((aggregatePillar (members.map (measured flag)) status).packetLoss,
      (aggregatePillar (members.map (measured flag)) status).latencyMs) =
      shown flag members (pinged flag members) := by
  simp only [aggregatePillar, icmpProbes, tcpProbes, List.filter_map, Function.comp_def, ne_eq,
    List.map_eq_nil_iff, shown]
  by_cases byPing : pinged flag members = []
  · have none_pinged : ∀ t ∈ members, ¬(measured flag t).probeMethod = icmp := by
      simpa [pinged, List.filter_eq_nil_iff] using byPing
    have others : members.filter (fun t => ¬(measured flag t).probeMethod = icmp) = members :=
      List.filter_eq_self.mpr fun t member => decide_eq_true (none_pinged t member)
    have empty : members.filter (fun t => (measured flag t).probeMethod = icmp) = [] := byPing
    rw [empty, others, byPing]
    rfl
  · have some_pinged : members.filter (fun t => (measured flag t).probeMethod = icmp) ≠ [] := byPing
    rw [if_pos some_pinged, if_pos some_pinged, if_pos byPing]
    rfl

/-- A group in the rebuilt report. -/
theorem aggregate_restored (flag : Bool) (members : List (NetworkTarget × Network)) (status : NetworkStatus) :
    ((aggregatePillar (members.map (restored flag)) status).packetLoss,
      (aggregatePillar (members.map (restored flag)) status).latencyMs) =
      shown flag members (configured members) := by
  have method : ∀ t, (restored flag t).probeMethod = t.1.probeMethod := fun _ => rfl
  simp only [aggregatePillar, icmpProbes, tcpProbes, List.filter_map, Function.comp_def, ne_eq, List.map_eq_nil_iff,
    shown, method,
    lossOf_restored, latencyOf_restored]
  by_cases byConfig : configured members = []
  · have none_configured : ∀ t ∈ members, ¬t.1.probeMethod = icmp := by
      simpa [configured, List.filter_eq_nil_iff] using byConfig
    have others : members.filter (fun t => ¬t.1.probeMethod = icmp) = members :=
      List.filter_eq_self.mpr fun t member => decide_eq_true (none_configured t member)
    have empty : members.filter (fun t => t.1.probeMethod = icmp) = [] := byConfig
    rw [empty, others, byConfig]
    rfl
  · have some_configured : members.filter (fun t => t.1.probeMethod = icmp) ≠ [] := byConfig
    rw [if_pos some_configured, if_pos some_configured, if_pos byConfig]
    rfl

/-- A group shows the same in both reports exactly when its members agree. -/
theorem groupPillar_agrees {members : List (NetworkTarget × Network)} :
    figures (groupPillar (members.map fun t => (measured flag t, t.1))) =
      figures (groupPillar (members.map fun t => (restored flag t, t.1))) ↔
      GroupAgrees flag members := by
  have probes : ∀ f : NetworkTarget × Network → NetworkTargetProbe, (members.map fun t => (f t, t.1)).map Prod.fst =
      members.map f := by
    intro f
    rw [List.map_map]
    rfl
  have owners : ∀ f : NetworkTarget × Network → NetworkTargetProbe, (members.map fun t => (f t, t.1)).map Prod.snd =
      members.map Prod.fst := by
    intro f
    rw [List.map_map]
    rfl
  have totals : ∀ read : NetworkTargetProbe → Int, (∀ t, read (restored flag t) = read (measured flag t)) →
      ((members.map (restored flag)).map read).sum = ((members.map (measured flag)).map read).sum := by
    intro read same
    simp only [List.map_map, Function.comp_def, same]
  have live := aggregate_measured flag members .unavailable
  have rebuilt := aggregate_restored flag members .unavailable
  rw [← shown_eq_iff, ← live, ← rebuilt]
  unfold groupPillar figures evaluatePillarStatus
  simp only [probes, owners, Prod.mk.injEq]
  constructor
  · rintro ⟨-, latency, loss, -⟩
    exact ⟨loss, latency⟩
  · rintro ⟨loss, latency⟩
    have total := totals (·.totalProbes) fun _ => rfl
    have successful := totals (·.successfulProbes) fun _ => rfl
    have failed := totals (·.failedProbes) fun _ => rfl
    rw [loss, latency]
    simp only [aggregatePillar, total, successful, failed, and_self]

/-! ### The gateway -/

/-- The status a live report gives a gateway target with a host of its own is the one its measurement had. -/
theorem gatewayStatus_agrees {t : NetworkTarget × Network} (gateway : t.1.isGateway = true)
    (hasHost : hasGatewayHost t.1 = true) :
    (probeGateway flag net telemetry (some t)).status = (measured flag t).status ↔
      GatewayAgrees flag net telemetry t := by
  have measurement : Measurement t.1 (measured flag t) := probeTarget_spec t.1
  have total := measurement.total_pos
  have successful := measurement.successful_nonneg
  have probed : probeGateway flag net telemetry (some t) =
      evaluateGatewayStatus
        { unavailablePillar with
          totalProbes := (measured flag t).totalProbes, successfulProbes := (measured flag t).successfulProbes
          failedProbes := (measured flag t).failedProbes, latencyMs := (measured flag t).latencyMs
          packetLoss := (measured flag t).packetLoss } := if_pos hasHost
  rw [probed]
  unfold GatewayAgrees GatewayKept
  simp only [hasHost, if_true, evaluateGatewayStatus, evaluatePillarStatus, total.ne', false_or]
  rcases measurement.kind with ⟨method, lossy, status⟩ | ⟨method, lossless, status⟩
  · simp only [method, if_true, lossy, status, true_and]
    by_cases none_answered : (measured flag t).successfulProbes = 0
    · have silent : ¬0 < (measured flag t).successfulProbes := by omega
      simp only [none_answered, if_true, lt_irrefl, false_and, iff_false]
      unfold evaluateTargetStatus
      split
      · split <;> exact nofun
      · dsimp only
        split
        · exact nofun
        · split <;> exact nofun
    · have answered : 0 < (measured flag t).successfulProbes := by omega
      rw [if_neg none_answered, and_iff_right answered]
      have other : icmp ≠ tcp := by decide
      have byDefault : (if defaultGatewayLossCriticalPct ≤ (measured flag t).packetLoss.getD 0 ∨
        defaultGatewayLatencyCriticalMs < (measured flag t).latencyMs then NetworkStatus.critical
          else if 0 < (measured flag t).packetLoss.getD 0 ∨
            defaultGatewayLatencyWarningMs < (measured flag t).latencyMs then .warning
          else if true = false then .reachable else .optimal) =
          evaluateTargetStatus
            { t.1 with alertLatencyWarningMs := none, alertLatencyCriticalMs := none, alertLossCriticalPct := none }
            (measured flag t).packetLoss (measured flag t).latencyMs icmp := by
        simp [evaluateTargetStatus, thresholdOr, gateway, other]
      rw [byDefault, eq_comm]
  · have other : tcp ≠ icmp := by decide
    simp only [method, other, if_false, lossless, status, Option.isSome_none, Bool.false_eq_true, false_and, false_or]
    by_cases none_answered : (measured flag t).successfulProbes = 0
    · simp [none_answered]
    · have answered : 0 < (measured flag t).successfulProbes := by omega
      simp only [none_answered, if_false, answered, if_true, true_and]
      have order : defaultGatewayLatencyWarningMs ≤ defaultGatewayLatencyCriticalMs := by decide
      constructor
      · intro reachable
        by_contra slow
        rw [not_le] at slow
        split at reachable <;> cases reachable
      · intro fast
        rw [if_neg (not_lt.mpr (fast.trans order)), if_neg (not_lt.mpr fast)]

theorem gateway_agrees :
    ((runNetworkDiagnostic flag net telemetry targets).1.gateway.map (·.status) =
        (buildDiagnosticReportFromTargets flag net telemetry (stored flag targets)).gateway.map (·.status)) ↔
      ∀ t ∈ gatewayTarget targets, GatewayAgrees flag net telemetry t := by
  simp only [runNetworkDiagnostic, buildDiagnosticReportFromTargets, reportOf, gatewayTarget_stored]
  cases found : gatewayTarget targets with
  | none => simp
  | some t =>
    have gateway : t.1.isGateway = true := by
      have member := List.mem_of_getLast? found
      simp only [List.mem_filter, Bool.and_eq_true] at member
      exact member.2.2
    simp only [Option.isSome_some, or_true, if_true, Option.map_some, Option.some.injEq, Option.mem_def, forall_eq']
    change (probeGateway flag net telemetry (some t)).status = (measured flag t).status ↔ _
    cases hasHost : hasGatewayHost t.1 with
    | true => exact gatewayStatus_agrees gateway hasHost
    | false =>
      unfold GatewayAgrees probeGateway
      simp [hasHost]

/-! ### The reports -/

theorem rebuilt_groups (tag : List Char) :
    (buildDiagnosticReportFromTargets flag net telemetry (stored flag targets)).groups tag =
    groupOf ((regularTargets targets).map fun t => (restored flag t, t.1)) tag := by
  simp only [buildDiagnosticReportFromTargets, reportOf, regularTargets_stored, List.map_map]
  rfl

theorem groups_agree (net : Network) (telemetry : Option ServerNetworkTelemetry) :
    (∀ tag, ((runNetworkDiagnostic flag net telemetry targets).1.groups tag).map figures =
        ((buildDiagnosticReportFromTargets flag net telemetry (stored flag targets)).groups tag).map figures) ↔
      (∀ t ∈ regularTargets targets, Trimmed t.1) ∧ ∀ tag, GroupAgrees flag (membersOf targets tag) := by
  have whenTrimmed (trimmed : ∀ t ∈ regularTargets targets, Trimmed t.1) (tag : List Char) :
      (((runNetworkDiagnostic flag net telemetry targets).1.groups tag).map figures =
        ((buildDiagnosticReportFromTargets flag net telemetry (stored flag targets)).groups tag).map figures) ↔
      GroupAgrees flag (membersOf targets tag) := by
    have members : (regularTargets targets).filter (fun t => groupTag (restored flag t) = tag) =
        membersOf targets tag :=
      List.filter_congr fun t member => by rw [groupTag_restored_of_trimmed (trimmed t member)]
    rw [runNetworkDiagnostic_groups, rebuilt_groups, groupOf_map, members]
    by_cases empty : membersOf targets tag = []
    · simp [empty, GroupAgrees, pinged, configured]
    · rw [if_neg empty, if_neg empty, Option.map_some, Option.map_some, Option.some.injEq]
      exact groupPillar_agrees
  constructor
  · intro same
    have trimmed : ∀ t ∈ regularTargets targets, Trimmed t.1 := by
      intro t member
      -- the group of the stored tag is one of the live groups
      have here := same (groupTag (restored flag t))
      rw [runNetworkDiagnostic_groups, rebuilt_groups, groupOf_map,
        if_neg (List.ne_nil_of_mem (List.mem_filter.mpr ⟨member, decide_eq_true rfl⟩))] at here
      split at here
      · cases here
      · rename_i nonempty
        obtain ⟨t', member'⟩ := List.exists_mem_of_ne_nil _ nonempty
        exact trimmed_of_groupTag (of_decide_eq_true (List.mem_filter.mp member').2).symm
    exact ⟨trimmed, fun tag => (whenTrimmed trimmed tag).mp (same tag)⟩
  · rintro ⟨trimmed, agree⟩ tag
    exact (whenTrimmed trimmed tag).mpr (agree tag)

/-- The severity goes by what a report shows, and by the status alone where the gateway is concerned. -/
theorem severity_congr {r r' : NetworkDiagnosticReport} (gateway : r.gateway.map (·.status) = r'.gateway.map (·.status))
    (groups : ∀ tag, (r.groups tag).map figures = (r'.groups tag).map figures) (order : r.groupOrder = r'.groupOrder)
    (telemetry : r.serverTelemetry = r'.serverTelemetry) : r.severity = r'.severity := by
  have ofGateway : (r.gateway.toList.flatMap gatewayReasons).map AlertReason.severity =
      (r'.gateway.toList.flatMap gatewayReasons).map AlertReason.severity := by
    rcases hr : r.gateway with _ | g <;> rcases hr' : r'.gateway with _ | g' <;>
      simp only [hr, hr', Option.map_none, Option.map_some, reduceCtorEq, Option.some.injEq] at gateway
    · rfl
    · simp only [Option.toList_some, List.flatMap_singleton, gatewayReasons, gateway]
      split
      · rfl
      · split <;> rfl
  have ofGroups : (fun tag => (r.groups tag).toList.flatMap (groupReasons tag)) =
      fun tag => (r'.groups tag).toList.flatMap (groupReasons tag) := by
    funext tag
    have here := groups tag
    rcases hr : r.groups tag with _ | g <;> rcases hr' : r'.groups tag with _ | g' <;>
      simp only [hr, hr', Option.map_none, Option.map_some, reduceCtorEq, Option.some.injEq] at here
    · rfl
    · simp only [figures, Prod.mk.injEq] at here
      obtain ⟨-, latency, loss, -⟩ := here
      simp only [Option.toList_some, List.flatMap_singleton, groupReasons, latency, loss]
  have severities : (alertReasons r).map AlertReason.severity = (alertReasons r').map AlertReason.severity := by
    simp only [alertReasons, List.map_append, ofGateway, ofGroups, order, telemetry]
  have any_map (s : Severity) (reasons : List AlertReason) :
      reasons.any (fun reason => reason.severity = s) = (reasons.map AlertReason.severity).any (· = s) := by
    rw [List.any_map]
    rfl
  unfold NetworkDiagnosticReport.severity evaluateAlerts
  simp only [any_map, severities]
  split
  · rfl
  · split <;> rfl

/-- The reports agree where the gateway's status, the tags and the groups do. -/
theorem agree_iff :
    Agree (runNetworkDiagnostic flag net telemetry targets).1
      (buildDiagnosticReportFromTargets flag net telemetry (stored flag targets)) ↔
      (∀ t ∈ gatewayTarget targets, GatewayAgrees flag net telemetry t) ∧ (∀ t ∈ regularTargets targets, Trimmed t.1) ∧
        ∀ tag, GroupAgrees flag (membersOf targets tag) := by
  constructor
  · intro agree
    exact ⟨gateway_agrees.mp agree.gateway, (groups_agree _ _).mp agree.groups⟩
  · rintro ⟨gateway, trimmed, groups⟩
    have sameGateway := gateway_agrees.mpr gateway
    have sameGroups := (groups_agree net telemetry).mpr ⟨trimmed, groups⟩
    refine ⟨sameGateway, sameGroups, severity_congr sameGateway sameGroups ?_ rfl⟩
    simp only [runNetworkDiagnostic, buildDiagnosticReportFromTargets, reportOf, regularTargets_stored, List.map_map]
    congr 1
    refine List.map_congr_left fun t member => ?_
    exact (groupTag_measured t).trans (groupTag_restored_of_trimmed (trimmed t member)).symm

/-- Groups whose pings were all configured, and no others. -/
theorem groupAgrees_of_methods (methods : ∀ t ∈ regularTargets targets, (measured flag t).probeMethod = icmp ↔
    t.1.probeMethod = icmp)
    (tag : List Char) : GroupAgrees flag (membersOf targets tag) := by
  refine Or.inl (List.filter_congr fun t member => ?_)
  rw [decide_eq_decide]
  exact methods t (List.mem_of_mem_filter member)

/-- The two reports agree where what is stored is enough. Where they agree without it, a gateway target stands
    for the agent's own gateway, or a group has targets measured by ping as well as targets stored as such,
    but others: the figures of the two happen to be the same. -/
theorem agree_of_kept (flag : Bool) (net : Network) (telemetry : Option ServerNetworkTelemetry)
    (targets : List (NetworkTarget × Network)) :
    let agree := Agree (runNetworkDiagnostic flag net telemetry targets).1
      (buildDiagnosticReportFromTargets flag net telemetry (stored flag targets))
    (Kept flag targets → agree) ∧
      (agree → (∀ t ∈ gatewayTarget targets, hasGatewayHost t.1 = true → GatewayKept flag t) ∧
        (∀ t ∈ regularTargets targets, trimSpace t.1.tag = t.1.tag) ∧
        ∀ tag, pinged flag (membersOf targets tag) = configured (membersOf targets tag) ∨
          pinged flag (membersOf targets tag) ≠ [] ∧ configured (membersOf targets tag) ≠ []) := by
  constructor
  · intro kept
    refine agree_iff.mpr ⟨fun t found => ?_, kept.tags, groupAgrees_of_methods kept.methods⟩
    obtain ⟨hasHost, gateway⟩ := kept.gateway t found
    rw [GatewayAgrees, if_pos hasHost]
    exact gateway
  · intro agree
    obtain ⟨gateway, tags, groups⟩ := agree_iff.mp agree
    refine ⟨fun t found hasHost => ?_, tags, fun tag => (groups tag).imp id fun both => ⟨both.1, both.2.1⟩⟩
    have agrees := gateway t found
    rw [GatewayAgrees, if_pos hasHost] at agrees
    exact agrees

/-- Where `ping` does not start and connections are accepted. -/
def noPing : Network where
  beforePing := .ok [⟨.ofIPv4 0xcb007107, ""⟩]
  byPing := .ok [⟨.ofIPv4 0xcb007107, ""⟩]
  beforeDial := .ok [⟨.ofIPv4 0xcb007107, ""⟩]
  ping := .notStarted
  dials i := if i = 0 then .error "i/o timeout" else .ok (1 / 100)

/-- A target that is probed by ICMP. -/
def pingTarget : NetworkTarget where
  id := "target"
  host := "203.0.113.7".toList
  port := 0
  tag := "edge".toList
  probeMethod := icmp
  probesPerRun := 5
  alertLatencyWarningMs := none
  alertLatencyCriticalMs := none
  alertLossCriticalPct := none
  enabled := true
  isGateway := false

/-- Where `ping` gets four answers of five. -/
def someLost : Network := { noPing with ping := .output ⟨some 20, some 4, some (9, 10, 12)⟩ }

/-- A gateway and a group of two targets, of which one is configured for connections. -/
theorem agree_of_kept_gateway :
    let targets := [({ pingTarget with isGateway := true, alertLatencyWarningMs := some 15 }, someLost),
      (pingTarget, someLost),
      ({ pingTarget with id := "web", port := 443, probeMethod := tcp }, noPing)]
    Agree (runNetworkDiagnostic false noPing none targets).1
      (buildDiagnosticReportFromTargets false noPing none (stored false targets)) := by
  refine (agree_of_kept false noPing none _).1 ⟨?_, ?_, ?_⟩
  · simp only [GatewayKept]
    decide +kernel
  · decide +kernel
  · decide +kernel

/-- A target configured for ping and measured over TCP has no loss live, and one when the report is rebuilt. -/
theorem fallback_disagrees : ¬Agree (runNetworkDiagnostic false noPing none [(pingTarget, noPing)]).1
    (buildDiagnosticReportFromTargets false noPing none (stored false [(pingTarget, noPing)])) := by
  rw [agree_iff]
  rintro ⟨-, -, groups⟩
  have members : membersOf [(pingTarget, noPing)] "edge".toList = [(pingTarget, noPing)] := rfl
  have none_pinged : pinged false [(pingTarget, noPing)] = [] := by decide +kernel
  have one_configured : configured [(pingTarget, noPing)] ≠ [] := by decide +kernel
  rcases members ▸ groups "edge".toList with same | ⟨some_pinged, -⟩
  · exact one_configured (same ▸ none_pinged)
  · exact some_pinged none_pinged

end ReportAgreement
end DatrixOps
