import Mathlib.Algebra.Order.BigOperators.Group.List
import Mathlib.Data.List.Forall2
import DatrixOps.Diagnostics.Report

/-! What the alert severity of a live report says about the groups it was computed from, and which changes for
    the worse it follows. -/

namespace DatrixOps
namespace ReportSeverity
open Golang Diagnostics

attribute [local instance] Arithmetic.exact

/-! ### The reasons behind a severity -/

theorem severity_ne_none (reason : AlertReason) : reason.severity ≠ .none := by cases reason <;> exact nofun

/-- Every reason is at least a warning. -/
theorem warning_le (reason : AlertReason) : Severity.warning.rank ≤ reason.severity.rank := by
  cases h : reason.severity with
  | none => exact absurd h (severity_ne_none reason)
  | _ => decide

theorem rank_le_critical (severity : Severity) : severity.rank ≤ Severity.critical.rank := by cases severity <;> decide

theorem severity_critical_iff {r : NetworkDiagnosticReport} :
    r.severity = .critical ↔ ∃ reason ∈ alertReasons r, reason.severity = .critical := by
  unfold NetworkDiagnosticReport.severity evaluateAlerts
  dsimp only
  split
  · rename_i found
    simpa using found
  · rename_i found
    have missing : ¬∃ reason ∈ alertReasons r, reason.severity = .critical := by simpa using found
    refine iff_of_false ?_ missing
    split <;> exact nofun

theorem severity_none_iff {r : NetworkDiagnosticReport} : r.severity = .none ↔ alertReasons r = [] := by
  unfold NetworkDiagnosticReport.severity evaluateAlerts
  dsimp only
  split
  · rename_i found
    refine iff_of_false nofun fun empty => ?_
    simp [empty] at found
  · rename_i noneCritical
    split
    · rename_i found
      refine iff_of_false nofun fun empty => ?_
      simp [empty] at found
    · rename_i noneWarning
      refine iff_of_true rfl (List.eq_nil_iff_forall_not_mem.mpr fun reason member => ?_)
      have notCritical : reason.severity ≠ .critical := by
        simpa using fun h => noneCritical (List.any_eq_true.mpr ⟨reason, member, by simpa using h⟩)
      have notWarning : reason.severity ≠ .warning := by
        simpa using fun h => noneWarning (List.any_eq_true.mpr ⟨reason, member, by simpa using h⟩)
      cases h : reason.severity with
      | none => exact severity_ne_none reason h
      | warning => exact notWarning h
      | critical => exact notCritical h

/-- A severity is at least that of each reason. -/
theorem rank_le_severity {r : NetworkDiagnosticReport} {reason : AlertReason} (member : reason ∈ alertReasons r) :
    reason.severity.rank ≤ r.severity.rank := by
  cases h : r.severity with
  | none =>
    rw [severity_none_iff.mp h] at member
    cases member
  | warning =>
    cases h' : reason.severity with
    | critical => exact absurd (severity_critical_iff.mpr ⟨reason, member, h'⟩) (by rw [h]; exact nofun)
    | _ => decide
  | critical => exact rank_le_critical _

theorem severity_le {r r' : NetworkDiagnosticReport}
    (covered : ∀ reason ∈ alertReasons r, ∃ reason' ∈ alertReasons r', reason.severity.rank ≤ reason'.severity.rank) :
    r.severity.rank ≤ r'.severity.rank := by
  cases h : r.severity with
  | none => exact Nat.zero_le _
  | critical =>
    obtain ⟨reason, member, critical⟩ := severity_critical_iff.mp h
    obtain ⟨reason', member', above⟩ := covered reason member
    rw [critical] at above
    exact above.trans (rank_le_severity member')
  | warning =>
    have nonempty : alertReasons r ≠ [] := fun empty => by rw [severity_none_iff.mpr empty] at h; cases h
    obtain ⟨reason, member⟩ := List.exists_mem_of_ne_nil _ nonempty
    obtain ⟨reason', member', -⟩ := covered reason member
    exact (warning_le reason').trans (rank_le_severity member')

theorem mem_alertReasons {r : NetworkDiagnosticReport} {reason : AlertReason} : reason ∈ alertReasons r ↔
    (∃ g ∈ r.gateway, reason ∈ gatewayReasons g) ∨
    (∃ tag ∈ r.groupOrder, ∃ g ∈ r.groups tag, reason ∈ groupReasons tag g) ∨
      ∃ telemetry ∈ r.serverTelemetry, reason ∈ telemetryReasons telemetry := by
  simp only [alertReasons, List.mem_append, List.mem_flatMap, Option.mem_toList, Option.mem_def, or_assoc]

theorem lossReasons_critical {tag : List Char} {loss : ℚ} (h : defaultLossCriticalPct ≤ loss) :
    lossReasons tag loss = [.lossCritical tag loss] := if_pos h

theorem latencyReasons_critical {tag : List Char} {latency : ℚ} (h : defaultLatencyCriticalMs < latency) :
    latencyReasons tag latency = [.latencyCritical tag latency] := if_pos h

theorem lossReasons_ne_nil (tag : List Char) {loss : ℚ} (h : 0 < loss) : lossReasons tag loss ≠ [] := by
  unfold lossReasons
  rw [if_pos h]
  split <;> exact List.cons_ne_nil _ _

theorem latencyReasons_ne_nil (tag : List Char) {latency : ℚ} (h : defaultLatencyWarningMs < latency) :
    latencyReasons tag latency ≠ [] := by
  unfold latencyReasons
  rw [if_pos h]
  split <;> exact List.cons_ne_nil _ _

/-- Higher loss, reasons at least as severe. -/
theorem lossReasons_mono {tag : List Char} {loss loss' : ℚ} (h : loss ≤ loss') {reason : AlertReason}
    (member : reason ∈ lossReasons tag loss) :
    ∃ reason' ∈ lossReasons tag loss', reason.severity.rank ≤ reason'.severity.rank := by
  unfold lossReasons at member
  split at member
  · rename_i critical
    rw [lossReasons_critical (critical.trans h)]
    cases List.mem_singleton.mp member
    exact ⟨_, List.mem_singleton_self _, le_refl _⟩
  · split at member
    · rename_i lossy
      cases List.mem_singleton.mp member
      obtain ⟨reason', member'⟩ := List.exists_mem_of_ne_nil _ (lossReasons_ne_nil tag (lossy.trans_le h))
      exact ⟨reason', member', warning_le reason'⟩
    · cases member

theorem latencyReasons_mono {tag : List Char} {latency latency' : ℚ} (h : latency ≤ latency') {reason : AlertReason}
    (member : reason ∈ latencyReasons tag latency) :
      ∃ reason' ∈ latencyReasons tag latency', reason.severity.rank ≤ reason'.severity.rank := by
  unfold latencyReasons at member
  split at member
  · rename_i critical
    rw [latencyReasons_critical (critical.trans_le h)]
    cases List.mem_singleton.mp member
    exact ⟨_, List.mem_singleton_self _, le_refl _⟩
  · split at member
    · rename_i slow
      cases List.mem_singleton.mp member
      obtain ⟨reason', member'⟩ := List.exists_mem_of_ne_nil _ (latencyReasons_ne_nil tag (slow.trans_le h))
      exact ⟨reason', member', warning_le reason'⟩
    · cases member

/-! ### Groups -/

variable {flag : Bool} {net net' : Network} {telemetry : Option ServerNetworkTelemetry}
  {targets targets' members members' : List (NetworkTarget × Network)}

/-- The probes that the loss and the latency of a group are taken from. -/
def counted (flag : Bool) (members : List (NetworkTarget × Network)) : List NetworkTargetProbe :=
  if icmpProbes (members.map (measured flag)) ≠ [] then icmpProbes (members.map (measured flag))
  else tcpProbes (members.map (measured flag))

/-- The replies to the probes. -/
def replies (probes : List NetworkTargetProbe) : Int := (probes.map (·.successfulProbes)).sum

/-- The latencies of all replies together. -/
def repliesMs (probes : List NetworkTargetProbe) : ℚ := (probes.map fun p => p.latencyMs * (p.successfulProbes : ℚ)).sum

/-- The latency of the replies to the probes, on average. -/
def meanLatency (probes : List NetworkTargetProbe) : ℚ := repliesMs probes / replies probes

theorem latencyOf_eq {probes : List NetworkTargetProbe} (nonneg : ∀ p ∈ probes, 0 ≤ p.successfulProbes) :
    latencyOf probes = if 0 < replies probes then round1 (meanLatency probes) else 0 := by
  have counts : ((probes.filter fun p => 0 < p.successfulProbes).map (·.successfulProbes)).sum = replies probes ∧
      ((probes.filter fun p => 0 < p.successfulProbes).map fun p => p.latencyMs * (p.successfulProbes : ℚ)).sum =
        repliesMs probes := by
    unfold replies repliesMs
    induction probes with
    | nil => exact ⟨rfl, rfl⟩
    | cons p ps ih =>
      obtain ⟨ihCount, ihSum⟩ := ih fun q member => nonneg q (List.mem_cons_of_mem _ member)
      by_cases answered : 0 < p.successfulProbes
      · simp [answered, ihCount, ihSum]
      · have zero : p.successfulProbes = 0 := by
          have := nonneg p (List.mem_cons_self ..)
          omega
        simp [zero, ihCount, ihSum]
  simp only [latencyOf_exact, meanLatency, counts.1, counts.2]

theorem counted_nonneg {p : NetworkTargetProbe} (member : p ∈ counted flag members) : 0 ≤ p.successfulProbes := by
  have source : p ∈ members.map (measured flag) := by
    unfold counted icmpProbes tcpProbes at member
    split at member <;> exact (List.mem_filter.mp member).1
  obtain ⟨t, -, rfl⟩ := List.mem_map.mp source
  exact (probeTarget_spec t.1).successful_nonneg

/-- The group that some targets make. -/
def pillarOf (flag : Bool) (members : List (NetworkTarget × Network)) : NetworkPillarResult :=
  groupPillar (members.map fun t => (measured flag t, t.1))

theorem pillarOf_eq : pillarOf flag members =
    evaluatePillarStatus (aggregatePillar (members.map (measured flag)) .unavailable)
    (groupLossCrit (members.map Prod.fst))
      (groupLatWarn (members.map Prod.fst)) (groupLatCrit (members.map Prod.fst)) := by
  simp only [pillarOf, groupPillar, List.map_map]
  rfl

/-- The latency and the loss that a group shows. -/
theorem pillarOf_latency : (pillarOf flag members).latencyMs = latencyOf (counted flag members) := by
  rw [pillarOf_eq]
  simp only [evaluatePillarStatus, aggregatePillar, counted]
  split <;> rfl

theorem pillarOf_loss : (pillarOf flag members).packetLoss =
    if icmpProbes (members.map (measured flag)) ≠ [] then lossOf (icmpProbes (members.map (measured flag)))
    else none := by
  rw [pillarOf_eq]
  rfl

/-- What the counters of pings add up to. -/
theorem ping_counts {p : NetworkTargetProbe} (member : p ∈ icmpProbes (members.map (measured flag))) :
    0 < p.totalProbes ∧ p.failedProbes = max (p.totalProbes - p.successfulProbes) 0 := by
  obtain ⟨t, -, rfl⟩ := List.mem_map.mp (List.mem_filter.mp member).1
  exact ⟨(probeTarget_spec t.1).total_pos, (probeTarget_spec t.1).failed⟩

/-- Where no ping of a group was answered, its loss is total. -/
theorem loss_of_silence (pinged : icmpProbes (members.map (measured flag)) ≠ [])
    (silent : ∀ p ∈ icmpProbes (members.map (measured flag)), p.successfulProbes = 0) :
    lossOf (icmpProbes (members.map (measured flag))) = some 100 := by
  have failed : (icmpProbes (members.map (measured flag))).map (·.failedProbes) =
      (icmpProbes (members.map (measured flag))).map (·.totalProbes) := by
    refine List.map_congr_left fun p member => ?_
    obtain ⟨positive, failed⟩ := ping_counts member
    rw [failed, silent p member]
    omega
  have positive : 0 < ((icmpProbes (members.map (measured flag))).map (·.totalProbes)).sum := by
    refine List.sum_pos _ (fun n member => ?_) (by simpa using pinged)
    obtain ⟨p, member', rfl⟩ := List.mem_map.mp member
    exact (ping_counts member').1
  have whole : ((((icmpProbes (members.map (measured flag))).map (·.totalProbes)).sum : ℤ) : ℚ) ≠ 0 := by
    exact_mod_cast positive.ne'
  simp only [lossOf_exact, failed, if_pos positive, div_self whole, one_mul, Option.some.injEq]
  decide +kernel

theorem mem_groupOrder {tag : List Char} : tag ∈ (runNetworkDiagnostic flag net telemetry targets).1.groupOrder ↔
    membersOf targets tag ≠ [] := by
  have order : (runNetworkDiagnostic flag net telemetry targets).1.groupOrder =
      ((regularTargets targets).map fun t => groupTag (measured flag t)).eraseDups := by
    simp only [runNetworkDiagnostic, reportOf, List.map_map]
    rfl
  rw [order, List.mem_eraseDups]
  simp only [groupTag_measured, List.mem_map, membersOf, ne_eq, List.filter_eq_nil_iff, decide_eq_true_eq,
    not_forall, not_not]
  constructor
  · rintro ⟨t, member, tagged⟩
    exact ⟨t, member, tagged⟩
  · rintro ⟨t, member, tagged⟩
    exact ⟨t, member, tagged⟩

/-- A group of the live report is the pillar of the members of its tag. -/
theorem group_eq {tag : List Char} {group : NetworkPillarResult}
    (h : group ∈ (runNetworkDiagnostic flag net telemetry targets).1.groups tag) :
    membersOf targets tag ≠ [] ∧ group = pillarOf flag (membersOf targets tag) := by
  rw [runNetworkDiagnostic_groups] at h
  split at h
  · cases h
  · exact ⟨‹_›, (Option.some.inj h).symm⟩

/-- The reasons of a group are among those of the report. -/
theorem group_reason {tag : List Char} {group : NetworkPillarResult}
    (h : group ∈ (runNetworkDiagnostic flag net telemetry targets).1.groups tag) {reason : AlertReason}
    (member : reason ∈ groupReasons tag group) :
    reason ∈ alertReasons (runNetworkDiagnostic flag net telemetry targets).1 :=
  mem_alertReasons.mpr (.inr (.inl ⟨tag, mem_groupOrder.mpr (group_eq h).1, group, h, member⟩))

/-- A figure of the group reaches its averaged critical threshold, which is not below the default. -/
def CriticalByDefault (targets : List NetworkTarget) (group : NetworkPillarResult) : Prop :=
  (defaultLossCriticalPct ≤ groupLossCrit targets ∧ ∃ loss ∈ group.packetLoss, groupLossCrit targets ≤ loss) ∨
    (defaultLatencyCriticalMs ≤ groupLatCrit targets ∧ groupLatCrit targets < group.latencyMs)

/-- The group has packet loss, or its averaged warning latency is not below the default. -/
def WarningByDefault (targets : List NetworkTarget) (group : NetworkPillarResult) : Prop :=
  (∃ loss ∈ group.packetLoss, 0 < loss) ∨ defaultLatencyWarningMs ≤ groupLatWarn targets

variable {tag : List Char}

theorem pillarOf_warning (h : (pillarOf flag members).status = .warning) :
    (∃ loss ∈ (pillarOf flag members).packetLoss, 0 < loss) ∨
      groupLatWarn (members.map Prod.fst) < (pillarOf flag members).latencyMs := by
  rw [pillarOf_eq] at h ⊢
  simp only [evaluatePillarStatus] at h ⊢
  split at h
  · cases h
  · split at h
    · cases h
    · split at h
      · rename_i warning
        rcases warning with ⟨lossy, high⟩ | slow
        · obtain ⟨loss, hloss⟩ := Option.isSome_iff_exists.mp lossy
          rw [hloss] at high
          exact .inl ⟨loss, hloss, high⟩
        · exact .inr slow
      · split at h <;> cases h

theorem pillarOf_calm (h : (pillarOf flag members).status = .optimal ∨ (pillarOf flag members).status = .reachable) :
    (∀ loss ∈ (pillarOf flag members).packetLoss, loss ≤ 0) ∧
    (pillarOf flag members).latencyMs ≤ groupLatWarn (members.map Prod.fst) := by
  rw [pillarOf_eq] at h ⊢
  simp only [evaluatePillarStatus] at h ⊢
  split at h
  · rcases h with h | h <;> cases h
  · split at h
    · rcases h with h | h <;> cases h
    · split at h
      · rcases h with h | h <;> cases h
      · rename_i calm
        rw [not_or, not_and, not_lt, not_lt] at calm
        refine ⟨fun loss hloss => ?_, calm.2⟩
        have here := calm.1 (Option.isSome_iff_exists.mpr ⟨loss, hloss⟩)
        rwa [hloss] at here

/-- A silent group of pings or a critical one makes the report critical. -/
theorem severity_critical {group : NetworkPillarResult}
    (h : group ∈ (runNetworkDiagnostic flag net telemetry targets).1.groups tag)
    (bad : (icmpProbes ((membersOf targets tag).map (measured flag)) ≠ [] ∧
      ∀ t ∈ membersOf targets tag, (measured flag t).successfulProbes = 0) ∨
      (group.status = .critical ∧ CriticalByDefault ((membersOf targets tag).map Prod.fst) group)) :
    (runNetworkDiagnostic flag net telemetry targets).1.severity = .critical := by
  obtain ⟨-, rfl⟩ := group_eq h
  have byLoss : ∀ loss ∈ (pillarOf flag (membersOf targets tag)).packetLoss, defaultLossCriticalPct ≤ loss →
      (runNetworkDiagnostic flag net telemetry targets).1.severity = .critical := by
    intro loss shown high
    refine severity_critical_iff.mpr ⟨.lossCritical tag loss, group_reason h (List.mem_append_left _ ?_), rfl⟩
    rw [shown]
    simp [lossReasons_critical high]
  rcases bad with ⟨pinged, silent⟩ | ⟨-, ⟨lax, loss, shown, high⟩ | ⟨lax, slow⟩⟩
  · refine byLoss 100 ?_ (by decide +kernel)
    rw [pillarOf_loss, if_pos pinged]
    refine loss_of_silence pinged fun p member => ?_
    obtain ⟨t, member', rfl⟩ := List.mem_map.mp (List.mem_filter.mp member).1
    exact silent t member'
  · exact byLoss loss shown (lax.trans high)
  · refine severity_critical_iff.mpr
      ⟨.latencyCritical tag (pillarOf flag (membersOf targets tag)).latencyMs,
        group_reason h (List.mem_append_right _ ?_), rfl⟩
    rw [latencyReasons_critical (lax.trans_lt slow)]
    exact List.mem_singleton_self _

/-- A group with a warning makes the report at least a warning. -/
theorem severity_warning {group : NetworkPillarResult}
    (h : group ∈ (runNetworkDiagnostic flag net telemetry targets).1.groups tag)
    (warning : group.status = .warning) (byDefault : WarningByDefault ((membersOf targets tag).map Prod.fst) group) :
    Severity.warning.rank ≤ (runNetworkDiagnostic flag net telemetry targets).1.severity.rank := by
  obtain ⟨-, rfl⟩ := group_eq h
  have found : ∃ reason, reason ∈ groupReasons tag (pillarOf flag (membersOf targets tag)) := by
    have byLoss {loss : ℚ} (shown : loss ∈ (pillarOf flag (membersOf targets tag)).packetLoss) (lossy : 0 < loss) :
        ∃ reason, reason ∈ groupReasons tag (pillarOf flag (membersOf targets tag)) := by
      obtain ⟨reason, member⟩ := List.exists_mem_of_ne_nil _ (lossReasons_ne_nil tag lossy)
      refine ⟨reason, List.mem_append_left _ ?_⟩
      rw [shown]
      simpa using member
    rcases byDefault with ⟨loss, shown, lossy⟩ | lax
    · exact byLoss shown lossy
    · rcases pillarOf_warning warning with ⟨loss, shown, lossy⟩ | slow
      · exact byLoss shown lossy
      · obtain ⟨reason, member⟩ := List.exists_mem_of_ne_nil _ (latencyReasons_ne_nil tag (lax.trans_lt slow))
        exact ⟨reason, List.mem_append_right _ member⟩
  obtain ⟨reason, member⟩ := found
  exact (warning_le reason).trans (rank_le_severity (group_reason h member))

/-- Where nothing is wrong there is no alert. -/
theorem severity_none
    (gateway : ∀ g ∈ (runNetworkDiagnostic flag net telemetry targets).1.gateway, g.status = .optimal ∨
      g.status = .reachable)
    (groups : ∀ tag, ∀ group ∈ (runNetworkDiagnostic flag net telemetry targets).1.groups tag,
      (group.status = .optimal ∨ group.status = .reachable) ∧
      groupLatWarn ((membersOf targets tag).map Prod.fst) ≤ defaultLatencyWarningMs)
    (agent : ∀ t ∈ telemetry, telemetryReasons t = []) :
    (runNetworkDiagnostic flag net telemetry targets).1.severity = .none := by
  refine severity_none_iff.mpr (List.eq_nil_iff_forall_not_mem.mpr fun reason member => ?_)
  rcases mem_alertReasons.mp member with ⟨g, hg, member⟩ | ⟨tag, -, group, h, member⟩ | ⟨t, ht, member⟩
  · rcases gateway g hg with status | status <;> simp [gatewayReasons, status] at member
  · obtain ⟨calm, lax⟩ := groups tag group h
    obtain ⟨-, rfl⟩ := group_eq h
    obtain ⟨lossless, fast⟩ := pillarOf_calm calm
    rcases List.mem_append.mp member with member | member
    · obtain ⟨loss, hloss, member⟩ := List.mem_flatMap.mp member
      have none_lost := lossless loss (Option.mem_toList.mp hloss)
      have high : ¬defaultLossCriticalPct ≤ loss := fun h => absurd (h.trans none_lost) (by decide +kernel)
      rw [lossReasons, if_neg high, if_neg (not_lt.mpr none_lost)] at member
      cases member
    · have warn := fast.trans lax
      have order : defaultLatencyWarningMs ≤ defaultLatencyCriticalMs := by decide +kernel
      rw [latencyReasons, if_neg (not_lt.mpr (warn.trans order)), if_neg (not_lt.mpr warn)] at member
      cases member
  · rw [agent t ht] at member
    cases member

/-! ### Changes for the worse -/

/-- The same target, measured the same way. -/
def Same (flag : Bool) (t t' : NetworkTarget × Network) : Prop :=
  t'.1 = t.1 ∧ (measured flag t').probeMethod = (measured flag t).probeMethod

/-- Changes for the worse in a group: slower replies; or fewer of them, of which the lost ones are not those that
    kept the mean latency up, and not the last ones of a group without pings. -/
inductive Worsens (flag : Bool) (members members' : List (NetworkTarget × Network)) : Prop where
  | slower (each : List.Forall₂ (fun t t' => Same flag t t' ∧
    (measured flag t').successfulProbes = (measured flag t).successfulProbes ∧
      (measured flag t).latencyMs ≤ (measured flag t').latencyMs) members members')
  | fewer (each : List.Forall₂ (fun t t' => Same flag t t' ∧
    (measured flag t').successfulProbes ≤ (measured flag t).successfulProbes) members members')
      (mean : meanLatency (counted flag members) ≤ meanLatency (counted flag members') ∨
        replies (counted flag members') = 0)
      (remains : icmpProbes (members.map (measured flag)) ≠ [] ∨ replies (counted flag members) = 0 ∨
        0 < replies (counted flag members'))

/-- Changes for the worse of a gateway, which still answers. -/
structure GatewayWorsens (g g' : NetworkPillarResult) : Prop where
  lossy : g'.packetLoss.isSome = g.packetLoss.isSome
  loss : g.packetLoss.getD 0 ≤ g'.packetLoss.getD 0
  latency : g.latencyMs ≤ g'.latencyMs
  answers : g.successfulProbes = 0 ∨ (g'.totalProbes ≠ 0 ∧ g'.successfulProbes ≠ 0)

/-- What one probe of a group is to the one that takes its place. -/
structure Follows (p p' : NetworkTargetProbe) : Prop where
  method : p'.probeMethod = p.probeMethod
  total : p'.totalProbes = p.totalProbes
  failed : p.failedProbes ≤ p'.failedProbes
  successful : p'.successfulProbes ≤ p.successfulProbes

theorem follows {t t' : NetworkTarget × Network} (same : Same flag t t')
    (fewer : (measured flag t').successfulProbes ≤ (measured flag t).successfulProbes) :
      Follows (measured flag t) (measured flag t') := by
  have before : Measurement t.1 (measured flag t) := probeTarget_spec t.1
  have after : Measurement t'.1 (measured flag t') := probeTarget_spec t'.1
  have total : (measured flag t').totalProbes = (measured flag t).totalProbes := by
    rw [before.total, after.total, same.1]
  refine ⟨same.2, total, ?_, fewer⟩
  rw [before.failed, after.failed, total]
  omega

variable {R : NetworkTargetProbe → NetworkTargetProbe → Prop} {ps ps' : List NetworkTargetProbe}

/-- Measured the same way, probes are sorted the same way. -/
theorem forall_icmp (keeps : ∀ p p', R p p' → p'.probeMethod = p.probeMethod) (each : List.Forall₂ R ps ps') :
    List.Forall₂ R (icmpProbes ps) (icmpProbes ps') := by
  refine List.rel_filter (fun p p' h => ?_) each
  simp only [keeps p p' h]

theorem forall_tcp (keeps : ∀ p p', R p p' → p'.probeMethod = p.probeMethod) (each : List.Forall₂ R ps ps') :
    List.Forall₂ R (tcpProbes ps) (tcpProbes ps') := by
  refine List.rel_filter (fun p p' h => ?_) each
  simp only [keeps p p' h]

theorem icmp_nil_iff (keeps : ∀ p p', R p p' → p'.probeMethod = p.probeMethod) (each : List.Forall₂ R ps ps') :
    icmpProbes ps = [] ↔ icmpProbes ps' = [] := by
  have lengths := (forall_icmp keeps each).length_eq
  rw [← List.length_eq_zero_iff, ← List.length_eq_zero_iff, lengths]

theorem forall_counted (keeps : ∀ p p', R p p' → p'.probeMethod = p.probeMethod)
    (each : List.Forall₂ R (members.map (measured flag)) (members'.map (measured flag))) :
    List.Forall₂ R (counted flag members) (counted flag members') := by
  have empty := icmp_nil_iff keeps each
  unfold counted
  by_cases pinged : icmpProbes (members.map (measured flag)) = []
  · rw [if_neg (not_not.mpr pinged), if_neg (not_not.mpr (empty.mp pinged))]
    exact forall_tcp keeps each
  · rw [if_pos pinged, if_pos (mt empty.mpr pinged)]
    exact forall_icmp keeps each

/-- Fewer replies, no less loss. -/
theorem lossOf_le (each : List.Forall₂ Follows ps ps') {loss : ℚ} (h : lossOf ps = some loss) :
    ∃ loss', lossOf ps' = some loss' ∧ loss ≤ loss' := by
  have totals : (ps'.map (·.totalProbes)).sum = (ps.map (·.totalProbes)).sum := by
    clear h
    induction each with
    | nil => rfl
    | cons head _ ih => simp only [List.map_cons, List.sum_cons, head.total, ih]
  have failures : (ps.map (·.failedProbes)).sum ≤ (ps'.map (·.failedProbes)).sum := by
    refine List.Forall₂.sum_le_sum ?_
    simp only [List.forall₂_map_left_iff, List.forall₂_map_right_iff]
    exact each.imp fun _ _ f => f.failed
  simp only [lossOf_exact] at h ⊢
  rw [totals]
  split at h
  · rename_i positive
    refine ⟨_, if_pos positive, ?_⟩
    rw [← Option.some.inj h]
    have total : (0 : ℚ) < (((ps.map (·.totalProbes)).sum : Int) : ℚ) := by exact_mod_cast positive
    have failed : (((ps.map (·.failedProbes)).sum : Int) : ℚ) ≤ (((ps'.map (·.failedProbes)).sum : Int) : ℚ) := by
      exact_mod_cast failures
    have rounded := mathRound_mono (mul_le_mul_of_nonneg_right (div_le_div_of_nonneg_right failed total.le)
      (by norm_num : (0 : ℚ) ≤ 1000))
    exact div_le_div_of_nonneg_right rounded (by norm_num)
  · cases h

theorem replies_le (each : List.Forall₂ Follows ps ps') : replies ps' ≤ replies ps := by
  unfold replies
  refine List.Forall₂.sum_le_sum ?_
  simp only [List.forall₂_map_left_iff, List.forall₂_map_right_iff]
  exact each.flip.imp fun _ _ f => f.successful

/-- The mean does not drop, and neither does the latency shown while there are replies. -/
theorem latencyOf_le (nonneg : ∀ p ∈ ps, 0 ≤ p.successfulProbes) (nonneg' : ∀ p ∈ ps', 0 ≤ p.successfulProbes)
    (fewer : replies ps' ≤ replies ps) (mean : meanLatency ps ≤ meanLatency ps')
    (remains : replies ps = 0 ∨ 0 < replies ps') :
    latencyOf ps ≤ latencyOf ps' := by
  rw [latencyOf_eq nonneg, latencyOf_eq nonneg']
  rcases remains with silent | answered
  · rw [if_neg (by omega), if_neg (by omega)]
  · rw [if_pos (by omega), if_pos answered]
    exact round1_mono mean

theorem meanLatency_le
    (each : List.Forall₂ (fun p p' => p'.successfulProbes = p.successfulProbes ∧ p.latencyMs ≤ p'.latencyMs) ps ps')
    (nonneg : ∀ p ∈ ps, 0 ≤ p.successfulProbes) : replies ps' = replies ps ∧ meanLatency ps ≤ meanLatency ps' := by
  have sums : replies ps' = replies ps ∧ repliesMs ps ≤ repliesMs ps' ∧ 0 ≤ replies ps := by
    unfold replies repliesMs
    induction each with
    | nil => exact ⟨rfl, le_refl _, le_refl _⟩
    | @cons p p' ps ps' head _ ih =>
      obtain ⟨count, sum, total⟩ := ih fun q member => nonneg q (List.mem_cons_of_mem _ member)
      have here := nonneg p (List.mem_cons_self ..)
      simp only [List.map_cons, List.sum_cons, head.1, count, true_and]
      refine ⟨add_le_add (mul_le_mul_of_nonneg_right head.2 ?_) sum, Int.add_nonneg here total⟩
      exact_mod_cast here
  refine ⟨sums.1, ?_⟩
  unfold meanLatency
  rw [sums.1]
  exact div_le_div_of_nonneg_right sums.2.1 (by exact_mod_cast sums.2.2)

theorem Worsens.follows (worse : Worsens flag members members') :
    List.Forall₂ Follows (members.map (measured flag)) (members'.map (measured flag)) := by
  simp only [List.forall₂_map_left_iff, List.forall₂_map_right_iff]
  cases worse with
  | slower each => exact each.imp fun _ _ h => ReportSeverity.follows h.1 h.2.1.le
  | fewer each _ _ => exact each.imp fun _ _ h => ReportSeverity.follows h.1 h.2

/-- The latency shown does not drop, or no ping is answered any more. -/
theorem Worsens.latency (worse : Worsens flag members members') :
    latencyOf (counted flag members) ≤ latencyOf (counted flag members') ∨
      (icmpProbes (members'.map (measured flag)) ≠ [] ∧
        ∀ p ∈ icmpProbes (members'.map (measured flag)), p.successfulProbes = 0) := by
  have pings := icmp_nil_iff (fun _ _ => Follows.method) worse.follows
  have count := replies_le (forall_counted (fun _ _ => Follows.method) worse.follows)
  cases worse with
  | slower each =>
    have probes : List.Forall₂ (fun p p' : NetworkTargetProbe => p'.probeMethod = p.probeMethod ∧
      p'.successfulProbes = p.successfulProbes ∧
        p.latencyMs ≤ p'.latencyMs) (members.map (measured flag)) (members'.map (measured flag)) := by
      simp only [List.forall₂_map_left_iff, List.forall₂_map_right_iff]
      exact each.imp fun _ _ h => ⟨h.1.2, h.2⟩
    obtain ⟨same, mean⟩ := meanLatency_le ((forall_counted (fun _ _ => And.left) probes).imp fun _ _ => And.right)
      fun p => counted_nonneg
    refine .inl (latencyOf_le (fun p => counted_nonneg) (fun p => counted_nonneg) count mean ?_)
    have nonneg : 0 ≤ replies (counted flag members) := List.sum_nonneg fun n member => by
      obtain ⟨p, hp, rfl⟩ := List.mem_map.mp member
      exact counted_nonneg hp
    omega
  | fewer each mean remains =>
    by_cases silent : 0 < replies (counted flag members) ∧ replies (counted flag members') = 0
    · have pinged : icmpProbes (members.map (measured flag)) ≠ [] := by
        rcases remains with pinged | none | some
        · exact pinged
        · omega
        · omega
      have pinged' := mt pings.mpr pinged
      refine .inr ⟨pinged', fun p member => ?_⟩
      have here : counted flag members' = icmpProbes (members'.map (measured flag)) := if_pos pinged'
      have nonneg : ∀ n ∈ (counted flag members').map (·.successfulProbes), 0 ≤ n := fun n member => by
        obtain ⟨q, hq, rfl⟩ := List.mem_map.mp member
        exact counted_nonneg hq
      have single := List.single_le_sum nonneg _ (List.mem_map.mpr ⟨p, here ▸ member, rfl⟩)
      have bound : p.successfulProbes ≤ replies (counted flag members') := single
      have := counted_nonneg (here ▸ member : p ∈ counted flag members')
      omega
    · have nonneg : 0 ≤ replies (counted flag members') := List.sum_nonneg fun n member => by
        obtain ⟨p, hp, rfl⟩ := List.mem_map.mp member
        exact counted_nonneg hp
      refine .inl (latencyOf_le (fun p => counted_nonneg) (fun p => counted_nonneg) count ?_ (by omega))
      rcases mean with mean | gone
      · exact mean
      · have none : replies (counted flag members) = 0 := by omega
        unfold meanLatency
        rw [none, gone]
        simp

/-- A group that gets worse has reasons at least as severe. -/
theorem groupReasons_mono (worse : Worsens flag members members') {reason : AlertReason}
    (member : reason ∈ groupReasons tag (pillarOf flag members)) :
    ∃ reason' ∈ groupReasons tag (pillarOf flag members'), reason.severity.rank ≤ reason'.severity.rank := by
  have pings := icmp_nil_iff (fun _ _ => Follows.method) worse.follows
  rcases List.mem_append.mp member with member | member
  · obtain ⟨loss, shown, member⟩ := List.mem_flatMap.mp member
    rw [Option.mem_toList, pillarOf_loss] at shown
    split at shown
    · rename_i pinged
      obtain ⟨loss', hloss', higher⟩ := lossOf_le (forall_icmp (fun _ _ => Follows.method) worse.follows) shown
      obtain ⟨reason', member', severe⟩ := lossReasons_mono higher member
      refine ⟨reason', List.mem_append_left _ (List.mem_flatMap.mpr ⟨loss', ?_, member'⟩), severe⟩
      rw [pillarOf_loss, if_pos (mt pings.mpr pinged), hloss']
      exact Option.mem_toList.mpr rfl
    · cases shown
  · rw [pillarOf_latency] at member
    rcases worse.latency with higher | ⟨pinged, silent⟩
    · obtain ⟨reason', member', severe⟩ := latencyReasons_mono higher member
      refine ⟨reason', List.mem_append_right _ ?_, severe⟩
      rwa [pillarOf_latency]
    · have loss : (pillarOf flag members').packetLoss = some 100 := by
        rw [pillarOf_loss, if_pos pinged]
        exact loss_of_silence pinged silent
      refine ⟨.lossCritical tag 100, List.mem_append_left _ ?_, ?_⟩
      · rw [loss]
        simp [lossReasons_critical (by decide +kernel : defaultLossCriticalPct ≤ 100)]
      · exact rank_le_critical _

/-! ### The gateway -/

theorem evaluateGatewayStatus_idem (pillar : NetworkPillarResult) :
    evaluateGatewayStatus (evaluateGatewayStatus pillar) = evaluateGatewayStatus pillar := rfl

theorem probeDefaultGateway_evaluated :
    evaluateGatewayStatus (probeDefaultGateway flag net telemetry) = probeDefaultGateway flag net telemetry := by
  unfold probeDefaultGateway
  dsimp only
  split
  · rfl
  · split
    · rfl
    · split
      · rfl
      · split
        · rfl
        · split <;> rfl

/-- The status of a gateway is the verdict on its own numbers. -/
theorem gateway_evaluated {g : NetworkPillarResult}
    (h : g ∈ (runNetworkDiagnostic flag net telemetry targets).1.gateway) :
    evaluateGatewayStatus g = g := by
  simp only [runNetworkDiagnostic, reportOf] at h
  split at h
  · cases h
    unfold probeGateway
    split
    · split
      · exact evaluateGatewayStatus_idem _
      · exact probeDefaultGateway_evaluated
    · exact probeDefaultGateway_evaluated
  · cases h

theorem gatewayReasons_mono {g g' : NetworkPillarResult} (worse : GatewayWorsens g g')
    (evaluated : evaluateGatewayStatus g = g)
    (evaluated' : evaluateGatewayStatus g' = g') {reason : AlertReason} (member : reason ∈ gatewayReasons g) :
    ∃ reason' ∈ gatewayReasons g', reason.severity.rank ≤ reason'.severity.rank := by
  have status := congrArg NetworkPillarResult.status evaluated
  have status' := congrArg NetworkPillarResult.status evaluated'
  simp only [evaluateGatewayStatus, evaluatePillarStatus] at status status'
  rw [worse.lossy] at status'
  have answers : ¬(g.totalProbes = 0 ∨ g.successfulProbes = 0) → ¬(g'.totalProbes = 0 ∨ g'.successfulProbes = 0) := by
    rintro answered (none | none)
    · exact worse.answers.elim (fun silent => answered (.inr silent)) fun still => still.1 none
    · exact worse.answers.elim (fun silent => answered (.inr silent)) fun still => still.2 none
  unfold gatewayReasons at member ⊢
  split at status
  · simp [← status] at member
  · rename_i answered
    rw [if_neg (answers answered)] at status'
    split at status
    · rename_i critical
      have critical' : (g.packetLoss.isSome = true ∧ defaultGatewayLossCriticalPct ≤ g'.packetLoss.getD 0) ∨
          defaultGatewayLatencyCriticalMs < g'.latencyMs :=
        critical.imp (fun h => ⟨h.1, h.2.trans worse.loss⟩) fun h => h.trans_le worse.latency
      rw [if_pos critical'] at status'
      rw [if_pos status'.symm]
      exact ⟨_, List.mem_singleton_self _, rank_le_critical _⟩
    · split at status
      · rename_i warning
        have warning' : (g.packetLoss.isSome = true ∧ 0 < g'.packetLoss.getD 0) ∨
            defaultGatewayLatencyWarningMs < g'.latencyMs :=
          warning.imp (fun h => ⟨h.1, h.2.trans_le worse.loss⟩) fun h => h.trans_le worse.latency
        rw [if_neg (by rw [← status]; exact nofun), if_pos status.symm] at member
        cases List.mem_singleton.mp member
        rw [if_pos warning'] at status'
        split at status'
        · rw [if_pos status'.symm]
          exact ⟨_, List.mem_singleton_self _, rank_le_critical _⟩
        · rw [if_neg (by rw [← status']; exact nofun), if_pos status'.symm]
          exact ⟨_, List.mem_singleton_self _, le_refl _⟩
      · split at status <;> simp [← status] at member

/-- No change for the worse lowers the severity. -/
theorem severity_mono (gateway : ∀ g ∈ (runNetworkDiagnostic flag net telemetry targets).1.gateway,
      ∃ g' ∈ (runNetworkDiagnostic flag net' telemetry targets').1.gateway, GatewayWorsens g g')
    (groups : ∀ tag, Worsens flag (membersOf targets tag) (membersOf targets' tag)) :
    (runNetworkDiagnostic flag net telemetry targets).1.severity.rank ≤
    (runNetworkDiagnostic flag net' telemetry targets').1.severity.rank := by
  refine severity_le fun reason member => ?_
  rcases mem_alertReasons.mp member with ⟨g, hg, member⟩ | ⟨tag, -, group, h, member⟩ | ⟨t, ht, member⟩
  · obtain ⟨g', hg', worse⟩ := gateway g hg
    obtain ⟨reason', member', severe⟩ := gatewayReasons_mono worse (gateway_evaluated hg) (gateway_evaluated hg') member
    exact ⟨reason', mem_alertReasons.mpr (.inl ⟨g', hg', member'⟩), severe⟩
  · obtain ⟨nonempty, rfl⟩ := group_eq h
    obtain ⟨reason', member', severe⟩ := groupReasons_mono (groups tag) member
    have nonempty' : membersOf targets' tag ≠ [] := by
      have lengths := (groups tag).follows.length_eq
      simp only [List.length_map] at lengths
      rwa [ne_eq, ← List.length_eq_zero_iff, ← lengths, List.length_eq_zero_iff]
    have here : pillarOf flag (membersOf targets' tag)
        ∈ (runNetworkDiagnostic flag net' telemetry targets').1.groups tag := by
      rw [runNetworkDiagnostic_groups, if_neg nonempty']
      rfl
    exact ⟨reason', group_reason here member', severe⟩
  · exact ⟨reason, mem_alertReasons.mpr (.inr (.inr ⟨t, ht, member⟩)), le_refl _⟩

/-- The severity is critical where a group of pings is silent or a group is critical by a threshold not below
    its default, at least a warning where a group has one and loses packets or has a warning latency not below
    the default, none where gateway and groups are optimal or reachable by warning latencies not above the
    default, and not lowered by changes for the worse. -/
theorem severity_sound_and_monotone :
    (∀ tag, ∀ group ∈ (runNetworkDiagnostic flag net telemetry targets).1.groups tag,
        (icmpProbes ((membersOf targets tag).map (measured flag)) ≠ [] ∧
          ∀ t ∈ membersOf targets tag, (measured flag t).successfulProbes = 0) ∨
          (group.status = .critical ∧ CriticalByDefault ((membersOf targets tag).map Prod.fst) group) →
        (runNetworkDiagnostic flag net telemetry targets).1.severity = .critical) ∧
      (∀ tag, ∀ group ∈ (runNetworkDiagnostic flag net telemetry targets).1.groups tag,
        group.status = .warning → WarningByDefault ((membersOf targets tag).map Prod.fst) group →
        Severity.warning.rank ≤ (runNetworkDiagnostic flag net telemetry targets).1.severity.rank) ∧
      ((∀ g ∈ (runNetworkDiagnostic flag net telemetry targets).1.gateway, g.status = .optimal ∨
        g.status = .reachable) →
        (∀ tag, ∀ group ∈ (runNetworkDiagnostic flag net telemetry targets).1.groups tag, (group.status = .optimal ∨
          group.status = .reachable) ∧
          groupLatWarn ((membersOf targets tag).map Prod.fst) ≤ defaultLatencyWarningMs) →
        (∀ t ∈ telemetry, telemetryReasons t = []) →
        (runNetworkDiagnostic flag net telemetry targets).1.severity = .none) ∧
      ∀ (net' : Network) (targets' : List (NetworkTarget × Network)),
        (∀ g ∈ (runNetworkDiagnostic flag net telemetry targets).1.gateway,
          ∃ g' ∈ (runNetworkDiagnostic flag net' telemetry targets').1.gateway, GatewayWorsens g g') →
        (∀ tag, Worsens flag (membersOf targets tag) (membersOf targets' tag)) →
        (runNetworkDiagnostic flag net telemetry targets).1.severity.rank ≤
          (runNetworkDiagnostic flag net' telemetry targets').1.severity.rank :=
  ⟨fun _ _ h bad => severity_critical h bad, fun _ _ h warning byDefault => severity_warning h warning byDefault,
    fun gateway groups agent => severity_none gateway groups agent,
    fun _ _ gateway groups => severity_mono gateway groups⟩

/-- A target with one threshold of its own, or none. -/
def exampleTarget (method : List Char) (criticalMs : Option ℚ) (probes : Int) : NetworkTarget where
  id := "target"
  host := "203.0.113.7".toList
  port := 0
  tag := "edge".toList
  probeMethod := method
  probesPerRun := probes
  alertLatencyWarningMs := none
  alertLatencyCriticalMs := criticalMs
  alertLossCriticalPct := none
  enabled := true
  isGateway := false

/-- A network where so many pings are answered, in so many milliseconds on average, and no connection is accepted. -/
def pingNet (received : Nat) (avgMs : ℚ) : Network where
  beforePing := .error "no such host"
  byPing := .error "no such host"
  beforeDial := .error "no such host"
  ping := .output ⟨some (if received = 0 then 100 else 0), some received, some (avgMs, avgMs, avgMs)⟩
  dials _ := .error "connection refused"

/-- The report on this target alone. -/
def exampleReport (t : NetworkTarget) (net : Network) : NetworkDiagnosticReport :=
  (runNetworkDiagnostic false net none [(t, net)]).1

/-- A target without thresholds of its own, from calm to slow to silent. -/
theorem severity_follows :
    (exampleReport (exampleTarget icmp none 10) (pingNet 10 10)).severity = .none ∧
      Severity.warning.rank ≤ (exampleReport (exampleTarget icmp none 10) (pingNet 10 60)).severity.rank ∧
      (exampleReport (exampleTarget icmp none 10) (pingNet 0 0)).severity = .critical ∧
      (exampleReport (exampleTarget icmp none 10) (pingNet 10 10)).severity.rank ≤
        (exampleReport (exampleTarget icmp none 10) (pingNet 10 60)).severity.rank := by
  have only (net : Network) (tag : List Char) (group : NetworkPillarResult)
      (h : group ∈ (exampleReport (exampleTarget icmp none 10) net).groups tag) : tag = "edge".toList := by
    by_contra other
    obtain ⟨nonempty, -⟩ := group_eq h
    refine nonempty (List.filter_eq_nil_iff.mpr fun t member => ?_)
    rw [List.mem_singleton.mp member]
    exact fun here => other (of_decide_eq_true here).symm
  have here (net : Network) :
      pillarOf false [(exampleTarget icmp none 10, net)] ∈ (exampleReport
        (exampleTarget icmp none 10) net).groups "edge".toList := by
    rw [exampleReport, runNetworkDiagnostic_groups]
    rfl
  refine ⟨?_, ?_, ?_, ?_⟩
  · refine severity_sound_and_monotone.2.2.1 (fun g hg => by cases hg) (fun tag group h => ?_) (fun t ht => by cases ht)
    cases only _ tag group h
    rw [(group_eq h).2]
    exact ⟨.inl (by decide +kernel), by decide +kernel⟩
  · exact severity_sound_and_monotone.2.1 _ _ (here (pingNet 10 60)) (by decide +kernel) (.inr (by decide +kernel))
  · refine severity_sound_and_monotone.1 _ _ (here (pingNet 0 0)) (.inl ⟨by decide +kernel, fun t member => ?_⟩)
    rw [List.mem_singleton.mp member]
    decide +kernel
  · refine severity_sound_and_monotone.2.2.2 _ _ (fun g hg => by cases hg) fun tag => .slower ?_
    refine List.rel_filter (fun t t' h => ?_)
      (List.rel_filter (fun t t' h => ?_) (.cons ⟨⟨rfl, by decide +kernel⟩, by decide +kernel, by decide +kernel⟩ .nil))
    · simp only [h.1.1]
    · simp only [h.1.1]

/-- A group over TCP that is down, or a group beyond its own threshold, leaves the severity at none; and where
    the one slow reply out of ten is lost, the severity falls. -/
theorem severity_unsound :
    ((∀ t ∈ membersOf [(exampleTarget tcp none 5, pingNet 0 0)] "edge".toList,
      (measured false t).successfulProbes = 0) ∧
        (exampleReport (exampleTarget tcp none 5) (pingNet 0 0)).severity = .none) ∧
      (((exampleReport (exampleTarget icmp (some 30) 5) (pingNet 5 40)).groups "edge".toList).map (·.status) =
        some .critical ∧
        (exampleReport (exampleTarget icmp (some 30) 5) (pingNet 5 40)).severity = .none) ∧
      (exampleReport (exampleTarget icmp none 10) (pingNet 9 10)).severity.rank <
        (exampleReport (exampleTarget icmp none 10) (pingNet 10 160)).severity.rank := by
  refine ⟨⟨fun t member => ?_, by decide +kernel⟩, ⟨by decide +kernel, by decide +kernel⟩, by decide +kernel⟩
  rw [List.mem_singleton.mp member]
  decide +kernel

end ReportSeverity
end DatrixOps
