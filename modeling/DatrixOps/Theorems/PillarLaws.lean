import Mathlib.Data.List.Dedup
import Mathlib.Data.Set.Finite.Lemmas
import DatrixOps.Diagnostics.Report

/-! What the pillar of some probes says of them, and how the probes of a run are divided among the groups. -/

namespace DatrixOps
namespace PillarLaws
open Golang Diagnostics

attribute [local instance] Arithmetic.exact

/-! ### The loops of the code -/

/-- The probes by ICMP and the others. -/
def sortOut (sorted : List NetworkTargetProbe × List NetworkTargetProbe) (p : NetworkTargetProbe) :
    List NetworkTargetProbe × List NetworkTargetProbe :=
  if p.probeMethod = icmp then (sorted.1 ++ [p], sorted.2) else (sorted.1, sorted.2 ++ [p])

/-- The variables of the loop over the probes of one method. -/
structure Tally where
  total : Int := 0
  failed : Int := 0
  latencySum : ℚ := 0
  successCount : Int := 0

/-- One turn of the loop. -/
def Tally.add (t : Tally) (p : NetworkTargetProbe) : Tally where
  total := t.total + p.totalProbes
  failed := t.failed + p.failedProbes
  latencySum := if 0 < p.successfulProbes then t.latencySum + p.latencyMs * (p.successfulProbes : ℚ) else t.latencySum
  successCount := if 0 < p.successfulProbes then t.successCount + p.successfulProbes else t.successCount

/-- The loss that the variables give. -/
def Tally.loss (t : Tally) : Option ℚ :=
  if 0 < t.total then some (mathRound ((t.failed : ℚ) / t.total * 1000) / 10) else none

/-- The latency that the variables give. -/
def Tally.latency (t : Tally) : ℚ := if 0 < t.successCount then round1 (t.latencySum / t.successCount) else 0

/-- aggregatePillar, with its loops. -/
def aggregateLoops (probes : List NetworkTargetProbe) (status : NetworkStatus) : NetworkPillarResult :=
  let sorted := probes.foldl sortOut ([], [])
  let totals := probes.foldl (fun (n : Int × Int × Int) p =>
    (n.1 + p.totalProbes, n.2.1 + p.successfulProbes, n.2.2 + p.failedProbes)) (0, 0, 0)
  { status
    measurementMethod :=
      if sorted.1 ≠ [] ∧ sorted.2 ≠ [] then .mixed else if sorted.1 ≠ [] then .icmp
        else if sorted.2 ≠ [] then .tcp else .icmp
    totalProbes := totals.1
    successfulProbes := totals.2.1
    failedProbes := totals.2.2
    packetLoss := if sorted.1 ≠ [] then (sorted.1.foldl Tally.add {}).loss else none
    latencyMs :=
      if sorted.1 ≠ [] then (sorted.1.foldl Tally.add {}).latency
      else if sorted.2 ≠ [] then (sorted.2.foldl Tally.add {}).latency else 0 }

variable {probes probes' : List NetworkTargetProbe} {status : NetworkStatus}

theorem foldl_sortOut (sorted : List NetworkTargetProbe × List NetworkTargetProbe) :
    probes.foldl sortOut sorted = (sorted.1 ++ icmpProbes probes, sorted.2 ++ tcpProbes probes) := by
  induction probes generalizing sorted with
  | nil => simp [icmpProbes, tcpProbes]
  | cons p probes ih =>
    rw [List.foldl_cons, ih, sortOut]
    by_cases byIcmp : p.probeMethod = icmp
    · simp [icmpProbes, tcpProbes, byIcmp]
    · simp [icmpProbes, tcpProbes, byIcmp]

theorem foldl_totals (n : Int × Int × Int) :
    probes.foldl (fun (n : Int × Int × Int) p =>
      (n.1 + p.totalProbes, n.2.1 + p.successfulProbes, n.2.2 + p.failedProbes)) n =
      (n.1 + (probes.map (·.totalProbes)).sum, n.2.1 + (probes.map (·.successfulProbes)).sum,
        n.2.2 + (probes.map (·.failedProbes)).sum) := by
  induction probes generalizing n with
  | nil => simp
  | cons p probes ih => simp [ih, Int.add_assoc]

/-- The successful ones, which are averaged. -/
def answered (probes : List NetworkTargetProbe) : List NetworkTargetProbe :=
  probes.filter fun p => 0 < p.successfulProbes

theorem foldl_tally (t : Tally) : probes.foldl Tally.add t =
    ⟨t.total + (probes.map (·.totalProbes)).sum, t.failed + (probes.map (·.failedProbes)).sum,
      t.latencySum + ((answered probes).map fun p => p.latencyMs * (p.successfulProbes : ℚ)).sum,
      t.successCount + ((answered probes).map (·.successfulProbes)).sum⟩ := by
  induction probes generalizing t with
  | nil => simp [answered]
  | cons p probes ih =>
    rw [List.foldl_cons, ih, Tally.add]
    by_cases success : 0 < p.successfulProbes
    · simp [answered, success, add_assoc]
    · simp [answered, success, Int.add_assoc]

theorem tally_loss : (probes.foldl Tally.add {}).loss = lossOf probes := by
  simp only [foldl_tally, Tally.loss, lossOf_exact, zero_add]

theorem tally_latency : (probes.foldl Tally.add {}).latency = latencyOf probes := by
  simp only [foldl_tally, Tally.latency, latencyOf_exact, zero_add, answered]

theorem aggregatePillar_loops : aggregatePillar probes status = aggregateLoops probes status := by
  simp only [aggregateLoops, foldl_sortOut, foldl_totals, List.nil_append, zero_add, tally_loss, tally_latency,
    aggregatePillar]
  by_cases someIcmp : icmpProbes probes = []
  · by_cases someTcp : tcpProbes probes = []
    · simp [someIcmp, someTcp, latencyOf]
    · simp [someIcmp, someTcp]
  · simp [someIcmp]

/-! ### Probes together -/

/-- The counts of a probe. -/
structure Counted (p : NetworkTargetProbe) : Prop where
  successful : 0 ≤ p.successfulProbes
  failed : 0 ≤ p.failedProbes
  total : p.successfulProbes + p.failedProbes = p.totalProbes

/-- The probes whose latencies make up that of the pillar. -/
def averaged (probes : List NetworkTargetProbe) : List NetworkTargetProbe :=
  answered (if icmpProbes probes ≠ [] then icmpProbes probes else tcpProbes probes)

theorem icmpProbes_perm (perm : probes.Perm probes') : (icmpProbes probes).Perm (icmpProbes probes') := perm.filter _

theorem tcpProbes_perm (perm : probes.Perm probes') : (tcpProbes probes).Perm (tcpProbes probes') := perm.filter _

theorem lossOf_perm (perm : probes.Perm probes') : lossOf probes = lossOf probes' := by
  simp only [lossOf, (perm.map _).sum_eq]

theorem latencyOf_perm (perm : probes.Perm probes') : latencyOf probes = latencyOf probes' := by
  simp only [latencyOf_exact, ((perm.filter _).map _).sum_eq]

theorem eq_nil_iff_of_perm (perm : probes.Perm probes') : probes = [] ↔ probes' = [] := by
  rw [← List.length_eq_zero_iff, perm.length_eq, List.length_eq_zero_iff]

theorem aggregatePillar_perm (perm : probes.Perm probes') :
    aggregatePillar probes status = aggregatePillar probes' status := by
  simp only [aggregatePillar, ne_eq, eq_nil_iff_of_perm (icmpProbes_perm perm),
    eq_nil_iff_of_perm (tcpProbes_perm perm),
    (perm.map _).sum_eq, lossOf_perm (icmpProbes_perm perm), latencyOf_perm (icmpProbes_perm perm),
    latencyOf_perm (tcpProbes_perm perm)]

theorem sum_failed_bounds (counted : ∀ p ∈ probes, Counted p) :
    0 ≤ (probes.map (·.failedProbes)).sum ∧ (probes.map (·.failedProbes)).sum ≤ (probes.map (·.totalProbes)).sum := by
  induction probes with
  | nil => simp
  | cons p probes ih =>
    obtain ⟨successful, failed, total⟩ := counted p List.mem_cons_self
    obtain ⟨nonneg, le⟩ := ih fun q hq => counted q (List.mem_cons_of_mem _ hq)
    rw [List.map_cons, List.sum_cons, List.map_cons, List.sum_cons]
    omega

theorem percent_bounds {failed total : Int} (nonneg : 0 ≤ failed) (le : failed ≤ total) (pos : 0 < total) :
    0 ≤ mathRound ((failed : ℚ) / total * 1000) / 10 ∧ mathRound ((failed : ℚ) / total * 1000) / 10 ≤ 100 := by
  have positive : (0 : ℚ) < total := by exact_mod_cast pos
  have low : (0 : ℚ) ≤ failed / total := div_nonneg (by exact_mod_cast nonneg) positive.le
  have high : (failed : ℚ) / total ≤ 1 := (div_le_one positive).mpr (by exact_mod_cast le)
  have least : mathRound 0 ≤ mathRound ((failed : ℚ) / total * 1000) := mathRound_mono (by linarith)
  have greatest : mathRound ((failed : ℚ) / total * 1000) ≤ mathRound 1000 := mathRound_mono (by linarith)
  have zero : mathRound 0 = 0 := by decide +kernel
  have thousand : mathRound 1000 = 1000 := by decide +kernel
  constructor
  · linarith
  · linarith

theorem lossOf_bounds (counted : ∀ p ∈ probes, Counted p) {loss : ℚ} (set : lossOf probes = some loss) :
    0 ≤ loss ∧ loss ≤ 100 := by
  obtain ⟨nonneg, le⟩ := sum_failed_bounds counted
  rw [lossOf_exact] at set
  by_cases pos : 0 < (probes.map (·.totalProbes)).sum
  · rw [if_pos pos] at set
    obtain rfl := Option.some.inj set
    exact percent_bounds nonneg le pos
  · rw [if_neg pos] at set
    cases set

/-- A sum of latencies by their weights lies between the bounds of the latencies. -/
theorem latencySum_bounds {lo hi : ℚ} (bounds : ∀ p ∈ probes, lo ≤ p.latencyMs ∧ p.latencyMs ≤ hi)
    (weights : ∀ p ∈ probes, 0 < p.successfulProbes) :
    lo * ((probes.map (·.successfulProbes)).sum : Int) ≤
      (probes.map fun p => p.latencyMs * (p.successfulProbes : ℚ)).sum ∧
      (probes.map fun p => p.latencyMs * (p.successfulProbes : ℚ)).sum ≤
        hi * ((probes.map (·.successfulProbes)).sum : Int) := by
  induction probes with
  | nil => simp
  | cons p probes ih =>
    obtain ⟨low, high⟩ := ih (fun q hq => bounds q (List.mem_cons_of_mem _ hq)) fun q hq =>
      weights q (List.mem_cons_of_mem _ hq)
    obtain ⟨lowest, highest⟩ := bounds p List.mem_cons_self
    have weight : (0 : ℚ) ≤ p.successfulProbes := by exact_mod_cast (weights p List.mem_cons_self).le
    have below := mul_le_mul_of_nonneg_right lowest weight
    have above := mul_le_mul_of_nonneg_right highest weight
    simp only [List.map_cons, List.sum_cons, Int.cast_add, mul_add]
    constructor
    · linarith
    · linarith

theorem latencyOf_bounds {lo hi : ℚ} (bounds : ∀ p ∈ answered probes, lo ≤ p.latencyMs ∧ p.latencyMs ≤ hi) :
    latencyOf probes = 0 ∨ round1 lo ≤ latencyOf probes ∧ latencyOf probes ≤ round1 hi := by
  have weights : ∀ p ∈ answered probes, 0 < p.successfulProbes := fun p hp => by simpa using (List.mem_filter.mp hp).2
  obtain ⟨low, high⟩ := latencySum_bounds bounds weights
  by_cases pos : 0 < ((answered probes).map (·.successfulProbes)).sum
  · have positive : (0 : ℚ) < ((answered probes).map (·.successfulProbes)).sum := by exact_mod_cast pos
    have mean : latencyOf probes = round1 (((answered probes).map fun p => p.latencyMs * (p.successfulProbes : ℚ)).sum /
        (((answered probes).map (·.successfulProbes)).sum : Int)) :=
      latencyOf_exact.trans (if_pos pos)
    rw [mean]
    exact Or.inr ⟨round1_mono ((le_div_iff₀ positive).mpr low), round1_mono ((div_le_iff₀ positive).mpr high)⟩
  · exact Or.inl (if_neg pos)

theorem latencyOf_of_silent (none_ : answered probes = []) : latencyOf probes = 0 := by
  rw [answered] at none_
  simp [latencyOf, none_]

/-- What holds of the pillar that some probes with a status make. -/
structure Laws (probes : List NetworkTargetProbe) (status : NetworkStatus) : Prop where
  loops : aggregatePillar probes status = aggregateLoops probes status
  permutation : ∀ probes', probes'.Perm probes → aggregatePillar probes' status = aggregatePillar probes status
  totals : (aggregatePillar probes status).totalProbes = (probes.map (·.totalProbes)).sum ∧
    (aggregatePillar probes status).successfulProbes = (probes.map (·.successfulProbes)).sum ∧
    (aggregatePillar probes status).failedProbes = (probes.map (·.failedProbes)).sum
  icmpOnly : icmpProbes probes ≠ [] → ∀ probes', icmpProbes probes' = icmpProbes probes →
    (aggregatePillar probes' status).latencyMs = (aggregatePillar probes status).latencyMs ∧
      (aggregatePillar probes' status).packetLoss = (aggregatePillar probes status).packetLoss
  loss : ∀ loss, (aggregatePillar probes status).packetLoss = some loss → 0 ≤ loss ∧ loss ≤ 100
  /-- The latency is none, or lies between the least and the greatest of those averaged, to one decimal. -/
  latency : (aggregatePillar probes status).latencyMs = 0 ∨ ∃ p ∈ averaged probes, ∃ q ∈ averaged probes,
    (∀ r ∈ averaged probes, p.latencyMs ≤ r.latencyMs ∧ r.latencyMs ≤ q.latencyMs) ∧
      round1 p.latencyMs ≤ (aggregatePillar probes status).latencyMs ∧
      (aggregatePillar probes status).latencyMs ≤ round1 q.latencyMs

theorem aggregatePillar_latency : (aggregatePillar probes status).latencyMs =
    latencyOf (if icmpProbes probes ≠ [] then icmpProbes probes else tcpProbes probes) := by
  rw [aggregatePillar]
  split
  · rfl
  · rfl

theorem exists_extremes {l : List NetworkTargetProbe} (some_ : l ≠ []) :
    ∃ p ∈ l, ∃ q ∈ l, ∀ r ∈ l, p.latencyMs ≤ r.latencyMs ∧ r.latencyMs ≤ q.latencyMs := by
  have nonempty : Set.Nonempty {p | p ∈ l} := List.exists_mem_of_ne_nil l some_
  obtain ⟨p, hp, least⟩ := Set.exists_min_image {p | p ∈ l} (·.latencyMs) (List.finite_toSet l) nonempty
  obtain ⟨q, hq, greatest⟩ := Set.exists_max_image {p | p ∈ l} (·.latencyMs) (List.finite_toSet l) nonempty
  exact ⟨p, hp, q, hq, fun r hr => ⟨least r hr, greatest r hr⟩⟩

theorem laws_of_counted (counted : ∀ p ∈ probes, Counted p) : Laws probes status where
  loops := aggregatePillar_loops
  permutation _ perm := aggregatePillar_perm perm
  totals := ⟨rfl, rfl, rfl⟩
  icmpOnly some_ probes' same := by
    simp only [aggregatePillar, same, if_pos some_, and_self]
  loss loss set := by
    rw [aggregatePillar] at set
    by_cases some_ : icmpProbes probes ≠ []
    · exact lossOf_bounds (fun p hp => counted p (List.mem_of_mem_filter hp)) ((if_pos some_).symm.trans set)
    · cases (if_neg some_).symm.trans set
  latency := by
    rw [aggregatePillar_latency]
    by_cases none_ : averaged probes = []
    · exact Or.inl (latencyOf_of_silent none_)
    · obtain ⟨p, hp, q, hq, extremes⟩ := exists_extremes none_
      rcases latencyOf_bounds extremes with zero | between
      · exact Or.inl zero
      · exact Or.inr ⟨p, hp, q, hq, extremes, between⟩

/-! ### Groups -/

/-- A list divided by a key. -/
theorem flatMap_filter_perm {α κ : Type} [DecidableEq κ] {key : α → κ} {keys : List κ} (nodup : keys.Nodup) {l : List α}
    (all : ∀ a ∈ l, key a ∈ keys) : (keys.flatMap fun k => l.filter (key · = k)).Perm l := by
  induction keys generalizing l with
  | nil =>
    cases l with
    | nil => exact List.Perm.refl []
    | cons a l => cases all a List.mem_cons_self
  | cons k keys ih =>
    obtain ⟨fresh, rest⟩ := List.nodup_cons.mp nodup
    have others : (keys.flatMap fun k' => l.filter (key · = k')) =
        keys.flatMap fun k' => (l.filter fun a => !decide (key a = k)).filter (key · = k') := by
      refine List.flatMap_congr fun k' hk' => ?_
      rw [List.filter_filter]
      refine List.filter_congr fun a _ => ?_
      by_cases found : key a = k'
      · have other : k' ≠ k := fun same => fresh (same ▸ hk')
        simp [found, other]
      · simp [found]
    rw [List.flatMap_cons, others]
    refine List.Perm.trans (List.Perm.append_left _ (ih rest fun a ha => ?_)) (List.filter_append_perm _ l)
    obtain ⟨member, other⟩ := List.mem_filter.mp ha
    exact (List.mem_cons.mp (all a member)).resolve_left (by simpa using other)

theorem eraseDups_nodup {α : Type} [BEq α] [LawfulBEq α] (l : List α) : l.eraseDups.Nodup := by
  induction hn : l.length using Nat.strong_induction_on generalizing l with
  | _ n ih =>
    cases l with
    | nil => exact List.nodup_nil
    | cons a l =>
      rw [List.eraseDups_cons, List.nodup_cons]
      refine ⟨by simp, ih _ ?_ _ rfl⟩
      exact hn ▸ Nat.lt_succ_of_le (List.length_filter_le _ l)

section
variable (flag : Bool) (net : Network) (telemetry : Option ServerNetworkTelemetry)
  (targets : List (NetworkTarget × Network))

/-- The groups of a run divide the enabled targets that are no gateways. -/
structure Grouped : Prop where
  pillar : ∀ tag, (runNetworkDiagnostic flag net telemetry targets).1.groups tag =
    if membersOf targets tag = [] then none
    else some (groupPillar ((membersOf targets tag).map fun t => (measured flag t, t.1)))
  listed : ∀ tag, tag ∈ (runNetworkDiagnostic flag net telemetry targets).1.groupOrder ↔ membersOf targets tag ≠ []
  once : (runNetworkDiagnostic flag net telemetry targets).1.groupOrder.Nodup
  divided : ((runNetworkDiagnostic flag net telemetry targets).1.groupOrder.flatMap (membersOf targets)).Perm
    (regularTargets targets)
  unique : ∀ t ∈ targets, t.1.enabled = true → t.1.isGateway = false → ∃! tag, t ∈ membersOf targets tag

variable {flag net telemetry targets}

theorem runNetworkDiagnostic_groupOrder : (runNetworkDiagnostic flag net telemetry targets).1.groupOrder =
    ((regularTargets targets).map fun t => liveTag t.1).eraseDups := by
  simp only [runNetworkDiagnostic, reportOf, List.map_map]
  exact congrArg List.eraseDups (List.map_congr_left fun t _ => groupTag_measured t)

theorem runNetworkDiagnostic_grouped : Grouped flag net telemetry targets where
  pillar := runNetworkDiagnostic_groups
  listed tag := by
    rw [runNetworkDiagnostic_groupOrder, List.mem_eraseDups, List.mem_map, membersOf, ne_eq, List.filter_eq_nil_iff]
    simp
  once := by
    rw [runNetworkDiagnostic_groupOrder]
    exact eraseDups_nodup _
  divided := by
    rw [runNetworkDiagnostic_groupOrder]
    exact flatMap_filter_perm (eraseDups_nodup _) fun t ht => List.mem_eraseDups.mpr (List.mem_map_of_mem ht)
  unique t ht enabled regular := by
    have member : t ∈ regularTargets targets := List.mem_filter.mpr ⟨ht, by simp [enabled, regular]⟩
    refine ⟨liveTag t.1, List.mem_filter.mpr ⟨member, by simp⟩, fun tag other => ?_⟩
    exact (of_decide_eq_true (List.mem_filter.mp other).2).symm

end

/-- The laws of the aggregation. -/
theorem aggregation_lawful (probes : List NetworkTargetProbe) (counted : ∀ p ∈ probes, Counted p)
    (status : NetworkStatus) (flag : Bool)
    (net : Network) (telemetry : Option ServerNetworkTelemetry) (targets : List (NetworkTarget × Network)) :
    Laws probes status ∧ Grouped flag net telemetry targets :=
  ⟨laws_of_counted counted, runNetworkDiagnostic_grouped⟩

/-- A target pinged five times, with one ping lost. -/
def pinged : NetworkTargetProbe :=
  { id := "uplink", tag := "wan".toList, host := "192.0.2.1".toList, port := 0, isGateway := false, probeMethod := icmp
    probeStatus := .success, totalProbes := 5, successfulProbes := 4, failedProbes := 1, packetLoss :=
      some 20, latencyMs := 12
    minLatencyMs := 11, maxLatencyMs := 13, status := .warning }

/-- A network without answers. -/
def silentNetwork : Network := ⟨.ok [], .ok [], .ok [], .silent, fun _ => .error "i/o timeout"⟩

/-- One connected to four times of five. -/
def dialed : NetworkTargetProbe :=
  { pinged with id := "dns", port := 53, probeMethod := tcp, packetLoss := none, latencyMs := 30, minLatencyMs := 20
                maxLatencyMs := 40, status := .reachable }

/-- A target of a tag, with the defaults for everything else. -/
def target (id : String) (tag : List Char) : NetworkTarget :=
  ⟨id, "192.0.2.1".toList, 53, tag, tcp, 5, none, none, none, true, false⟩

/-- A mixed pillar, and two tags, of which one has two targets. -/
theorem aggregation_lawful_mixed : Laws [pinged, dialed, { dialed with latencyMs := 60 }] .optimal ∧
    Grouped false silentNetwork none
      [(target "a" "wan".toList, silentNetwork), (target "b" "lan".toList, silentNetwork),
        (target "c" "wan".toList, silentNetwork)] := by
  refine aggregation_lawful [pinged, dialed, { dialed with latencyMs := 60 }]
    (fun p hp => ?_) .optimal false silentNetwork none _
  rcases (by simpa using hp : p = pinged ∨ p = dialed ∨ p = { dialed with latencyMs := 60 }) with rfl | rfl | rfl
  · exact ⟨by decide, by decide, by decide⟩
  · exact ⟨by decide, by decide, by decide⟩
  · exact ⟨by decide, by decide, by decide⟩

end PillarLaws
end DatrixOps
