import Mathlib.Data.Bool.AllAny
import Mathlib.Tactic.Linarith
import DatrixOps.Alert.System

/-! What accepted rules are evaluated as. The validator accepts ten metrics; the evaluator has a case for
    eight of them and reads the CPU for the other two, websites and certificates. Among the eight, a
    threshold at the edge of what can be stored makes a comparison constant. -/

namespace DatrixOps
namespace AlertVerdict
open Postgres

/-- What a metric is about. -/
inductive Subject where
  | cpu | ram | disk | networkLatency | networkLoss | status | container | service | website | ssl
  deriving DecidableEq

/-- The subject that a metric is named after. -/
def Subject.ofMetric (metric : String) : Option Subject :=
  [("cpu", .cpu), ("ram", .ram), ("disk", .disk), ("network_latency", .networkLatency), ("network_loss", .networkLoss),
    ("status", .status), ("container", .container), ("service", .service), ("website", .website), ("ssl", .ssl)].lookup
    metric

/-- What an evaluation of a server can read. -/
structure Contents where
  telemetry : Telemetry
  lastSeen : Option Time

/-- The targets of a server with one column of their results. -/
def column (read : NetworkSample → Option ℚ) (t : Telemetry) :
    List (String × String × String × Bool × List (Option ℚ × Time)) :=
  t.networkTargets.map fun n => (n.name, n.host, n.tag, n.enabled, n.results.map fun r => (read r, r.measuredAt))

/-- Two contents have the same data about a subject. -/
def Subject.Agree (a b : Contents) : Subject → Prop
  | .cpu => a.telemetry.metrics.map (fun m => (m.cpuUsage, m.createdAt)) =
      b.telemetry.metrics.map fun m => (m.cpuUsage, m.createdAt)
  | .ram => a.telemetry.metrics.map (fun m => (m.memoryUsed, m.memoryTotal, m.createdAt)) =
      b.telemetry.metrics.map fun m => (m.memoryUsed, m.memoryTotal, m.createdAt)
  | .disk => (a.telemetry.report.bind (·.osInfo)).bind (·.text "disk_usage") =
      (b.telemetry.report.bind (·.osInfo)).bind (·.text "disk_usage")
  | .networkLatency => column (·.latencyMs) a.telemetry = column (·.latencyMs) b.telemetry
  | .networkLoss => column (·.packetLoss) a.telemetry = column (·.packetLoss) b.telemetry
  | .status => a.lastSeen = b.lastSeen
  | .container => a.telemetry.report.map (fun r => (emptySnapshot r.snapshot, r.snapshot.bind decodeContainers)) =
      b.telemetry.report.map fun r => (emptySnapshot r.snapshot, r.snapshot.bind decodeContainers)
  | .service => a.telemetry.report.map (fun r => (emptySnapshot r.snapshot, r.snapshot.bind decodeServices)) =
      b.telemetry.report.map fun r => (emptySnapshot r.snapshot, r.snapshot.bind decodeServices)
  | .website => a.telemetry.websites.map (fun w => (w.url, w.status)) = b.telemetry.websites.map fun w =>
    (w.url, w.status)
  | .ssl => a.telemetry.websites.map (fun w => (w.url, w.sslDaysRemaining)) =
      b.telemetry.websites.map fun w => (w.url, w.sslDaysRemaining)

/-- Contents that the writers of the tables store: memory sizes are unsigned, latencies are not negative and
    losses are percentages. -/
structure Storable (c : Contents) : Prop where
  memory : ∀ m ∈ c.telemetry.metrics, 0 ≤ m.memoryUsed ∧ 0 ≤ m.memoryTotal
  latency : ∀ n ∈ c.telemetry.networkTargets, ∀ r ∈ n.results, ∀ ms, r.latencyMs = some ms → 0 ≤ ms
  loss : ∀ n ∈ c.telemetry.networkTargets, ∀ r ∈ n.results, ∀ x, r.packetLoss = some x → 0 ≤ x ∧ x ≤ 100

/-- The evaluation of a rule on these contents. -/
def verdict (p : Platform) (now : Time) (rule : AlertRule) (c : Contents) : Verdict :=
  evaluateCondition p now (some c.telemetry) rule c.lastSeen

/-- The rule is evaluated as what it says: the data of its metric's subject decide, and they can decide
    either way. -/
structure Sound (p : Platform) (now : Time) (rule : AlertRule) (subject : Subject) : Prop where
  metric : Subject.ofMetric rule.metric = some subject
  only : ∀ a b, subject.Agree a b → verdict p now rule a = verdict p now rule b
  fires : ∃ c, Storable c ∧ (verdict p now rule c).firing = true
  rests : ∃ c, Storable c ∧ (verdict p now rule c).hasData = true ∧ (verdict p now rule c).firing = false

/-- The conditions on accepted rules under which they are: the evaluator has a case for the metric, and the
    threshold is not at the edge where nothing stored satisfies the comparison. -/
structure Meaningful (rule : AlertRule) : Prop where
  evaluated : rule.metric ≠ "website" ∧ rule.metric ≠ "ssl"
  below : rule.operator = "<" → rule.metric ∈ ["ram", "network_latency", "network_loss"] → rule.threshold ≠ 0
  above : rule.operator = ">" → rule.metric = "network_loss" → rule.threshold ≠ 100

/-- A row that CreateRule or UpdateRule writes for a request it accepts. -/
def Accepted (rule : AlertRule) : Prop :=
  ∃ (payload r : RulePayload), (r = payload.selectServers.normalize ∨
      r = { payload.normalize with serverId := trimOptional payload.serverId }) ∧
    validateRule r = "" ∧ ∃ id userId serverId enabled, rule = r.row id userId serverId enabled

/-! ### What the validator lets through -/

section
variable {r : RulePayload} {rule : AlertRule}

/-- A condition that compares a number with a threshold between 0 and `max`. -/
def Compares (operator : String) (threshold max : ℚ) : Prop :=
  (operator = ">" ∨ operator = "<") ∧ 0 ≤ threshold ∧ threshold ≤ max

theorem validateThreshold_accepts {max : ℚ} {message : String} (hm : message ≠ "")
    (h : validateThreshold r max message = "") : Compares r.operator r.threshold max := by
  unfold validateThreshold at h
  split at h
  · exact absurd h (by decide)
  · rename_i hop
    split at h
    · exact absurd h hm
    · rename_i ht
      push Not at ht
      exact ⟨by tauto, ht.1, ht.2⟩

theorem validateRule_accepts (h : validateRule r = "") :
    (r.metric ∈ ["cpu", "ram", "disk", "network_loss"] ∧ Compares r.operator r.threshold 100) ∨
      (r.metric = "network_latency" ∧ Compares r.operator r.threshold 60000) ∨
      r.metric ∈ ["status", "container", "service", "website", "ssl"] := by
  unfold validateRule at h
  split at h
  · exact absurd h (by decide)
  split at h
  · exact absurd h (by decide)
  split at h
  · exact absurd h (by decide)
  split at h
  · exact absurd h (by decide)
  split at h
  · rename_i hm
    exact Or.inl ⟨by simp at hm ⊢; tauto, validateThreshold_accepts (by decide) h⟩
  split at h
  · rename_i hm
    exact Or.inl ⟨by simp [hm], validateThreshold_accepts (by decide) h⟩
  split at h
  · rename_i hm
    exact Or.inr (Or.inl ⟨hm, validateThreshold_accepts (by decide) h⟩)
  split at h
  · rename_i hm
    exact Or.inr (Or.inr hm)
  · exact absurd h (by decide)

theorem Accepted.cases (h : Accepted rule) :
    (rule.metric ∈ ["cpu", "ram", "disk", "network_loss"] ∧ Compares rule.operator rule.threshold 100) ∨
      (rule.metric = "network_latency" ∧ Compares rule.operator rule.threshold 60000) ∨
      rule.metric ∈ ["status", "container", "service", "website", "ssl"] := by
  obtain ⟨payload, r, -, accepts, id, userId, serverId, enabled, rfl⟩ := h
  exact validateRule_accepts accepts

end

/-! ### Rules that compare a number -/

section
variable {p : Platform} {now : Time} {rule : AlertRule} {subject : Subject}

theorem evaluateNumber_firing {value : Option ℚ} :
    (evaluateNumber rule value).firing = true ↔
      ∃ v, value = some v ∧ compareAlertValue rule.operator v rule.threshold = true := by
  cases value <;> simp [evaluateNumber, Verdict.noData]

theorem compareAlertValue_above {v t : ℚ} : compareAlertValue ">" v t = true ↔ t < v := by
  simp [compareAlertValue]

theorem compareAlertValue_below {v t : ℚ} : compareAlertValue "<" v t = true ↔ v < t := by
  simp [compareAlertValue]

/-- A rule on a number of its own subject is sound when the number can be on both sides of the threshold. -/
theorem sound_number {max v₁ v₂ : ℚ} (read : Contents → Option ℚ) (c₁ c₂ : Contents)
    (metric : Subject.ofMetric rule.metric = some subject)
    (reads : ∀ c, verdict p now rule c = evaluateNumber rule (read c))
    (only : ∀ a b, subject.Agree a b → read a = read b) (compares : Compares rule.operator rule.threshold max)
    (h₁ : Storable c₁) (h₂ : Storable c₂) (read₁ : read c₁ = some v₁) (read₂ : read c₂ = some v₂)
    (above : rule.operator = ">" → v₂ ≤ rule.threshold ∧ rule.threshold < v₁)
    (below : rule.operator = "<" → v₂ < rule.threshold ∧ rule.threshold ≤ v₁) : Sound p now rule subject := by
  have value : ∀ c v, read c = some v →
      verdict p now rule c = ⟨compareAlertValue rule.operator v rule.threshold, v, true⟩ := by
    intro c v hv
    rw [reads, hv]
    rfl
  refine ⟨metric, fun a b h => by rw [reads, reads, only a b h], ?_, ?_⟩
  · rcases compares.1 with hop | hop
    · refine ⟨c₁, h₁, ?_⟩
      rw [value c₁ v₁ read₁, hop]
      exact compareAlertValue_above.mpr (above hop).2
    · refine ⟨c₂, h₂, ?_⟩
      rw [value c₂ v₂ read₂, hop]
      exact compareAlertValue_below.mpr (below hop).1
  · rcases compares.1 with hop | hop
    · refine ⟨c₂, h₂, ?_⟩
      rw [value c₂ v₂ read₂, hop]
      exact ⟨rfl, Bool.eq_false_iff.mpr fun h => absurd (compareAlertValue_above.mp h) (not_lt.mpr (above hop).1)⟩
    · refine ⟨c₁, h₁, ?_⟩
      rw [value c₁ v₁ read₁, hop]
      exact ⟨rfl, Bool.eq_false_iff.mpr fun h => absurd (compareAlertValue_below.mp h) (not_lt.mpr (below hop).2)⟩

/-- A rule whose number is on one side of the threshold in everything stored never fires. -/
theorem not_sound_of_bounded (read : Contents → Option ℚ)
    (reads : ∀ c, verdict p now rule c = evaluateNumber rule (read c))
    (never : ∀ c v, Storable c → read c = some v → compareAlertValue rule.operator v rule.threshold = false) :
    ¬Sound p now rule subject := by
  intro sound
  obtain ⟨c, hc, fires⟩ := sound.fires
  rw [reads, evaluateNumber_firing] at fires
  obtain ⟨v, hv, fires⟩ := fires
  rw [never c v hc hv] at fires
  cases fires

end

/-! ### The contents of each subject -/

/-- Nothing is known of the server. -/
def emptyContents : Contents := ⟨⟨some ⟨none, none⟩, [], [], []⟩, none⟩

/-- One sample of the machine. -/
def sampled (cpu : ℚ) (used total : Int) : Contents :=
  { emptyContents with telemetry := { emptyContents.telemetry with metrics := [⟨cpu, used, total, 0⟩] } }

/-- A report of how full the disk is. -/
def diskReport (text : String) : Contents :=
  { emptyContents with telemetry := { emptyContents.telemetry with report := some ⟨none,
    some [("disk_usage", text)]⟩ } }

/-- One network target, measured just now. -/
def measured (now : Time) (name : String) (latency loss : ℚ) : Contents :=
  { emptyContents with
    telemetry := { emptyContents.telemetry with
      networkTargets := [⟨name, "", "", true, [⟨some latency, some loss, now⟩]⟩] } }

/-- A report with this snapshot. -/
def snapshotOf (snapshot : Golang.Json) : Contents :=
  { emptyContents with telemetry := { emptyContents.telemetry with report := some ⟨some snapshot, none⟩ } }

section
variable {p : Platform} {now : Time} {rule : AlertRule}

theorem storable_sampled {cpu : ℚ} {used total : Int} (hu : 0 ≤ used) (ht : 0 ≤ total) :
    Storable (sampled cpu used total) where
  memory m hm := by
    obtain rfl := List.mem_singleton.mp hm
    exact ⟨hu, ht⟩
  latency n hn := by cases hn
  loss n hn := by cases hn

theorem storable_measured {name : String} {latency loss : ℚ} (hl : 0 ≤ latency) (hx : 0 ≤ loss ∧ loss ≤ 100) :
    Storable (measured now name latency loss) where
  memory m hm := by cases hm
  latency n hn r hr ms hms := by
    obtain rfl := List.mem_singleton.mp hn
    obtain rfl := List.mem_singleton.mp hr
    exact Option.some.inj hms ▸ hl
  loss n hn r hr x hxx := by
    obtain rfl := List.mem_singleton.mp hn
    obtain rfl := List.mem_singleton.mp hr
    exact Option.some.inj hxx ▸ hx

theorem storable_of_no_samples {c : Contents} (hm : c.telemetry.metrics = []) (hn : c.telemetry.networkTargets = []) :
    Storable c := by
  refine ⟨fun m h => ?_, fun n h => ?_, fun n h => ?_⟩
  · rw [hm] at h
    cases h
  · rw [hn] at h
    cases h
  · rw [hn] at h
    cases h

/-! ### CPU, memory and disk -/

theorem cpu_only {a b : Contents} (h : Subject.cpu.Agree a b) :
    latestMetric (fun s => some s.cpuUsage) a.telemetry = latestMetric (fun s => some s.cpuUsage) b.telemetry := by
  have byPairs : ∀ t : Telemetry, latestMetric (fun s => some s.cpuUsage) t =
      (newest Prod.snd (t.metrics.map fun m => (m.cpuUsage, m.createdAt))).map Prod.fst := by
    intro t
    rw [newest_map, latestMetric]
    cases newest (fun m : MetricSample => m.createdAt) t.metrics <;> rfl
  rw [byPairs, byPairs, h]

theorem ram_only {a b : Contents} (h : Subject.ram.Agree a b) :
    latestMetric memoryUsage a.telemetry = latestMetric memoryUsage b.telemetry := by
  have byTriples : ∀ t : Telemetry, latestMetric memoryUsage t =
      (newest (fun m => m.2.2) (t.metrics.map fun m => (m.memoryUsed, m.memoryTotal, m.createdAt))).bind
        fun m => memoryUsage ⟨0, m.1, m.2.1, m.2.2⟩ := by
    intro t
    rw [newest_map, latestMetric]
    cases newest (fun m : MetricSample => m.createdAt) t.metrics <;> rfl
  rw [byTriples, byTriples, h]

theorem disk_only {a b : Contents} (h : Subject.disk.Agree a b) : diskUsage a.telemetry = diskUsage b.telemetry := by
  have byText : ∀ t : Telemetry, diskUsage t = ((t.report.bind (·.osInfo)).bind (·.text "disk_usage")).bind
      fun text => if text = "" then none else float8 text.toList := by
    intro t
    rw [Option.bind_assoc]
    rfl
  rw [byText, byText]
  exact congrArg (Option.bind · _) h

theorem diskUsage_101 : diskUsage (diskReport "101").telemetry = some 101 := by
  have trimmed : Golang.trimSpace ['1', '0', '1'] = ['1', '0', '1'] := by decide
  have parsed : float8 ['1', '0', '1'] = some 101 := by
    have unsigned : float8 ['1', '0', '1'] = unsignedFloat ['1', '0', '1'] := by
      rw [float8, trimmed]
      rfl
    rw [unsigned, unsignedFloat_digits (by decide)]
    rfl
  simp [diskUsage, diskReport, Jsonb.text, parsed]

theorem diskUsage_neg : diskUsage (diskReport "-1").telemetry = some (-1) := by
  have trimmed : Golang.trimSpace ['-', '1'] = ['-', '1'] := by decide
  have parsed : float8 ['-', '1'] = some (-1) := by
    have negated : float8 ['-', '1'] = (unsignedFloat ['1']).map fun q => -q := by
      rw [float8, trimmed]
      rfl
    rw [negated, unsignedFloat_digits (by decide)]
    rfl
  simp [diskUsage, diskReport, Jsonb.text, parsed]

theorem sound_cpu (hm : rule.metric = "cpu") (compares : Compares rule.operator rule.threshold 100) :
    Sound p now rule .cpu := by
  refine sound_number (fun c => latestMetric (fun s => some s.cpuUsage) c.telemetry) (sampled 101 0 1)
    (sampled (-1) 0 1) (by rw [hm]; rfl) (fun c => by simp [verdict, evaluateCondition, hm])
    (fun a b => cpu_only) compares (storable_sampled (by decide) (by decide)) (storable_sampled (by decide) (by decide))
    rfl rfl (fun _ => ?_) fun _ => ?_
  · exact ⟨by linarith [compares.2.1], by linarith [compares.2.2]⟩
  · exact ⟨by linarith [compares.2.1], by linarith [compares.2.2]⟩

theorem sound_ram (hm : rule.metric = "ram") (compares : Compares rule.operator rule.threshold 100)
    (below : rule.operator = "<" → rule.threshold ≠ 0) : Sound p now rule .ram := by
  have most : latestMetric memoryUsage (sampled 0 2 1).telemetry = some 200 := by
    simp [latestMetric, sampled, newest, memoryUsage]
    norm_num
  have least : latestMetric memoryUsage (sampled 0 0 1).telemetry = some 0 := by
    simp [latestMetric, sampled, newest, memoryUsage]
  refine sound_number (fun c => latestMetric memoryUsage c.telemetry) (sampled 0 2 1)
    (sampled 0 0 1) (by rw [hm]; rfl) (fun c => by simp [verdict, evaluateCondition, hm])
    (fun a b => ram_only) compares (storable_sampled (by decide) (by decide)) (storable_sampled (by decide) (by decide))
    most least (fun _ => ?_) fun hop => ?_
  · exact ⟨compares.2.1, by linarith [compares.2.2]⟩
  · exact ⟨lt_of_le_of_ne compares.2.1 (below hop).symm, by linarith [compares.2.2]⟩

theorem sound_disk (hm : rule.metric = "disk") (compares : Compares rule.operator rule.threshold 100) :
    Sound p now rule .disk := by
  refine sound_number (fun c => diskUsage c.telemetry) (diskReport "101") (diskReport "-1") (by rw [hm]; rfl)
    (fun c => by simp [verdict, evaluateCondition, hm]) (fun a b => disk_only) compares
    (storable_of_no_samples rfl rfl) (storable_of_no_samples rfl rfl) diskUsage_101 diskUsage_neg
      (fun _ => ?_) fun _ => ?_
  · exact ⟨by linarith [compares.2.1], by linarith [compares.2.2]⟩
  · exact ⟨by linarith [compares.2.1], by linarith [compares.2.2]⟩

/-- No memory usage is negative. -/
theorem not_sound_ram {subject : Subject} (hm : rule.metric = "ram") (hop : rule.operator = "<")
    (ht : rule.threshold = 0) :
    ¬Sound p now rule subject := by
  refine not_sound_of_bounded (fun c => latestMetric memoryUsage c.telemetry)
    (fun c => by simp [verdict, evaluateCondition, hm]) fun c v hc hv => ?_
  obtain ⟨m, hnew, hv⟩ := Option.bind_eq_some_iff.mp hv
  obtain ⟨hused, htotal⟩ := hc.memory m (newest_mem hnew)
  have nonneg : 0 ≤ v := by
    unfold memoryUsage at hv
    split at hv
    · cases hv
    · rw [← Option.some.inj hv]
      have h₁ : (0 : ℚ) ≤ m.memoryUsed := by exact_mod_cast hused
      have h₂ : (0 : ℚ) ≤ m.memoryTotal := by exact_mod_cast htotal
      exact div_nonneg (mul_nonneg h₁ (by norm_num)) h₂
  rw [hop, ht]
  exact Bool.eq_false_iff.mpr fun h => absurd (compareAlertValue_below.mp h) (not_lt.mpr nonneg)

/-! ### Latency and loss -/

/-- What a network rule compares. -/
def networkValue (p : Platform) (now : Time) (rule : AlertRule) (read : NetworkSample → Option ℚ)
    (t : Telemetry) : Option ℚ :=
  aggregate rule.operator ((latestResults p now (targetFilter rule) t.networkTargets).filterMap read)

theorem evaluateNetwork_eq {read : NetworkSample → Option ℚ} {t : Telemetry} :
    evaluateNetwork p now read rule (some t) = evaluateNumber rule (networkValue p now rule read t) := by
  simp only [evaluateNetwork, evaluateNumber, networkValue, Option.bind_some]

/-- The values come from the targets and the column alone. -/
theorem networkValue_only {read : NetworkSample → Option ℚ} {a b : Telemetry} (h : column read a = column read b) :
    networkValue p now rule read a = networkValue p now rule read b := by
  let finds (row : String × String × String × Bool × List (Option ℚ × Time)) : Bool :=
    let matches_ (text : String) : Bool := ilike p.sqlLower ('%' :: targetFilter rule ++ ['%']) text.toList
    row.2.2.2.1 && (targetFilter rule = [] || matches_ row.1 || matches_ row.2.2.1 || matches_ row.2.1)
  let latest (row : String × String × String × Bool × List (Option ℚ × Time)) : Option ℚ :=
    (newest Prod.snd (row.2.2.2.2.filter fun r => now - 15 * minute ≤ r.2)).bind Prod.fst
  have byColumn : ∀ t : Telemetry, (latestResults p now (targetFilter rule) t.networkTargets).filterMap read =
      ((column read t).filter finds).filterMap latest := by
    intro t
    simp only [latestResults, column, List.filter_map, List.filterMap_map, List.filterMap_filterMap]
    refine List.filterMap_congr fun n _ => ?_
    simp only [latest, Function.comp_apply, List.filter_map, newest_map]
    rw [Option.bind_map]
    rfl
  rw [networkValue, networkValue, byColumn, byColumn, h]

theorem mem_of_aggregate {operator : String} {values : List ℚ} {v : ℚ} (h : aggregate operator values = some v) :
    v ∈ values := by
  unfold aggregate at h
  split at h
  · exact List.min?_mem h
  · exact List.max?_mem h

/-- What a network rule compares is a stored value. -/
theorem mem_of_networkValue {read : NetworkSample → Option ℚ} {t : Telemetry} {v : ℚ}
    (h : networkValue p now rule read t = some v) : ∃ n ∈ t.networkTargets, ∃ r ∈ n.results, read r = some v := by
  obtain ⟨r, hr, hv⟩ := List.mem_filterMap.mp (mem_of_aggregate h)
  obtain ⟨n, hn, hnew⟩ := List.mem_filterMap.mp hr
  exact ⟨n, (List.mem_filter.mp hn).1, r, (List.mem_filter.mp (newest_mem hnew)).1, hv⟩

/-- A target that a rule's filter finds, measured just now, is what the rule compares. -/
theorem networkValue_measured {read : NetworkSample → Option ℚ} {name : String} {latency loss v : ℚ}
    (hname : ilike p.sqlLower ('%' :: targetFilter rule ++ ['%']) name.toList = true)
    (hv : read ⟨some latency, some loss, now⟩ = some v) :
    networkValue p now rule read (measured now name latency loss).telemetry = some v := by
  have recent : now - 15 * minute ≤ now := Int.sub_le_self now (by decide)
  simp only [networkValue, latestResults, measured, emptyContents, hname, Bool.true_or, Bool.or_true, Bool.and_true,
    List.filter_cons, List.filter_nil, if_true, List.filterMap_cons, List.filterMap_nil,
    decide_eq_true recent, newest, hv]
  unfold aggregate
  split <;> rfl

theorem sound_network (read : NetworkSample → Option ℚ) (latency loss : ℚ) {subject : Subject} {high max : ℚ}
    (metric : Subject.ofMetric rule.metric = some subject)
    (reads : ∀ c, verdict p now rule c = evaluateNetwork p now read rule (some c.telemetry))
    (agree : ∀ a b, subject.Agree a b → column read a.telemetry = column read b.telemetry)
    (highest : read ⟨some latency, some loss, now⟩ = some high) (lowest : read ⟨some 0, some 0, now⟩ = some 0)
    (hl : 0 ≤ latency) (hx : 0 ≤ loss ∧ loss ≤ 100)
    (compares : Compares rule.operator rule.threshold max) (hmax : max ≤ high)
    (above : rule.operator = ">" → rule.threshold ≠ high) (below : rule.operator = "<" → rule.threshold ≠ 0) :
    Sound p now rule subject := by
  obtain ⟨text, htext⟩ := exists_ilike p.sqlLower ('%' :: targetFilter rule ++ ['%'])
  have found : ilike p.sqlLower ('%' :: targetFilter rule ++ ['%']) (String.ofList text).toList = true := by
    rw [String.toList_ofList]
    exact htext
  have bounded : rule.threshold ≤ high := compares.2.2.trans hmax
  refine sound_number (fun c => networkValue p now rule read c.telemetry)
    (measured now (String.ofList text) latency loss) (measured now (String.ofList text) 0 0) metric
    (fun c => (reads c).trans evaluateNetwork_eq) (fun a b h => networkValue_only (agree a b h)) compares
    (storable_measured hl hx) (storable_measured le_rfl ⟨le_rfl, by norm_num⟩) (networkValue_measured found highest)
    (networkValue_measured found lowest) (fun hop => ?_) fun hop => ?_
  · exact ⟨compares.2.1, lt_of_le_of_ne bounded (above hop)⟩
  · exact ⟨lt_of_le_of_ne compares.2.1 (below hop).symm, bounded⟩

theorem sound_latency (hm : rule.metric = "network_latency") (compares : Compares rule.operator rule.threshold 60000)
    (below : rule.operator = "<" → rule.threshold ≠ 0) : Sound p now rule .networkLatency := by
  refine sound_network (·.latencyMs) 60001 0 (by rw [hm]; rfl)
    (fun c => by simp [verdict, evaluateCondition, hm]) (fun a b h => h) rfl rfl (by norm_num)
      ⟨le_rfl, by norm_num⟩ compares
    (by norm_num) (fun _ => ?_) below
  have := compares.2.2
  linarith

theorem sound_loss (hm : rule.metric = "network_loss") (compares : Compares rule.operator rule.threshold 100)
    (below : rule.operator = "<" → rule.threshold ≠ 0) (above : rule.operator = ">" → rule.threshold ≠ 100) :
    Sound p now rule .networkLoss :=
  sound_network (·.packetLoss) 0 100 (by rw [hm]; rfl)
    (fun c => by simp [verdict, evaluateCondition, hm]) (fun a b h => h) rfl rfl le_rfl
      ⟨by norm_num, le_rfl⟩ compares le_rfl
    above below

/-- Nothing stored is below zero. -/
theorem not_sound_network_below (read : NetworkSample → Option ℚ) {subject : Subject}
    (reads : ∀ c, verdict p now rule c = evaluateNetwork p now read rule (some c.telemetry))
    (nonneg : ∀ c, Storable c → ∀ n ∈ c.telemetry.networkTargets, ∀ r ∈ n.results, ∀ v, read r = some v → 0 ≤ v)
    (hop : rule.operator = "<") (ht : rule.threshold = 0) : ¬Sound p now rule subject := by
  refine not_sound_of_bounded (fun c => networkValue p now rule read c.telemetry)
    (fun c => (reads c).trans evaluateNetwork_eq) fun c v hc hv => ?_
  obtain ⟨n, hn, r, hr, hv⟩ := mem_of_networkValue hv
  rw [hop, ht]
  exact Bool.eq_false_iff.mpr fun h => absurd (compareAlertValue_below.mp h) (not_lt.mpr (nonneg c hc n hn r hr v hv))

/-- No stored loss is above 100. -/
theorem not_sound_loss_above {subject : Subject} (hm : rule.metric = "network_loss") (hop : rule.operator = ">")
    (ht : rule.threshold = 100) : ¬Sound p now rule subject := by
  refine not_sound_of_bounded (fun c => networkValue p now rule (·.packetLoss) c.telemetry)
    (fun c => (by simp [verdict, evaluateCondition, hm] :
      verdict p now rule c = evaluateNetwork p now (·.packetLoss) rule (some c.telemetry)).trans evaluateNetwork_eq)
    fun c v hc hv => ?_
  obtain ⟨n, hn, r, hr, hv⟩ := mem_of_networkValue hv
  rw [hop, ht]
  exact Bool.eq_false_iff.mpr fun h => absurd (compareAlertValue_above.mp h) (not_lt.mpr (hc.loss n hn r hr v hv).2)

/-! ### Status, containers and services -/

theorem sound_status (hm : rule.metric = "status") : Sound p now rule .status := by
  have reads : ∀ c, verdict p now rule c =
      c.lastSeen.elim .noData fun lastSeen => .of (now - lastSeen ≥ max rule.durationMinutes 1 * minute) := fun c => by
    cases hl : c.lastSeen <;> simp [verdict, evaluateCondition, hm, hl]
  refine ⟨by rw [hm]; rfl, fun a b h => ?_, ?_, ?_⟩
  · rw [reads, reads, h]
  · refine ⟨⟨emptyContents.telemetry, some (now - max rule.durationMinutes 1 * minute)⟩,
      storable_of_no_samples rfl rfl, ?_⟩
    rw [reads]
    simp [Verdict.of]
  · refine ⟨⟨emptyContents.telemetry, some now⟩, storable_of_no_samples rfl rfl, ?_⟩
    have positive : 0 < max rule.durationMinutes 1 * minute := by
      have one : (1 : Int) ≤ max rule.durationMinutes 1 := le_max_right _ _
      exact Int.mul_pos (by omega) (by decide)
    rw [reads]
    simp [Verdict.of, positive]

/-- A rule on the snapshot is sound when its verdict comes from the decoded part of it and goes either way. -/
theorem sound_snapshot {α : Type} {subject : Subject} (decode : Golang.Json → Option α)
    (evaluate : String → Option Golang.Json → Verdict) {up down : Golang.Json}
    (metric : Subject.ofMetric rule.metric = some subject)
    (reads : ∀ c, verdict p now rule c = evaluateSnapshot evaluate rule (some c.telemetry))
    (agree : ∀ a b, subject.Agree a b →
      a.telemetry.report.map (fun r => (emptySnapshot r.snapshot, r.snapshot.bind decode)) =
        b.telemetry.report.map fun r => (emptySnapshot r.snapshot, r.snapshot.bind decode))
    (only : ∀ target s s', emptySnapshot s = emptySnapshot s' → s.bind decode = s'.bind decode →
      evaluate target s = evaluate target s')
    (fires : evaluate (rule.targetName.getD "") (some down) = .of true)
    (rests : evaluate (rule.targetName.getD "") (some up) = .of false) : Sound p now rule subject := by
  have value : ∀ snapshot, verdict p now rule (snapshotOf snapshot) =
      evaluate (rule.targetName.getD "") (some snapshot) := fun snapshot => (reads _).trans rfl
  refine ⟨metric, fun a b h => ?_, ⟨snapshotOf down, storable_of_no_samples rfl rfl, ?_⟩,
    ⟨snapshotOf up, storable_of_no_samples rfl rfl, ?_⟩⟩
  · have same := agree a b h
    rw [reads, reads]
    simp only [evaluateSnapshot, Option.bind_some]
    cases ha : a.telemetry.report with
    | none =>
      rw [ha, Option.map_none, eq_comm, Option.map_eq_none_iff] at same
      rw [same]
    | some ra =>
      cases hb : b.telemetry.report with
      | none =>
        rw [ha, hb] at same
        cases same
      | some rb =>
        rw [ha, hb] at same
        obtain ⟨h₁, h₂⟩ := Prod.mk.inj (Option.some.inj same)
        exact only _ _ _ h₁ h₂
  · rw [value, fires]
    rfl
  · rw [value, rests]
    exact ⟨rfl, rfl⟩

/-- A snapshot that lists one container. -/
def containerSnapshot (name state : String) : Golang.Json :=
  .obj [("docker_containers", .arr [.obj [("name", .str name), ("state", .str state)]])]

/-- A snapshot that lists one service. -/
def serviceSnapshot (name status : String) : Golang.Json :=
  .obj [("services", .arr [.obj [("name", .str name), ("status", .str status)]])]

theorem decode_containerSnapshot {name state : String} :
    decodeContainers (containerSnapshot name state) = some [⟨name, state, ""⟩] := by
  have keys : Golang.Json.names "docker_containers" "docker_containers" = true ∧
    Golang.Json.names "name" "name" = true ∧
      Golang.Json.names "name" "state" = false ∧ Golang.Json.names "name" "status" = false ∧
      Golang.Json.names "state" "name" = false ∧ Golang.Json.names "state" "state" = true ∧
      Golang.Json.names "state" "status" = false := by decide
  simp [decodeContainers, containerSnapshot, Golang.Json.decodeStruct, Golang.Json.field, Golang.Json.decodeSlice,
    decodeContainer, Golang.Json.decodeString, keys]

theorem decode_serviceSnapshot {name status : String} :
    decodeServices (serviceSnapshot name status) = some [⟨name, "", status, ""⟩] := by
  have keys : Golang.Json.names "services" "services" = true ∧ Golang.Json.names "name" "name" = true ∧
      Golang.Json.names "name" "display_name" = false ∧ Golang.Json.names "name" "status" = false ∧
      Golang.Json.names "name" "sub_status" = false ∧ Golang.Json.names "status" "name" = false ∧
      Golang.Json.names "status" "display_name" = false ∧ Golang.Json.names "status" "status" = true ∧
      Golang.Json.names "status" "sub_status" = false := by decide
  simp [decodeServices, serviceSnapshot, Golang.Json.decodeStruct, Golang.Json.field, Golang.Json.decodeSlice,
    decodeService, Golang.Json.decodeString, keys]

/-- Text in lower-case ASCII is its own lower case. -/
theorem toLower_ascii (m : Golang.CaseMap) {s : List Char} (h : ∀ c ∈ s, c.toNat < 128 ∧ c.toLower = c) :
    m.toLower s = s := by
  refine (List.map_congr_left fun c hc => ?_).trans (List.map_id s)
  rw [m.ascii c (h c hc).1, (h c hc).2]
  rfl

/-- A snapshot with the one container that the target names: what it says is whether it is down. -/
theorem evaluate_containerSnapshot {target : String} (state : String) :
    evaluateContainerCondition p target
        (some (containerSnapshot (String.ofList ('/' :: Golang.trimSpace target.toList)) state)) =
      .of ((⟨String.ofList ('/' :: Golang.trimSpace target.toList), state, ""⟩ : DockerContainer).down p) := by
  have slash : p.toLower.lower '/' = '/' := (p.toLower.ascii '/' (by decide)).trans (by decide)
  have named : DockerContainer.named p (p.toLower.toLower (Golang.trimSpace target.toList))
      ⟨String.ofList ('/' :: Golang.trimSpace target.toList), state, ""⟩ = true := by
    simp [DockerContainer.named, Golang.CaseMap.toLower, slash, Golang.trimPrefix]
  unfold evaluateContainerCondition
  rw [if_neg (by simp [emptySnapshot, containerSnapshot]), Option.bind_some, decode_containerSnapshot]
  dsimp only
  split
  · rw [List.find?_cons_of_pos named]
  · simp

theorem down_iff {name state : String} : (⟨name, state, ""⟩ : DockerContainer).down p = true ↔
    p.toLower.toLower state.toList ≠ "running".toList := by
  simp [DockerContainer.down, Golang.CaseMap.toLower, Golang.contains]

theorem sound_container (hm : rule.metric = "container") : Sound p now rule .container := by
  have running : p.toLower.toLower "running".toList = "running".toList :=
    toLower_ascii _ (List.all_iff_forall_prop.mp (by decide))
  have exited : p.toLower.toLower "exited".toList = "exited".toList :=
    toLower_ascii _ (List.all_iff_forall_prop.mp (by decide))
  refine sound_snapshot decodeContainers (evaluateContainerCondition p) (by rw [hm]; rfl)
    (fun c => by simp [verdict, evaluateCondition, hm]) (fun a b h => h) (fun target s s' he hd => ?_)
    ((evaluate_containerSnapshot "exited").trans (congrArg Verdict.of (down_iff.mpr ?_)))
    ((evaluate_containerSnapshot "running").trans
      (congrArg Verdict.of (Bool.eq_false_iff.mpr fun h => down_iff.mp h running)))
  · simp only [evaluateContainerCondition, he, hd]
  · rw [exited]
    decide

theorem cleanText_ascii {s : String} (h : ∀ c ∈ Golang.trimSpace s.toList, c.toNat < 128 ∧ c.toLower = c) :
    cleanText p s = Golang.trimSpace s.toList := toLower_ascii _ h

/-- A snapshot with the one service that the target names: what it says is whether it runs. -/
theorem evaluate_serviceSnapshot {target : String} {down : Bool} (status : String)
    (runs : (⟨String.ofList (Golang.trimSpace target.toList), "", status, ""⟩ : SystemService).running p = !down)
    (broken : (⟨String.ofList (Golang.trimSpace target.toList), "", status, ""⟩ : SystemService).broken p = down) :
    evaluateServiceCondition p target (some (serviceSnapshot (String.ofList (Golang.trimSpace target.toList)) status)) =
      .of down := by
  have same : cleanText p (String.ofList (Golang.trimSpace target.toList)) = cleanText p target := by
    rw [cleanText, String.toList_ofList, Golang.trimSpace_trimSpace]
    rfl
  have named : SystemService.named p (cleanText p target)
      ⟨String.ofList (Golang.trimSpace target.toList), "", status, ""⟩ = true := by
    simp [SystemService.named, same]
  unfold evaluateServiceCondition
  rw [if_neg (by simp [emptySnapshot, serviceSnapshot]), Option.bind_some, decode_serviceSnapshot]
  dsimp only
  split
  · rw [List.find?_cons_of_pos named]
    simp [runs]
  · simp [broken]

theorem sound_service (hm : rule.metric = "service") : Sound p now rule .service := by
  have running : cleanText p "running" = "running".toList := cleanText_ascii (List.all_iff_forall_prop.mp (by decide))
  have failed : cleanText p "failed" = "failed".toList := cleanText_ascii (List.all_iff_forall_prop.mp (by decide))
  have empty : cleanText p "" = [] := cleanText_ascii (List.all_iff_forall_prop.mp (by decide))
  refine sound_snapshot decodeServices (evaluateServiceCondition p) (by rw [hm]; rfl)
    (fun c => by simp [verdict, evaluateCondition, hm]) (fun a b h => h) (fun target s s' he hd => ?_)
    (evaluate_serviceSnapshot "failed" ?_ ?_) (evaluate_serviceSnapshot "running" ?_ ?_)
  · simp only [evaluateServiceCondition, he, hd]
  · simp only [SystemService.running, failed, empty]
    decide
  · simp only [SystemService.broken, failed, empty]
    decide
  · simp only [SystemService.running, running, empty]
    decide
  · simp only [SystemService.broken, running, empty]
    decide

/-! ### Websites and certificates -/

/-- A metric without a case of its own is compared with the CPU. -/
theorem not_sound_unhandled {subject : Subject} (hm : rule.metric = "website" ∨ rule.metric = "ssl") :
    ¬Sound p now rule subject := by
  have reads : ∀ c, verdict p now rule c =
      evaluateNumber rule (latestMetric (fun s => some s.cpuUsage) c.telemetry) := fun c => by
    rcases hm with hm | hm <;> simp [verdict, evaluateCondition, hm]
  intro sound
  -- the websites of both contents are the same: there are none
  have agree : ∀ cpu cpu' : ℚ, subject.Agree (sampled cpu 0 1) (sampled cpu' 0 1) := by
    intro cpu cpu'
    have : subject = .website ∨ subject = .ssl := by
      rcases hm with hm | hm
      · exact Or.inl (Option.some.inj (sound.metric.symm.trans (by rw [hm]; rfl)))
      · exact Or.inr (Option.some.inj (sound.metric.symm.trans (by rw [hm]; rfl)))
    rcases this with rfl | rfl <;> rfl
  have compared : ∀ cpu : ℚ, (verdict p now rule (sampled cpu 0 1)).firing =
      compareAlertValue rule.operator cpu rule.threshold := fun cpu => by
    rw [reads]
    rfl
  have constant : ∀ cpu cpu' : ℚ, compareAlertValue rule.operator cpu rule.threshold =
      compareAlertValue rule.operator cpu' rule.threshold := fun cpu cpu' => by
    rw [← compared, ← compared, sound.only _ _ (agree cpu cpu')]
  -- so the operator compares nothing, and no CPU usage is firing
  have never : ∀ cpu : ℚ, compareAlertValue rule.operator cpu rule.threshold = false := by
    intro cpu
    by_cases above : rule.operator = ">"
    · rw [constant cpu rule.threshold, above]
      simp [compareAlertValue]
    · rw [constant cpu rule.threshold]
      simp [compareAlertValue]
  exact not_sound_of_bounded _ reads (fun c v _ _ => never v) sound

end

/-! ### Accepted rules -/

variable {p : Platform} {now : Time} {rule : AlertRule}

theorem Sound.meaningful {subject : Subject} (h : Sound p now rule subject) : Meaningful rule where
  evaluated := by
    constructor
    · exact fun hm => not_sound_unhandled (Or.inl hm) h
    · exact fun hm => not_sound_unhandled (Or.inr hm) h
  below hop hm ht := by
    simp only [List.mem_cons, List.not_mem_nil, or_false] at hm
    rcases hm with hm | hm | hm
    · exact not_sound_ram hm hop ht h
    · exact not_sound_network_below (·.latencyMs) (fun c => by simp [verdict, evaluateCondition, hm])
        (fun c hc => hc.latency) hop ht h
    · exact not_sound_network_below (·.packetLoss) (fun c => by simp [verdict, evaluateCondition, hm])
        (fun c hc n hn r hr v hv => (hc.loss n hn r hr v hv).1) hop ht h
  above hop hm ht := not_sound_loss_above hm hop ht h

theorem Meaningful.sound (h : Meaningful rule) (accepted : Accepted rule) : ∃ subject, Sound p now rule subject := by
  rcases accepted.cases with ⟨hm, compares⟩ | ⟨hm, compares⟩ | hm
  · simp only [List.mem_cons, List.not_mem_nil, or_false] at hm
    rcases hm with hm | hm | hm | hm
    · exact ⟨.cpu, sound_cpu hm compares⟩
    · exact ⟨.ram, sound_ram hm compares fun hop => h.below hop (by simp [hm])⟩
    · exact ⟨.disk, sound_disk hm compares⟩
    · exact ⟨.networkLoss, sound_loss hm compares (fun hop => h.below hop (by simp [hm])) fun hop => h.above hop hm⟩
  · exact ⟨.networkLatency, sound_latency hm compares fun hop => h.below hop (by simp [hm])⟩
  · simp only [List.mem_cons, List.not_mem_nil, or_false] at hm
    rcases hm with hm | hm | hm | hm | hm
    · exact ⟨.status, sound_status hm⟩
    · exact ⟨.container, sound_container hm⟩
    · exact ⟨.service, sound_service hm⟩
    · exact absurd hm h.evaluated.1
    · exact absurd hm h.evaluated.2

/-- Every stored rule is accepted. -/
def AllAccepted (db : AlertDb) : Prop := ∀ rule ∈ db.rules, Accepted rule

theorem accepted_toggle {explicitState : Option Bool} (h : Accepted rule) :
    Accepted (AlertDb.toggle explicitState rule) := by
  obtain ⟨payload, r, hr, accepts, id, userId, serverId, enabled, rfl⟩ := h
  exact ⟨payload, r, hr, accepts, id, userId, serverId, _, rfl⟩

theorem AllAccepted.editRule {db : AlertDb} {ruleId userId : Uuid} {set : AlertRule → AlertRule} (h : AllAccepted db)
    (hset : ∀ rule, Accepted rule → Accepted (set rule)) : AllAccepted (db.editRule ruleId userId set) := by
  intro rule hr
  rcases Update.mem_run_cases hr with ⟨hr, -⟩ | ⟨old, hold, -, rfl⟩
  · exact h rule hr
  · exact hset old (h old hold)

theorem AllAccepted.perform {db : AlertDb} (h : AllAccepted db) (op : AlertOp) : AllAccepted (db.perform p op) := by
  cases op with
  | listEnabledRules =>
    rw [AlertDb.perform, AllAccepted, AlertDb.rules_listEnabledRules]
    exact h
  | selectServers fails =>
    rw [AlertDb.perform, AllAccepted, AlertDb.rules_selectServers]
    exact h
  | evaluateNext telemetry faults =>
    rw [AlertDb.perform, AllAccepted, AlertDb.rules_evaluateNext]
    exact h
  | abandon => exact h
  | createRule userId payload =>
    intro rule hr
    rw [AlertDb.perform] at hr
    obtain ⟨new, hrules, hnew⟩ := (AlertDb.createRule_extends p db userId payload).rules
    rw [hrules] at hr
    rcases List.mem_append.mp hr with hr | hr
    · exact h rule hr
    · obtain ⟨-, accepts, id, serverId, rfl⟩ := hnew rule hr
      exact ⟨payload, payload.selectServers.normalize, Or.inl rfl, accepts, id, userId, serverId, true, rfl⟩
  | updateRule ruleId userId payload =>
    simp only [AlertDb.perform, AlertDb.updateRule]
    split
    · rename_i set hset
      obtain ⟨r, serverId, hr, accepts, -, rfl⟩ := AlertDb.acceptUpdate_eq_some hset
      exact h.editRule fun rule _ => ⟨payload, r, Or.inr hr, accepts, _, _, serverId, _, rfl⟩
    · exact h
  | toggleRule ruleId userId explicitState => exact h.editRule fun rule => accepted_toggle
  | deleteRule ruleId userId =>
    simp only [AlertDb.perform, AlertDb.deleteRule]
    split
    · exact fun rule hr => h rule (List.mem_filter.mp hr).1
    · exact h
  | addServer server => exact h
  | deleteServer serverId userId =>
    simp only [AlertDb.perform, AlertDb.deleteServer]
    split
    · exact fun rule hr => h rule (List.mem_filter.mp hr).1
    · exact h
  | onServers statement => exact h

theorem AllAccepted.step {db : AlertDb} (h : AllAccepted db) (a : AlertAction) :
    AllAccepted ((alertMachine p).step db a) :=
  (show AllAccepted (db.await a) from h).perform a.op

/-- In every state of the system a stored rule is evaluated as what it says exactly when it is meaningful. -/
theorem stored_sound_iff {db : AlertDb} {run : List AlertAction} (fresh : db.rules = [])
    (stored : rule ∈ ((alertMachine p).exec db run).rules) :
    (∃ subject, Sound p now rule subject) ↔ Meaningful rule := by
  have start : AllAccepted db := fun rule hr => by
    rw [fresh] at hr
    cases hr
  have all : (alertMachine p).Always AllAccepted db run := Machine.always_of_keep (fun db a h => h.step a) start
  have accepted : Accepted rule := all.last rule stored
  exact ⟨fun ⟨subject, sound⟩ => sound.meaningful, fun meaningful => meaningful.sound accepted⟩

/-! ### Two rules of one user -/

/-- A user with a channel and no rule. -/
def channelOnly : AlertDb where
  now := 0
  rules := []
  servers := []
  channels := [⟨"mail", 7, true⟩]
  states := fun _ _ => none
  nextId := 1
  loaded := []
  queue := []
  journal := []

/-- A request with a threshold of 90 that holds for 5 minutes. -/
def above90 (metric : String) : RulePayload where
  name := "above 90"
  metric := metric
  operator := ">"
  threshold := 90
  durationMinutes := 5
  repeatIntervalMinutes := 0
  targetName := none
  serverId := none
  serverIds := []
  channelIds := ["mail"]

/-- The rule that is stored for the request. -/
def requested (metric : String) : AlertRule := (above90 metric).row 1 7 none true

theorem stored_sound_iff_cpu : ∃ subject, Sound plainPlatform 0 (requested "cpu") subject :=
  have stored : requested "cpu" ∈
      ((alertMachine plainPlatform).exec channelOnly [⟨0, .createRule 7 (above90 "cpu")⟩]).rules := by decide
  (stored_sound_iff rfl stored).mpr ⟨by decide, by decide, by decide⟩

/-- A rule on websites is accepted and stored, and compares the CPU with its threshold. -/
theorem website_rule_unsound :
    requested "website" ∈ ((alertMachine plainPlatform).exec channelOnly [⟨0,
      .createRule 7 (above90 "website")⟩]).rules ∧
      ¬∃ subject, Sound plainPlatform 0 (requested "website") subject :=
  ⟨by decide, fun ⟨_, sound⟩ => sound.meaningful.evaluated.1 rfl⟩

end AlertVerdict
end DatrixOps
