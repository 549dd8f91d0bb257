import DatrixOps.Alert.System

/-! What a failed read does to alert state. Every metric family but the snapshot ones reports no data
    when its read fails, and then nothing changes. A rule on a named container or service takes a failed
    query, and an empty snapshot, for the absence of what it names. -/

namespace DatrixOps
namespace AlertFailure
open Postgres

/-- The snapshot is missing, empty or not decodable. -/
def NoSnapshot {α : Type} (decode : Golang.Json → Option α) (t : Telemetry) : Prop :=
  ∀ report, t.report = some report → emptySnapshot report.snapshot = true ∨ report.snapshot.bind decode = none

/-- The read behind a rule's condition fails: a database error, an undecodable value, or no telemetry. -/
def Unreadable (p : Platform) (now : Time) (rule : AlertRule) : Option Telemetry → Prop
  | none => True
  | some t =>
    match rule.metric with
    | "container" => NoSnapshot decodeContainers t
    | "service" => NoSnapshot decodeServices t
    | "network_latency" => ∀ r ∈ latestResults p now (targetFilter rule) t.networkTargets, r.latencyMs = none
    | "network_loss" => ∀ r ∈ latestResults p now (targetFilter rule) t.networkTargets, r.packetLoss = none
    | "disk" => diskUsage t = none
    | "ram" => latestMetric memoryUsage t = none
    | _ => t.metrics = []

/-- The failures that a rule on a named container or service counts as the condition holding. -/
def CountsAsFiring (rule : AlertRule) (db : Option Telemetry) : Prop :=
  (rule.metric = "container" ∨ rule.metric = "service") ∧
    ((db.bind (·.report) = none ∧ ∃ name, rule.targetName = some name ∧ name ≠ "") ∨
      ∃ report, db.bind (·.report) = some report ∧ emptySnapshot report.snapshot = true ∧
        Golang.trimSpace (rule.targetName.getD "").toList ≠ [])

/-- The statuses are those of before, and no dashboard notification was committed. -/
def Unchanged (db db' : AlertDb) : Prop :=
  (∀ r s, (db'.states r s).map (·.status) = (db.states r s).map (·.status)) ∧
    db'.notifications = db.notifications

/-- The row keeps its status although the verdict is firing: it fires already, its observation fails, or it is
    pending and the firing transaction fails. -/
def StaysAnyway (f : Faults) (old : Option AlertState) : Prop :=
  f.observe = true ∨ ∃ s, old = some s ∧ (s.status = .firing ∨ (s.status = .pending ∧ f.start = true))

/-! ### The verdict of a failed read -/

section
variable {p : Platform} {now : Time} {rule : AlertRule} {db : Option Telemetry}

theorem aggregate_eq_none {operator : String} {values : List ℚ} (h : values = []) :
    aggregate operator values = none := by
  simp [aggregate, h]

theorem evaluateNumber_none : evaluateNumber rule none = .noData := rfl

theorem evaluateNetwork_noData {column : NetworkSample → Option ℚ}
    (h : ∀ t, db = some t → ∀ r ∈ latestResults p now (targetFilter rule) t.networkTargets, column r = none) :
    evaluateNetwork p now column rule db = .noData := by
  unfold evaluateNetwork
  cases db with
  | none => rfl
  | some t =>
    have empty : (latestResults p now (targetFilter rule) t.networkTargets).filterMap column = [] :=
      List.filterMap_eq_nil_iff.mpr (h t rfl)
    rw [Option.bind_some, aggregate_eq_none empty]

theorem evaluateNumber_bind_none {read : Telemetry → Option ℚ} (h : ∀ t, db = some t → read t = none) :
    evaluateNumber rule (db.bind read) = .noData := by
  cases db with
  | none => rfl
  | some t => rw [Option.bind_some, h t rfl, evaluateNumber_none]

/-- What a rule on the snapshot concludes from a snapshot it cannot read. -/
theorem evaluateSnapshot_unreadable {α : Type} (decode : Golang.Json → Option α)
    {evaluate : String → Option Golang.Json → Verdict}
    (empty : ∀ target snapshot, emptySnapshot snapshot = true →
      evaluate target snapshot = if Golang.trimSpace target.toList ≠ [] then .of true else .noData)
    (undecodable : ∀ target snapshot, emptySnapshot snapshot = false → snapshot.bind decode = none →
      evaluate target snapshot = .noData)
    (metric : rule.metric = "container" ∨ rule.metric = "service") (h : ∀ t, db = some t → NoSnapshot decode t) :
    (CountsAsFiring rule db → evaluateSnapshot evaluate rule db = .of true) ∧
      (¬CountsAsFiring rule db → evaluateSnapshot evaluate rule db = .noData) := by
  unfold evaluateSnapshot
  cases hreport : db.bind (·.report) with
  | none =>
    have named : rule.targetName.any (· ≠ "") = true ↔ ∃ name, rule.targetName = some name ∧ name ≠ "" := by
      cases rule.targetName <;> simp
    by_cases hn : rule.targetName.any (· ≠ "") = true
    · have counts : CountsAsFiring rule db := ⟨metric, Or.inl ⟨hreport, named.mp hn⟩⟩
      simp only [if_pos hn]
      exact ⟨fun _ => trivial, fun no => absurd counts no⟩
    · simp only [if_neg hn]
      refine ⟨fun counts => ?_, fun _ => trivial⟩
      rcases counts.2 with ⟨-, hname⟩ | ⟨report, hr, -⟩
      · exact absurd (named.mpr hname) hn
      · rw [hreport] at hr
        cases hr
  | some report =>
    have counts : CountsAsFiring rule db ↔ emptySnapshot report.snapshot = true ∧
        Golang.trimSpace (rule.targetName.getD "").toList ≠ [] := by
      simp [CountsAsFiring, metric, hreport]
    obtain ⟨t, rfl, ht⟩ := Option.bind_eq_some_iff.mp hreport
    rw [counts]
    dsimp only
    cases he : emptySnapshot report.snapshot with
    | true =>
      rw [empty _ _ he]
      exact ⟨fun hc => if_pos hc.2, fun hc => if_neg fun hne => hc ⟨rfl, hne⟩⟩
    | false =>
      have none : report.snapshot.bind decode = none := by
        rcases h t rfl report ht with h | h
        · rw [he] at h
          cases h
        · exact h
      rw [undecodable _ _ he none]
      exact ⟨fun hc => absurd hc.1 (by simp), fun _ => rfl⟩

/-- A failed read is no data, but for the failures that count as firing. -/
theorem evaluateCondition_unreadable (lastSeen : Option Time) (metric : rule.metric ≠ "status")
    (h : Unreadable p now rule db) :
    (CountsAsFiring rule db → evaluateCondition p now db rule lastSeen = .of true) ∧
      (¬CountsAsFiring rule db → evaluateCondition p now db rule lastSeen = .noData) := by
  unfold evaluateCondition
  rw [if_neg metric]
  by_cases hc : rule.metric = "container"
  · rw [if_pos hc]
    refine evaluateSnapshot_unreadable decodeContainers (fun target snapshot he => ?_)
      (fun target snapshot he hd => ?_) (Or.inl hc) fun t ht => ?_
    · simp [evaluateContainerCondition, he]
    · simp [evaluateContainerCondition, he, hd]
    · subst ht
      simpa [Unreadable, hc] using h
  rw [if_neg hc]
  by_cases hs : rule.metric = "service"
  · rw [if_pos hs]
    refine evaluateSnapshot_unreadable decodeServices (fun target snapshot he => ?_)
      (fun target snapshot he hd => ?_) (Or.inr hs) fun t ht => ?_
    · simp [evaluateServiceCondition, he]
    · simp [evaluateServiceCondition, he, hd]
    · subst ht
      simpa [Unreadable, hs] using h
  rw [if_neg hs]
  have never : ¬CountsAsFiring rule db := fun counts => counts.1.elim hc hs
  refine ⟨fun counts => absurd counts never, fun _ => ?_⟩
  by_cases hl : rule.metric = "network_latency"
  · rw [if_pos hl]
    refine evaluateNetwork_noData fun t ht => ?_
    subst ht
    simpa [Unreadable, hl] using h
  rw [if_neg hl]
  by_cases hp : rule.metric = "network_loss"
  · rw [if_pos hp]
    refine evaluateNetwork_noData fun t ht => ?_
    subst ht
    simpa [Unreadable, hp] using h
  rw [if_neg hp]
  by_cases hd : rule.metric = "disk"
  · rw [if_pos hd]
    refine evaluateNumber_bind_none fun t ht => ?_
    subst ht
    simpa [Unreadable, hd] using h
  rw [if_neg hd]
  refine evaluateNumber_bind_none fun t ht => ?_
  subst ht
  by_cases hr : rule.metric = "ram"
  · simpa [Unreadable, hr] using h
  · have none : t.metrics = [] := by simpa [Unreadable, hc, hs, hl, hp, hd, hr] using h
    simp [latestMetric, newest, none]

end

/-! ### The row and the notices -/

section
variable {now : Time} {rule : AlertRule} {f : Faults} {old : Option AlertState}

/-- The evaluation keeps the status and commits no notification. -/
def Keeps (old : Option AlertState) (after : Option AlertState × List Notice) : Prop :=
  after.1.map (·.status) = old.map (·.status) ∧ ∀ n ∈ after.2, n = .reminder

theorem handleVerdict_noData : handleVerdict now rule .noData f old = (old, []) := rfl

theorem handleVerdict_immediate (h : rule.immediate = true) : handleVerdict now rule (.of true) f old =
    if f.observe then (old, []) else handleFiring now rule f (some (.observe now old)) := by
  simp [handleVerdict, Verdict.of, satisfiedLongEnough, h]

theorem keeps_handleFiring_of_firing {s : AlertState} (fires : s.status = .firing) :
    Keeps (some s) (handleFiring now rule f (some s)) := by
  unfold handleFiring
  split
  · exact ⟨rfl, by simp⟩
  · simp only [AlertState.start, if_pos fires]
    split
    · refine ⟨?_, by simp⟩
      split <;> rfl
    · exact ⟨rfl, by simp⟩

/-- What an immediate rule that counts a failure as firing does to the row. -/
theorem keeps_immediate_iff (immediate : rule.immediate = true) :
    Keeps old (handleVerdict now rule (.of true) f old) ↔ StaysAnyway f old := by
  rw [handleVerdict_immediate immediate]
  by_cases ho : f.observe = true
  · rw [if_pos ho]
    exact ⟨fun _ => Or.inl ho, fun _ => ⟨rfl, by simp⟩⟩
  rw [if_neg ho]
  by_cases hf : (AlertState.observe now old).status = .firing
  · obtain ⟨s, rfl, fires⟩ := AlertState.observe_firing.mp hf
    have kept : Keeps _ (handleFiring now rule f (some (.observe now (some s)))) := keeps_handleFiring_of_firing hf
    have status : (AlertState.observe now (some s)).status = s.status := by simp [AlertState.observe, fires]
    refine ⟨fun _ => Or.inr ⟨s, rfl, Or.inl fires⟩, fun _ => ⟨?_, kept.2⟩⟩
    rw [kept.1, Option.map_some, Option.map_some, status]
  · have notFiring : ∀ s, old = some s → s.status ≠ .firing :=
      fun s hs h => hf (AlertState.observe_firing.mpr ⟨s, hs, h⟩)
    have observed : (AlertState.observe now old).status = .pending := by
      cases old with
      | none => rfl
      | some s => simp [AlertState.observe, notFiring s rfl]
    by_cases hs : f.start = true
    · simp only [handleFiring, if_pos hs, Keeps, StaysAnyway, Option.map_some, observed]
      cases old with
      | none => simp [ho]
      | some s =>
        have other := notFiring s rfl
        constructor
        · exact fun h => Or.inr ⟨s, rfl, Or.inr ⟨(Option.some.inj h.1).symm, hs⟩⟩
        · rintro (h | ⟨t, ht, h⟩)
          · exact absurd h ho
          · obtain rfl := Option.some.inj ht
            rcases h with h | h
            · exact absurd h other
            · exact ⟨congrArg some h.1.symm, by simp⟩
    · rw [handleFiring, if_neg hs, AlertState.start_observe, if_neg hf]
      simp [Keeps, StaysAnyway, ho, hs]
      exact notFiring

end

/-! ### The worker -/

variable {p : Platform} {db : AlertDb} {next : Pending} {rest : List Pending}
  {telemetry : Option Telemetry} {f : Faults}

theorem immediate_of_countsAsFiring {rule : AlertRule} (h : CountsAsFiring rule telemetry) : rule.immediate = true := by
  rcases h.1 with h | h <;> simp [AlertRule.immediate, h]

/-- The evaluation of the next server keeps the alerts if the evaluation of its row does. -/
theorem unchanged_evaluateNext_iff (hq : db.queue = next :: rest) : Unchanged db (db.evaluateNext p telemetry f) ↔
    Keeps (db.states next.rule.id next.serverId) (db.evaluation p next telemetry f) := by
  refine and_congr ?_ ?_
  · constructor
    · intro h
      simpa [AlertDb.states_evaluateNext hq] using h next.rule.id next.serverId
    · intro h r s
      rw [AlertDb.states_evaluateNext hq]
      split
      · rename_i here
        rw [here.1, here.2, h]
      · rfl
  · have evaluated : (db.evaluated p next telemetry).filter Entry.onDashboard = [] := by
      unfold AlertDb.evaluated
      cases (db.verdict p next telemetry).hasData <;> rfl
    simp only [AlertDb.notifications, AlertDb.journal_evaluateNext hq, List.filter_append, evaluated, List.nil_append,
      List.append_left_eq_self]
    simp [List.filter_eq_nil_iff, Entry.onDashboard]

/-- A failed read keeps alert state exactly when it does not count as firing, or the row stays anyway. -/
theorem unchanged_iff (hq : db.queue = next :: rest) (metric : next.rule.metric ≠ "status")
    (failed : Unreadable p db.now next.rule telemetry) :
    Unchanged db (db.evaluateNext p telemetry f) ↔
      (CountsAsFiring next.rule telemetry →
        StaysAnyway (db.faults next.rule.id next.serverId f) (db.states next.rule.id next.serverId)) := by
  have verdict := evaluateCondition_unreadable next.lastSeen metric failed
  rw [unchanged_evaluateNext_iff hq, AlertDb.evaluation, AlertDb.verdict]
  by_cases counts : CountsAsFiring next.rule telemetry
  · rw [verdict.1 counts, keeps_immediate_iff (immediate_of_countsAsFiring counts)]
    exact ⟨fun h _ => h, fun h => h counts⟩
  · rw [verdict.2 counts, handleVerdict_noData]
    exact ⟨fun _ h => absurd h counts, fun _ => ⟨rfl, by simp⟩⟩

/-! ### A run in which the database fails for one query -/

/-- A rule on the container `db` of its owner's server 1, loaded and at that server. -/
def containerRule : AlertRule where
  id := 5
  userId := 7
  name := "database container"
  metric := "container"
  operator := "=="
  threshold := 0
  durationMinutes := 1
  repeatIntervalMinutes := 0
  targetName := some "db"
  serverId := some 1
  enabled := true

/-- The rule on one server, which has no row yet. -/
def watchingDb : AlertDb where
  now := 0
  rules := [containerRule]
  servers := [linuxServer]
  channels := []
  states := fun _ _ => none
  nextId := 6
  loaded := []
  queue := [⟨containerRule, 1, some 0⟩]
  journal := []

theorem unchanged_iff_watchingDb :
    Unchanged watchingDb (watchingDb.evaluateNext plainPlatform none .none) ↔
      (CountsAsFiring containerRule none → StaysAnyway (watchingDb.faults 5 1 .none) none) :=
  unchanged_iff (show watchingDb.queue = ⟨containerRule, 1, some 0⟩ :: [] from rfl) (by decide) trivial

/-- One failed query, and the incident is announced. -/
theorem announced_by_failedQuery : Unreadable plainPlatform 0 containerRule none ∧ containerRule.metric ≠ "status" ∧
    ¬Unchanged watchingDb (watchingDb.evaluateNext plainPlatform none .none) := by
  refine ⟨trivial, by decide, fun h => ?_⟩
  have none := h.2
  revert none
  decide

end AlertFailure
end DatrixOps
