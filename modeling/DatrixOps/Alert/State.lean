import DatrixOps.Alert.Condition

/-! The rows of `alert_state` and the statements of the alert worker on one of them, and what one
    evaluation of a rule on a server does with them: observe the condition, start an incident, remind
    of it, resolve it. -/

namespace DatrixOps
open Postgres

inductive AlertStatus where
  | ok | pending | firing
  deriving DecidableEq, Repr

/-- A row of `alert_state`, which its rule and its server identify. -/
structure AlertState where
  status : AlertStatus
  lastTriggeredAt : Option Time
  lastNotifiedAt : Option Time
  conditionStartedAt : Option Time
  deriving DecidableEq, Repr

namespace AlertState

def firing (s : AlertState) : Bool := s.status = .firing

/-- `INSERT INTO alert_state .. 'pending', NOW() .. ON CONFLICT DO UPDATE` of conditionSatisfiedLongEnough -/
def observe (now : Time) : Option AlertState → AlertState
  | none => ⟨.pending, none, none, some now⟩
  | some s => { s with
      status := if s.status = .firing then .firing else .pending
      conditionStartedAt := some (s.conditionStartedAt.getD now) }

/-- `INSERT INTO alert_state .. 'firing' .. ON CONFLICT DO UPDATE .. WHERE status IS DISTINCT FROM 'firing'` of
    handleFiring: no row is affected when the alert fires already. The notification time is set by the
    insert only. -/
def start (now : Time) : Option AlertState → Option AlertState
  | none => some ⟨.firing, some now, some now, none⟩
  | some s =>
    if s.status = .firing then none
    else some { s with
      status := .firing
      lastTriggeredAt := some now
      conditionStartedAt := some (s.conditionStartedAt.getD now) }

/-- `UPDATE alert_state SET last_notified_at = NOW()` -/
def notified (now : Time) (s : AlertState) : AlertState := { s with lastNotifiedAt := some now }

/-- `UPDATE alert_state SET status = 'ok', ..` of handleResolved -/
def resolve (now : Time) (s : AlertState) : AlertState where
  status := .ok
  lastTriggeredAt := if s.status = .firing then some now else s.lastTriggeredAt
  lastNotifiedAt := none
  conditionStartedAt := none

/-- A reminder is due: none was sent yet, or the last notification is an interval ago. -/
def reminderDue (now : Time) (repeatIntervalMinutes : Int) (s : AlertState) : Bool :=
  match s.lastNotifiedAt with
  | none => true
  | some last => now - last ≥ repeatIntervalMinutes * minute

end AlertState

/-- For status, container, and service rules, trigger immediately once condition is satisfied. -/
def AlertRule.immediate (rule : AlertRule) : Bool :=
  rule.metric = "status" || rule.metric = "container" || rule.metric = "service"

/-- The answer of conditionSatisfiedLongEnough, `observed` being the row its statement returned. -/
def satisfiedLongEnough (now : Time) (rule : AlertRule) (observed : AlertState) : Bool :=
  observed.firing || rule.immediate ||
    observed.conditionStartedAt.all fun startedAt => startedAt + rule.durationMinutes * minute ≤ now

/-- What the worker announces. The first and the last also write a dashboard notification, in the same
    transaction as the row. -/
inductive Notice where
  | firing | reminder | resolved
  deriving DecidableEq, Repr

/-- Which statements of an evaluation fail: the observation, the firing transaction, the read and the
    update of a reminder, the resolving transaction. -/
structure Faults where
  observe : Bool
  start : Bool
  lastNotified : Bool
  notified : Bool
  resolve : Bool
  deriving DecidableEq, Repr

def Faults.none : Faults := ⟨false, false, false, false, false⟩

/-- handleFiring: the row afterwards and what was sent. -/
def handleFiring (now : Time) (rule : AlertRule) (f : Faults) (old : Option AlertState) :
    Option AlertState × List Notice :=
  if f.start then (old, [])
  else
    match AlertState.start now old with
    | some started => (some started, [.firing])
    | none =>
      match old with
      | none => (old, [])
      | some s =>
        if rule.repeatIntervalMinutes > 0 ∧ f.lastNotified = false ∧ s.reminderDue now rule.repeatIntervalMinutes then
          -- the reminder is sent also when its update fails
          (some (if f.notified then s else s.notified now), [.reminder])
        else (old, [])

/-- handleResolved -/
def handleResolved (now : Time) (f : Faults) (old : Option AlertState) : Option AlertState × List Notice :=
  match old with
  | none => (none, [])
  | some s =>
    if f.resolve then (some s, [])
    else (some (s.resolve now), if s.firing then [.resolved] else [])

/-- What evaluateRule does on one server once it has its verdict. -/
def handleVerdict (now : Time) (rule : AlertRule) (v : Verdict) (f : Faults) (old : Option AlertState) :
    Option AlertState × List Notice :=
  if v.hasData = false then (old, [])
  else if v.firing then
    if f.observe then (old, [])
    else
      let observed := AlertState.observe now old
      if satisfiedLongEnough now rule observed then handleFiring now rule f (some observed)
      else (some observed, [])
  else handleResolved now f old

/-! ### What an evaluation can do -/

section
variable {now : Time} {rule : AlertRule} {v : Verdict} {f : Faults} {old : Option AlertState} {s : AlertState}

/-- The row and the notices after an evaluation, case by case. -/
inductive Handled (now : Time) (rule : AlertRule) (v : Verdict) (f : Faults) (old : Option AlertState) :
    Option AlertState → List Notice → Prop
  | skipped (why : v.hasData = false ∨ (v.firing = true ∧ f.observe = true) ∨
      (v.firing = false ∧ (old = none ∨ f.resolve = true))) : Handled now rule v f old old []
  | observed (satisfied : v.hasData = true ∧ v.firing = true) (written : f.observe = false) :
      Handled now rule v f old (some (.observe now old)) []
  | started (satisfied : v.hasData = true ∧ v.firing = true) (written : f.observe = false ∧ f.start = false)
      (idle : (AlertState.observe now old).status ≠ .firing)
      (long : rule.immediate = true ∨ ∀ startedAt, (AlertState.observe now old).conditionStartedAt = some startedAt →
        startedAt + rule.durationMinutes * minute ≤ now) :
      Handled now rule v f old
        (some { AlertState.observe now old with status := .firing, lastTriggeredAt := some now }) [.firing]
  | reminded (s : AlertState) (was : old = some s) (satisfied : v.hasData = true ∧
    v.firing = true) (fires : s.status = .firing)
      (read : f.observe = false ∧ f.start = false ∧ f.lastNotified = false) (repeats : rule.repeatIntervalMinutes > 0)
      (due : s.reminderDue now rule.repeatIntervalMinutes = true) :
      Handled now rule v f old
        (some (if f.notified then .observe now old else (AlertState.observe now old).notified now)) [.reminder]
  | resolved (s : AlertState) (was : old = some s) (unsatisfied : v.hasData = true ∧
    v.firing = false) (written : f.resolve = false) :
      Handled now rule v f old (some (s.resolve now)) (if s.firing then [.resolved] else [])

theorem AlertState.start_observe :
    AlertState.start now (some (.observe now old)) = if (AlertState.observe now old).status = .firing then none
      else some { AlertState.observe now old with status := .firing, lastTriggeredAt := some now } := by
  cases old <;> simp [AlertState.start, AlertState.observe]

theorem AlertState.observe_firing : (AlertState.observe now old).status = .firing ↔ ∃ s, old = some s ∧
    s.status = .firing := by
  cases old with
  | none => simp [AlertState.observe]
  | some s =>
    by_cases h : s.status = .firing
    · simp [AlertState.observe, h]
    · simp [AlertState.observe, h]

theorem handleVerdict_handled :
    Handled now rule v f old (handleVerdict now rule v f old).1 (handleVerdict now rule v f old).2 := by
  unfold handleVerdict
  by_cases hd : v.hasData = false
  · rw [if_pos hd]
    exact .skipped (Or.inl hd)
  rw [if_neg hd]
  have hasData : v.hasData = true := by simpa using hd
  by_cases hv : v.firing = true
  · rw [if_pos hv]
    by_cases ho : f.observe = true
    · rw [if_pos ho]
      exact .skipped (Or.inr (Or.inl ⟨hv, ho⟩))
    rw [if_neg ho]
    have written : f.observe = false := by simpa using ho
    by_cases long : satisfiedLongEnough now rule (.observe now old) = true
    · simp only [if_pos long, handleFiring]
      by_cases hs : f.start = true
      · rw [if_pos hs]
        exact .observed ⟨hasData, hv⟩ written
      rw [if_neg hs, AlertState.start_observe]
      by_cases hf : (AlertState.observe now old).status = .firing
      · rw [if_pos hf]
        dsimp only
        split
        · rename_i h
          obtain ⟨s, rfl, fires⟩ := AlertState.observe_firing.mp hf
          exact .reminded s rfl ⟨hasData, hv⟩ fires ⟨written, by simpa using hs, h.2.1⟩ h.1 h.2.2
        · exact .observed ⟨hasData, hv⟩ written
      · rw [if_neg hf]
        refine .started ⟨hasData, hv⟩ ⟨written, by simpa using hs⟩ hf ?_
        simp only [satisfiedLongEnough, AlertState.firing, decide_eq_false hf, Bool.false_or, Bool.or_eq_true] at long
        rcases long with h | h
        · exact Or.inl h
        · refine Or.inr fun startedAt hstart => ?_
          rw [hstart] at h
          simpa using h
    · simp only [if_neg long]
      exact .observed ⟨hasData, hv⟩ written
  · rw [if_neg hv]
    have unsatisfied : v.firing = false := by simpa using hv
    cases old with
    | none => exact .skipped (Or.inr (Or.inr ⟨unsatisfied, Or.inl rfl⟩))
    | some s =>
      by_cases hr : f.resolve = true
      · simp only [handleResolved, if_pos hr]
        exact .skipped (Or.inr (Or.inr ⟨unsatisfied, Or.inr hr⟩))
      · simp only [handleResolved, if_neg hr]
        exact .resolved s rfl ⟨hasData, unsatisfied⟩ (by simpa using hr)

/-- The evaluation starts an incident: a satisfied condition, for long enough, on a row that is not firing,
    and no statement fails. -/
def startsIncident (now : Time) (rule : AlertRule) (v : Verdict) (f : Faults) (old : Option AlertState) : Bool :=
  v.hasData && v.firing && !f.observe && !f.start && satisfiedLongEnough now rule (.observe now old) &&
    !old.any AlertState.firing

theorem AlertState.any_firing : old.any AlertState.firing = true ↔ ∃ s, old = some s ∧ s.status = .firing := by
  cases old <;> simp [AlertState.firing]

/-- A row fires after an evaluation when it fired before or the evaluation starts an incident. -/
theorem firing_handleVerdict : (handleVerdict now rule v f old).1.any AlertState.firing = true →
    old.any AlertState.firing = true ∨ startsIncident now rule v f old = true := by
  intro after
  by_cases before : old.any AlertState.firing = true
  · exact Or.inl before
  have idle : (AlertState.observe now old).status ≠ .firing := fun h =>
    before (AlertState.any_firing.mpr (AlertState.observe_firing.mp h))
  refine Or.inr ?_
  unfold handleVerdict at after
  by_cases hd : v.hasData = false
  · rw [if_pos hd] at after
    exact absurd after before
  rw [if_neg hd] at after
  by_cases hv : v.firing = true
  · rw [if_pos hv] at after
    by_cases ho : f.observe = true
    · rw [if_pos ho] at after
      exact absurd after before
    rw [if_neg ho] at after
    by_cases long : satisfiedLongEnough now rule (.observe now old) = true
    · simp only [if_pos long, handleFiring] at after
      by_cases hs : f.start = true
      · rw [if_pos hs] at after
        simp [AlertState.firing, idle] at after
      · simp [startsIncident, hd, hv, ho, hs, long, before]
    · simp only [if_neg long] at after
      simp [AlertState.firing, idle] at after
  · rw [if_neg hv] at after
    cases old with
    | none => simp [handleResolved] at after
    | some s =>
      simp only [handleResolved] at after
      split at after
      · exact absurd after before
      · simp [AlertState.resolve, AlertState.firing] at after

/-- An evaluation that starts an incident leaves the row firing. -/
theorem handleVerdict_of_starts (h : startsIncident now rule v f old = true) : handleVerdict now rule v f old =
    (some { AlertState.observe now old with status := .firing, lastTriggeredAt := some now }, [.firing]) := by
  simp only [startsIncident, Bool.and_eq_true, Bool.not_eq_true'] at h
  obtain ⟨⟨⟨⟨⟨hd, hv⟩, ho⟩, hs⟩, long⟩, before⟩ := h
  have idle : (AlertState.observe now old).status ≠ .firing := fun h => by
    rw [AlertState.any_firing.mpr (AlertState.observe_firing.mp h)] at before
    cases before
  simp [handleVerdict, hd, hv, ho, long, handleFiring, hs, AlertState.start_observe, idle]

/-- The evaluation sends a reminder: the row fires and a reminder is due, and no statement before it fails. -/
def sendsReminder (now : Time) (rule : AlertRule) (v : Verdict) (f : Faults) (old : Option AlertState) : Bool :=
  v.hasData && v.firing && !f.observe && !f.start && !f.lastNotified && rule.repeatIntervalMinutes > 0 &&
    old.any fun s => s.firing && s.reminderDue now rule.repeatIntervalMinutes

end

end DatrixOps
