import DatrixOps.Alert.WellFormed

/-! How far apart the notifications of one incident are. The transition to firing does not set
    `last_notified_at` when the row is there already, and the observation before it sees to that; so the
    first reminder is due at once. From the first reminder on the interval is kept, as long as its update
    is not lost. -/

namespace DatrixOps
namespace AlertSpacing
open Postgres

/-- The notices sent about a rule and a server, newest first. -/
def sentFor (rule server : Uuid) (journal : List Entry) : List (Time × Notice) :=
  journal.filterMap fun
    | .sent r s t notice => if r = rule ∧ s = server then some (t, notice) else none
    | _ => none

/-- A reminder is at least `gap` after the notice before it: the first of its incident or another reminder. -/
def Spaced (gap : Time) : List (Time × Notice) → Prop
  | (t, n) :: (t', n') :: rest => (n = .reminder → t' + gap ≤ t) ∧ Spaced gap ((t', n') :: rest)
  | _ => True

/-- The reminders of every rule that has an interval keep to it. -/
def AllSpaced (db : AlertDb) : Prop :=
  ∀ rule ∈ db.rules, rule.repeatIntervalMinutes > 0 → ∀ server,
    Spaced (rule.repeatIntervalMinutes * minute) (sentFor rule.id server db.journal)

/-- The operations of the worker, between which servers are heard from or uninstalled. -/
def Tick : AlertOp → Prop
  | .listEnabledRules | .selectServers _ | .evaluateNext _ _ | .abandon | .onServers _ => True
  | _ => False

instance : DecidablePred Tick := fun op => by
  cases op <;> unfold Tick <;> infer_instance

/-- The first reminder of an incident comes an interval after its start, and no reminder loses its update. -/
def Careful (p : Platform) (db : AlertDb) : AlertOp → Prop
  | .evaluateNext telemetry f =>
    ∀ next rest, db.queue = next :: rest →
      sendsReminder db.now next.rule (db.verdict p next telemetry) (db.faults next.rule.id next.serverId f)
          (db.states next.rule.id next.serverId) = true →
        f.notified = false ∧ ∀ s, db.states next.rule.id next.serverId = some s → s.lastNotifiedAt = none →
          ∀ start, s.lastTriggeredAt = some start → start + next.rule.repeatIntervalMinutes * minute ≤ db.now
  | _ => True

/-- No incident is open, nothing has been sent, and the worker is idle. -/
structure Start (db : AlertDb) : Prop where
  wellFormed : db.WellFormed
  quiet : ∀ r s state, db.states r s = some state → state.status ≠ .firing ∧ state.lastNotifiedAt = none
  idle : db.loaded = [] ∧ db.queue = []
  silent : db.journal = []

/-! ### The invariant -/

/-- What a row says of the notices sent: while it fires, when the last of them was. -/
structure Recorded (state : Option AlertState) (sent : List (Time × Notice)) : Prop where
  firing : ∀ s, state = some s → s.status = .firing → ∃ t n rest, sent = (t, n) :: rest ∧
    (s.lastNotifiedAt = some t ∨ (s.lastNotifiedAt = none ∧ s.lastTriggeredAt = some t))
  idle : ∀ s, state = some s → s.status ≠ .firing → s.lastNotifiedAt = none

/-- What is kept: the notices sent are spaced, and the rows record the last of them. -/
structure Inv (db : AlertDb) : Prop where
  wellFormed : db.WellFormed
  copies : ∀ c ∈ db.copies, c ∈ db.rules
  spaced : AllSpaced db
  recorded : ∀ r s, Recorded (db.states r s) (sentFor r s db.journal)

theorem Start.inv {db : AlertDb} (h : Start db) : Inv db where
  wellFormed := h.wellFormed
  copies c hc := by
    rw [AlertDb.copies, h.idle.1, h.idle.2] at hc
    cases hc
  spaced rule _ _ server := by
    rw [h.silent]
    trivial
  recorded r s := ⟨fun state hs hf => absurd hf (h.quiet r s state hs).1, fun state hs _ => (h.quiet r s state hs).2⟩

section
variable {now : Time} {rule : AlertRule} {v : Verdict} {f : Faults} {old new : Option AlertState}
  {notices : List Notice}
  {sent : List (Time × Notice)} {gap : Time}

theorem Spaced.cons_of_ne {t : Time} {n : Notice} (h : Spaced gap sent) (hn : n ≠ .reminder) :
    Spaced gap ((t, n) :: sent) := by
  cases sent with
  | nil => trivial
  | cons last rest => exact ⟨fun h => absurd h hn, h⟩

/-- What an evaluation does to a row and to what has been sent. -/
theorem Recorded.handled (h : Recorded old sent) (spaced : rule.repeatIntervalMinutes > 0 →
      Spaced (rule.repeatIntervalMinutes * minute) sent) (handled : Handled now rule v f old new notices)
    (careful : sendsReminder now rule v f old = true → f.notified = false ∧ ∀ s, old = some s →
      s.lastNotifiedAt = none →
      ∀ start, s.lastTriggeredAt = some start → start + rule.repeatIntervalMinutes * minute ≤ now) :
    (rule.repeatIntervalMinutes > 0 →
        Spaced (rule.repeatIntervalMinutes * minute) (notices.map (now, ·) ++ sent)) ∧
      Recorded new (notices.map (now, ·) ++ sent) := by
  cases handled with
  | skipped why => exact ⟨spaced, h⟩
  | observed satisfied written =>
    refine ⟨spaced, fun s hs hf => ?_, fun s hs hf => ?_⟩
    · obtain rfl := Option.some.inj hs
      obtain ⟨s, rfl, fires⟩ := AlertState.observe_firing.mp hf
      exact h.firing s rfl fires
    · obtain rfl := Option.some.inj hs
      cases old with
      | none => rfl
      | some s => exact h.idle s rfl fun fires => hf (AlertState.observe_firing.mpr ⟨s, rfl, fires⟩)
  | started satisfied written idle long =>
    refine ⟨fun hr => (spaced hr).cons_of_ne (by decide), fun s hs hf => ?_, fun s hs hf => ?_⟩
    · obtain rfl := Option.some.inj hs
      refine ⟨now, .firing, sent, rfl, Or.inr ⟨?_, rfl⟩⟩
      cases old with
      | none => rfl
      | some s => exact h.idle s rfl fun fires => idle (AlertState.observe_firing.mpr ⟨s, rfl, fires⟩)
    · obtain rfl := Option.some.inj hs
      exact absurd rfl hf
  | reminded s was satisfied fires read repeats due =>
    subst was
    have reminds : sendsReminder now rule v f (some s) = true := by
      simp [sendsReminder, satisfied, read, repeats, due, AlertState.firing, fires]
    obtain ⟨kept, waited⟩ := careful reminds
    obtain ⟨t, n, rest, rfl, last⟩ := h.firing s rfl fires
    have apart : t + rule.repeatIntervalMinutes * minute ≤ now := by
      rcases last with last | ⟨last, start⟩
      · simp only [AlertState.reminderDue, last, ge_iff_le, decide_eq_true_eq] at due
        exact Int.add_le_of_le_sub_left due
      · exact waited s rfl last t start
    simp only [kept, Bool.false_eq_true, if_false]
    refine ⟨fun hr => ⟨fun _ => apart, spaced hr⟩, fun s' hs hf => ?_, fun s' hs hf => ?_⟩
    · obtain rfl := Option.some.inj hs
      exact ⟨now, .reminder, (t, n) :: rest, rfl, Or.inl rfl⟩
    · obtain rfl := Option.some.inj hs
      have stays : (AlertState.observe now (some s)).status = .firing := AlertState.observe_firing.mpr ⟨s, rfl, fires⟩
      exact absurd stays hf
  | resolved s was unsatisfied written =>
    refine ⟨fun hr => ?_, fun s' hs hf => ?_, fun s' hs hf => ?_⟩
    · split
      · exact (spaced hr).cons_of_ne (by decide)
      · exact spaced hr
    · obtain rfl := Option.some.inj hs
      cases hf
    · obtain rfl := Option.some.inj hs
      rfl

end

section
variable {p : Platform} {db : AlertDb}

theorem sentFor_append {r s : Uuid} {a b : List Entry} : sentFor r s (a ++ b) = sentFor r s a ++ sentFor r s b :=
  List.filterMap_append

theorem sentFor_sent {r s rule server : Uuid} {now : Time} {notices : List Notice} :
    sentFor r s (notices.map (.sent rule server now)) = if r = rule ∧ s = server then notices.map (now, ·) else [] := by
  by_cases here : r = rule ∧ s = server
  · obtain ⟨rfl, rfl⟩ := here
    simp [sentFor, List.filterMap_map]
  · rw [if_neg here]
    have other : ¬(rule = r ∧ server = s) := fun h => here ⟨h.1.symm, h.2.symm⟩
    simp [sentFor, other]

theorem sentFor_evaluateNext {next : Pending} {rest : List Pending} {telemetry : Option Telemetry} {f : Faults}
    (hq : db.queue = next :: rest) (r s : Uuid) : sentFor r s (db.evaluateNext p telemetry f).journal =
      (if r = next.rule.id ∧ s = next.serverId then (db.evaluation p next telemetry f).2.map (db.now, ·) else []) ++
        sentFor r s db.journal := by
  have evaluated : sentFor r s (db.evaluated p next telemetry) = [] := by
    unfold AlertDb.evaluated
    split <;> rfl
  rw [AlertDb.journal_evaluateNext hq, sentFor_append, sentFor_append, sentFor_sent, evaluated, List.nil_append]

theorem Inv.evaluateNext {telemetry : Option Telemetry} {f : Faults} (h : Inv db)
    (careful : Careful p db (.evaluateNext telemetry f)) : Inv (db.evaluateNext p telemetry f) := by
  cases hq : db.queue with
  | nil =>
    simp only [AlertDb.evaluateNext, hq]
    exact h
  | cons next rest =>
    have hnext : next.rule ∈ db.rules := h.copies _ (by simp [AlertDb.copies, hq])
    have notified : (db.faults next.rule.id next.serverId f).notified = f.notified := by
      unfold AlertDb.faults
      split <;> rfl
    have pair := (h.recorded next.rule.id next.serverId).handled (fun hr => h.spaced _ hnext hr _)
      (AlertDb.handled_evaluation p db next telemetry f)
      (by rw [notified]; exact careful next rest hq)
    refine ⟨h.wellFormed.evaluateNext telemetry f, fun c hc => ?_, fun rule hr repeats server => ?_, fun r s => ?_⟩
    · rw [AlertDb.rules_evaluateNext]
      exact h.copies c (AlertDb.mem_copies_evaluateNext hc)
    · rw [AlertDb.rules_evaluateNext] at hr
      rw [sentFor_evaluateNext hq]
      by_cases here : rule.id = next.rule.id ∧ server = next.serverId
      · obtain ⟨hid, rfl⟩ := here
        obtain rfl := h.wellFormed.rule_unique hr hnext hid
        rw [if_pos ⟨rfl, rfl⟩]
        exact pair.1 repeats
      · rw [if_neg here]
        exact h.spaced rule hr repeats server
    · rw [sentFor_evaluateNext hq, AlertDb.states_evaluateNext hq]
      by_cases here : r = next.rule.id ∧ s = next.serverId
      · obtain ⟨rfl, rfl⟩ := here
        simp only [and_self, if_true]
        exact pair.2
      · simp only [if_neg here, List.nil_append]
        exact h.recorded r s

/-- Operations that touch no rule, no row and nothing sent keep the invariant. -/
theorem Inv.mono {db' : AlertDb} (h : Inv db) (wellFormed : db'.WellFormed) (rules : db'.rules = db.rules)
    (states : db'.states = db.states) (journal : db'.journal = db.journal) (copies : ∀ c ∈ db'.copies, c ∈ db'.rules) :
    Inv db' where
  wellFormed := wellFormed
  copies := copies
  spaced := by
    unfold AllSpaced
    rw [rules, journal]
    exact h.spaced
  recorded r s := by
    rw [states, journal]
    exact h.recorded r s

theorem Inv.perform {op : AlertOp} (h : Inv db) (tick : Tick op) (careful : Careful p db op) :
    Inv (db.perform p op) := by
  cases op with
  | listEnabledRules =>
    rw [AlertDb.perform]
    refine h.mono h.wellFormed.listEnabledRules (by simp) (by simp) (by simp) fun c hc => ?_
    rw [AlertDb.rules_listEnabledRules]
    rcases AlertDb.mem_copies_listEnabledRules hc with hc | hc
    · exact h.copies c hc
    · exact hc.1
  | selectServers fails =>
    rw [AlertDb.perform]
    refine h.mono (h.wellFormed.selectServers fails) (by simp) (by simp) (by simp) fun c hc => ?_
    rw [AlertDb.rules_selectServers]
    exact h.copies c (AlertDb.mem_copies_selectServers hc)
  | evaluateNext telemetry faults => exact h.evaluateNext careful
  | abandon => exact h.mono h.wellFormed.abandon rfl rfl rfl fun _ hc => (by cases hc)
  | onServers statement => exact h.mono (h.wellFormed.onServers statement) rfl rfl rfl h.copies
  | _ => cases tick

theorem Inv.await (h : Inv db) (a : AlertAction) : Inv (db.await a) :=
  h.mono (h.wellFormed.await a) rfl rfl rfl h.copies

/-- In every run of ticks and of statements on the servers whose first reminders wait an interval and whose
    reminders are recorded, the notifications of each incident are an interval apart. -/
theorem allSpaced_of_careful {run : List AlertAction} (h : Start db) (ticks : ∀ a ∈ run, Tick a.op)
    (careful : (alertMachine p).Each (fun db a => Careful p (db.await a) a.op) db run) :
    (alertMachine p).Always AllSpaced db run := by
  have inv : (alertMachine p).Always Inv db run := by
    have hI := h.inv
    clear h
    induction run generalizing db with
    | nil => exact hI
    | cons a run ih =>
      refine ⟨hI, ih (fun b hb => ticks b (List.mem_cons_of_mem _ hb)) careful.2 ?_⟩
      exact (hI.await a).perform (ticks a (List.mem_cons_self ..)) careful.1
  exact inv.mono fun _ h => h.spaced

end

/-! ### The first reminder -/

instance decidableSpaced (gap : Time) : ∀ sent, Decidable (Spaced gap sent)
  | [] => .isTrue trivial
  | [_] => .isTrue trivial
  | (t, n) :: (t', n') :: rest =>
    have := decidableSpaced gap ((t', n') :: rest)
    inferInstanceAs (Decidable ((n = .reminder → t' + gap ≤ t) ∧ Spaced gap ((t', n') :: rest)))

/-- A rule on the status of user 7's server, to be repeated every 5 minutes. -/
def repeatedRule : AlertRule where
  id := 3
  userId := 7
  name := "down"
  metric := "status"
  operator := "=="
  threshold := 0
  durationMinutes := 1
  repeatIntervalMinutes := 5
  targetName := none
  serverId := none
  enabled := true

/-- A rule with reminders on one server. -/
def downServer : AlertDb where
  now := 60000000
  rules := [repeatedRule]
  servers := [linuxServer]
  channels := []
  states := fun _ _ => none
  nextId := 4
  loaded := []
  queue := []
  journal := []

theorem downServer_start : Start downServer where
  wellFormed :=
    { ruleIds := by decide
      serverIds := by decide
      rulesOld := by decide
      serversOld := by decide
      copies := fun _ h => (by cases h)
      queued := fun _ h => (by cases h) }
  quiet _ _ _ h := by cases h
  idle := ⟨rfl, rfl⟩
  silent := rfl

/-- A run of the job that begins `elapsed` microseconds after the last. -/
def tick (elapsed : Nat) : List AlertAction :=
  [⟨elapsed, .listEnabledRules⟩, ⟨0, .selectServers false⟩, ⟨0, .evaluateNext none .none⟩]

/-- An incident with a reminder ends as the server is heard from; two minutes later another one starts, with
its reminder. -/
def twoIncidents : List AlertAction :=
  tick 0 ++ tick 300000000 ++ ⟨0, .onServers (.markOnline ⟨"agent-token", "1.5.0", [], ""⟩)⟩ :: tick 0 ++
    tick 120000000 ++ tick 300000000

/-- The second evaluation of an incident may send a reminder, as nothing has been noted of the first. -/
theorem careful_due {db : AlertDb} {telemetry : Option Telemetry} {next : Pending} (queued : db.queue = [next])
    (due : ∀ s, db.states next.rule.id next.serverId = some s →
      ∀ start, s.lastTriggeredAt = some start → start + next.rule.repeatIntervalMinutes * minute ≤ db.now) :
    Careful plainPlatform db (.evaluateNext telemetry .none) := by
  intro next' rest hq _
  obtain ⟨rfl, -⟩ := List.cons.inj (queued.symm.trans hq)
  exact ⟨rfl, fun s hs _ => due s hs⟩

theorem allSpaced_of_careful_downServer : (alertMachine plainPlatform).Always AllSpaced downServer twoIncidents ∧
    (sentFor 3 1 ((alertMachine plainPlatform).exec downServer twoIncidents).journal).map (·.2) =
      [.reminder, .firing, .resolved, .reminder, .firing] := by
  refine ⟨allSpaced_of_careful downServer_start (by decide) ?_, by decide⟩
  have quiet {db : AlertDb} {next : Pending} (queued : db.queue = [next])
      (none_ : sendsReminder db.now next.rule (db.verdict plainPlatform next none)
        (db.faults next.rule.id next.serverId .none)
        (db.states next.rule.id next.serverId) = false) : Careful plainPlatform db (.evaluateNext none .none) := by
    intro next' rest hq reminds
    obtain ⟨rfl, -⟩ := List.cons.inj (queued.symm.trans hq)
    rw [none_] at reminds
    cases reminds
  refine ⟨trivial, trivial, quiet rfl (by decide), trivial, trivial, careful_due rfl ?_, trivial, trivial, trivial,
    quiet rfl (by decide),
    trivial, trivial, quiet rfl (by decide), trivial, trivial, careful_due rfl ?_, trivial⟩
  · intro s hs start hstart
    obtain rfl := Option.some.inj hs
    obtain rfl := Option.some.inj hstart
    decide
  · intro s hs start hstart
    obtain rfl := Option.some.inj hs
    obtain rfl := Option.some.inj hstart
    decide

/-- The incident is announced, and 15 seconds later comes the reminder. -/
theorem reminder_after_15_seconds : Start downServer ∧ repeatedRule.repeatIntervalMinutes = 5 ∧
    ¬(alertMachine plainPlatform).Always AllSpaced downServer (tick 0 ++ tick 15000000) := by
  refine ⟨downServer_start, rfl, fun h => ?_⟩
  have spaced := h.last repeatedRule (by decide) (by decide) 1
  revert spaced
  decide

end AlertSpacing
end DatrixOps
