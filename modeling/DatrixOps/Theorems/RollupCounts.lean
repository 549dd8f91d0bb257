import Mathlib.Data.Multiset.Count
import DatrixOps.Postgres.Rules
import DatrixOps.Postgres.Schedule
import DatrixOps.Website.Rollup

/-! The daily roll-up holds what the backfill computes from the checks whose upserts have committed, in
whatever order they did. -/

namespace DatrixOps
open Postgres Prog

/-- The row after the upserts of these checks, newest first. -/
inductive Upserted : List UptimeCheck → Option DailyUptimeRollup → Prop
  | nil : Upserted [] none
  | cons {c : UptimeCheck} {checks : List UptimeCheck} {row : Option DailyUptimeRollup} {r : DailyUptimeRollup}
      (earlier : Upserted checks row) (upserted : upsertTodayRollup c row = some r) : Upserted (c :: checks) (some r)

/-- The counts of a row and what is derived from them are those of the backfill. -/
structure DailyUptimeRollup.Agrees (r : DailyUptimeRollup) (b : BackfillRow) : Prop where
  uptimePct : r.uptimePct = b.uptimePct
  downtimeSeconds : r.downtimeSeconds = b.downtimeSeconds
  totalChecks : r.totalChecks = b.totalChecks
  failedChecks : r.failedChecks = b.failedChecks
  status : r.status = b.status

/-! ### One upsert -/

variable {c : UptimeCheck} {r r' : DailyUptimeRollup} {checks : List UptimeCheck}

/-- A row is stored with its numbers rounded. -/
structure DailyUptimeRollup.StoredAs (r r' : DailyUptimeRollup) : Prop where
  uptimePct : r'.uptimePct = roundTo 2 r.uptimePct
  downtimeSeconds : r'.downtimeSeconds = r.downtimeSeconds
  totalChecks : r'.totalChecks = r.totalChecks
  failedChecks : r'.failedChecks = r.failedChecks
  avgLatencyMs : r'.avgLatencyMs = roundTo 2 r.avgLatencyMs
  status : r'.status = r.status

theorem storedAs (h : r.stored = some r') : r.StoredAs r' := by
  simp only [DailyUptimeRollup.stored, Option.bind_eq_bind, Option.bind_eq_some_iff, Option.pure_def,
    Option.some.injEq] at h
  obtain ⟨uptimePct, hu, downtime, hd, total, ht, failed, hf, avg, ha, title, -, rfl⟩ := h
  exact ⟨numeric_eq_some hu, int4_eq_some hd, int4_eq_some ht, int4_eq_some hf, numeric_eq_some ha, rfl⟩

/-- The first upsert of a day inserts the row, and every other one merges into it. -/
theorem upsert_none (h : upsertTodayRollup c none = some r) : (DailyUptimeRollup.first c).StoredAs r := by
  obtain ⟨excluded, stored, same⟩ := Option.bind_eq_some_iff.mp h
  cases same
  exact storedAs stored

theorem upsert_some (h : upsertTodayRollup c (some r) = some r') :
    ∃ excluded, (DailyUptimeRollup.first c).StoredAs excluded ∧
    (r.merged excluded c).StoredAs r' := by
  obtain ⟨excluded, stored, merged⟩ := Option.bind_eq_some_iff.mp h
  exact ⟨excluded, storedAs stored, storedAs merged⟩

/-- The row that is offered says whether the check has failed. -/
theorem outage_iff {excluded : DailyUptimeRollup} (h : (DailyUptimeRollup.first c).StoredAs excluded) :
    excluded.status = .outage ↔ ¬c.status = "UP" := by
  rw [h.status]
  unfold DailyUptimeRollup.first
  dsimp only
  split
  · rename_i up
    simp [up]
  · rename_i down
    simp [down]

/-! ### Counting -/

/-- How many of the checks have failed. -/
def failures (checks : List UptimeCheck) : Nat := checks.countP fun c => c.status ≠ "UP"

theorem failures_cons : failures (c :: checks) = failures checks + if c.status = "UP" then 0 else 1 := by
  unfold failures
  rw [List.countP_cons]
  by_cases up : c.status = "UP"
  · simp [up]
  · simp [up]

theorem up_eq : (((checks : Multiset UptimeCheck).countP fun c => c.status = "UP" : Nat) : Int) =
    checks.length - failures checks := by
  have total := List.length_eq_countP_add_countP (l := checks) fun c => decide (c.status = "UP")
  have others : checks.countP (fun c => decide ¬(decide (c.status = "UP") = true)) = failures checks := by
    unfold failures
    congr 1
    funext c
    simp
  rw [others] at total
  rw [Multiset.coe_countP]
  omega

theorem failed_eq : ((checks : Multiset UptimeCheck).countP fun c => c.status ≠ "UP") = failures checks :=
  Multiset.coe_countP ..

/-- The backfill of a list, from its length and its failures. -/
theorem backfill_eq : backfill (checks : Multiset UptimeCheck) =
    { uptimePct := roundTo 2 (((checks.length - failures checks : Int) : ℚ) / ((checks.length : Int) : ℚ) * 100)
      downtimeSeconds := failures checks * 60
      totalChecks := checks.length
      failedChecks := failures checks
      avgLatencyMs := roundTo 2 ((checks.map fun c => (c.latencyMs : ℚ)).sum / checks.length)
      status :=
        if failures checks = 0 then .operational
        else if ((checks.length - failures checks : Int) : ℚ) / ((checks.length : Int) : ℚ) ≥ 95 / 100 then .degraded
        else .outage } := by
  have up : (((checks : Multiset UptimeCheck).countP fun c => c.status = "UP" : Nat) : ℚ) =
      ((checks.length - failures checks : Int) : ℚ) := by
    exact_mod_cast up_eq
  unfold backfill
  simp only [failed_eq, up, Multiset.coe_card, Int.cast_natCast, Multiset.map_coe, Multiset.sum_coe]

theorem Upserted.agrees : ∀ {checks : List UptimeCheck} {r : DailyUptimeRollup}, Upserted checks (some r) →
    r.Agrees (backfill (checks : Multiset UptimeCheck))
  | _, r, @Upserted.cons c checks none _ earlier upserted => by
    obtain rfl : checks = [] := by
      cases earlier
      rfl
    have stored := upsert_none upserted
    rw [backfill_eq]
    by_cases up : c.status = "UP"
    · have none_ : failures [c] = 0 := by rw [failures_cons, if_pos up]; rfl
      constructor
      · rw [stored.uptimePct]
        simp [none_, DailyUptimeRollup.first, up]
      · rw [stored.downtimeSeconds]
        simp [none_, DailyUptimeRollup.first, up]
      · rw [stored.totalChecks]
        simp [DailyUptimeRollup.first]
      · rw [stored.failedChecks]
        simp [none_, DailyUptimeRollup.first, up]
      · rw [stored.status]
        simp [none_, DailyUptimeRollup.first, up]
    · have one : failures [c] = 1 := by rw [failures_cons, if_neg up]; rfl
      constructor
      · rw [stored.uptimePct]
        simp [one, DailyUptimeRollup.first, up]
      · rw [stored.downtimeSeconds]
        simp [one, DailyUptimeRollup.first, up]
      · rw [stored.totalChecks]
        simp [DailyUptimeRollup.first]
      · rw [stored.failedChecks]
        simp [one, DailyUptimeRollup.first, up]
      · rw [stored.status]
        norm_num [one, DailyUptimeRollup.first, up]
  | _, r, @Upserted.cons c checks (some r₀) _ earlier upserted => by
    have before := earlier.agrees
    obtain ⟨excluded, offered, stored⟩ := upsert_some upserted
    have outage := outage_iff offered
    have total : r₀.totalChecks + 1 = ((c :: checks).length : Int) := by
      rw [before.totalChecks, backfill_eq, List.length_cons]
      push_cast
      rfl
    have failed : (r₀.failedChecks + if excluded.status = .outage then 1 else 0) = (failures (c :: checks) : Int) := by
      simp only [before.failedChecks, backfill_eq, failures_cons, outage, ite_not]
      split
      · rfl
      · push_cast
        rfl
    have downtime : (r₀.downtimeSeconds + if excluded.status = .outage then 60 else 0) =
        (failures (c :: checks) : Int) * 60 := by
      simp only [before.downtimeSeconds, backfill_eq, failures_cons, outage, ite_not]
      split
      · simp
      · push_cast
        ring
    rw [backfill_eq]
    constructor
    · rw [stored.uptimePct, DailyUptimeRollup.merged, total, failed, roundTo_roundTo]
    · rw [stored.downtimeSeconds, DailyUptimeRollup.merged]
      exact downtime
    · rw [stored.totalChecks, DailyUptimeRollup.merged]
      exact total
    · rw [stored.failedChecks, DailyUptimeRollup.merged]
      exact failed
    · rw [stored.status, DailyUptimeRollup.merged, total, failed]
      simp only [Nat.cast_eq_zero]

/-! ### Concurrent upserts -/

/-- Every commit is one upsert of the row of its day. -/
def rollupSpec : Spec UptimeCheck RollupKey DailyUptimeRollup Empty Bool where
  row _ _ := True
  commit c _ tx := ∃ now base new, tx = (Tx.empty now).write (c.key now) base (some new) ∧
    upsertTodayRollup c base = some new
  answer _ _ _ := True

theorem safe_serveRollup (c : UptimeCheck) : (serveRollup c).Safe rollupSpec c [] none := by
  intro now
  refine safe_upsert (fun base _ => trivial) fun base new _ upserted => ⟨trivial, ?_, trivial⟩
  have seen : ((Tx.empty now : Tx RollupKey DailyUptimeRollup Empty).view (c.key now) base).bind rollups.get =
      base := by
    rw [Tx.view_of_unchanged rfl]
    cases base with
    | none => rfl
    | some r => rfl
  rw [seen] at upserted
  exact ⟨now, base, new, rfl, upserted⟩

/-- The checks whose upserts have committed into a row, newest first. -/
def committedChecks (k : RollupKey) (log : List (Commit UptimeCheck RollupKey DailyUptimeRollup Empty)) :
    List UptimeCheck :=
  (changesOf k log).map (·.1)

theorem serial_upserted {rows₀ rows : RollupKey → Option DailyUptimeRollup}
    {log : List (Commit UptimeCheck RollupKey DailyUptimeRollup Empty)}
    (h : Serial rollupSpec rows₀ log rows) {k : RollupKey} (fresh : rows₀ k = none) :
      Upserted (committedChecks k log) (rows k) := by
  induction h with
  | nil =>
    rw [fresh]
    exact Upserted.nil
  | @cons log rows e _ ok found _ ih =>
    obtain ⟨now, base, new, tx, upserted⟩ := ok
    by_cases same : k = e.request.key now
    · subst same
      have changed : e.tx.changes (e.request.key now) = some ⟨base, some new, false⟩ := by
        rw [tx, Tx.changes_write]
        rfl
      have before : base = rows (e.request.key now) := found _ _ changed
      have newest : committedChecks (e.request.key now) (e :: log) =
          e.request :: committedChecks (e.request.key now) log := by
        simp only [committedChecks, changesOf, List.filterMap_cons, changed, Option.map_some, List.map_cons]
      rw [newest, Tx.apply, Tx.view_of_changes changed]
      rw [before] at upserted
      exact Upserted.cons ih upserted
    · have unchanged : e.tx.changes k = none := by
        rw [tx, Tx.changes_write_of_ne same]
        rfl
      have kept : committedChecks k (e :: log) = committedChecks k log := by
        simp only [committedChecks, changesOf, List.filterMap_cons, unchanged, Option.map_none]
      rw [kept, Tx.apply, Tx.view_of_unchanged unchanged]
      exact ih

/-- Whatever upserts run at once, a row that they began holds the counts, the percentage and the status that
    the backfill computes from the checks whose upserts have committed into it. -/
theorem rollup_agrees {rows₀ : RollupKey → Option DailyUptimeRollup}
    {s : State UptimeCheck RollupKey DailyUptimeRollup Empty Empty Bool}
    (reachable : Reachable serveRollup rows₀ s) {k : RollupKey} (fresh : rows₀ k = none) :
    match s.rows k with
    | none => committedChecks k s.log = []
    | some r => committedChecks k s.log ≠ [] ∧
      r.Agrees (backfill (committedChecks k s.log : Multiset UptimeCheck)) := by
  have upserted := serial_upserted (reachable.consistent safe_serveRollup fun _ _ _ => trivial).history fresh
  cases row : s.rows k with
  | none =>
    rw [row] at upserted
    cases h : committedChecks k s.log with
    | nil => rfl
    | cons c checks =>
      rw [h] at upserted
      cases upserted
  | some r =>
    rw [row] at upserted
    refine ⟨?_, upserted.agrees⟩
    intro none_
    rw [none_] at upserted
    cases upserted

/-! ### Two checks at once -/

/-- A check that was answered. -/
def upCheck : UptimeCheck := ⟨"website", 1, "UP", 120, none⟩

/-- One that was not. -/
def downCheck : UptimeCheck := ⟨"website", 1, "DOWN", 10000, some "timeout"⟩

/-- Both upserts have begun when the first one commits. -/
def twoChecks : List (Move UptimeCheck RollupKey Empty) :=
  [.arrive 0 upCheck, .arrive 1 downCheck, .next 0, .next 1, .next 0, .next 0, .next 1, .next 1, .next 0, .next 1]

theorem rollup_agrees_two : ∃ s : State UptimeCheck RollupKey DailyUptimeRollup Empty Empty Bool,
    (s.rows ⟨"website", 1, 0⟩).any (fun r => r.totalChecks = 2 && r.uptimePct = 50) = true ∧
      match s.rows ⟨"website", 1, 0⟩ with
      | none => committedChecks ⟨"website", 1, 0⟩ s.log = []
      | some r => committedChecks ⟨"website", 1, 0⟩ s.log ≠ [] ∧
          r.Agrees (backfill (committedChecks ⟨"website", 1, 0⟩ s.log : Multiset UptimeCheck)) := by
  obtain ⟨s, reachable, two⟩ := Listed.reachable_of_check serveRollup 0 [] twoChecks
    (fun s => (s.rows ⟨"website", 1, 0⟩).any fun r => r.totalChecks = 2 && r.uptimePct = 50) (by decide +kernel)
  exact ⟨s.state, two, rollup_agrees reachable rfl⟩

end DatrixOps
