import DatrixOps.Scheduler.Retention
import DatrixOps.Theorems.Downtime

/-! What the retention job leaves. It deletes old rows only, and all of them where a batch is not full; and
    the availability of a server is computed from what is left, so with less than 30 days kept it does not see
    the downtime before them. -/

namespace DatrixOps
namespace RetentionWindows
open Postgres Golang Availability Retention Downtime

attribute [local instance] Arithmetic.binary64

/-! ### A table -/

section
variable {α : Type} {column : α → Time} {kept : Int} {c : Cleanup α} {turns : List (Turn α)}

/-- The row has expired by then. -/
def expired (column : α → Time) (kept : Int) (now : Time) (row : α) : Bool := column row < now - days kept

/-- Rows are gone that have expired, and when the job is done, no others are left of these. -/
structure Keeps (column : α → Time) (kept : Int) (c : Cleanup α) : Prop where
  fewer : c.rows.Subperm c.written
  young : ∀ keep : α → Bool, (∀ row, keep row = true → expired column kept c.now row = false) →
    (c.rows.filter keep).Perm (c.written.filter keep)
  old : c.done = true → ∀ row ∈ c.rows, expired column kept c.now row = false

theorem expired_later {now now' : Time} (later : now ≤ now') {row : α} (young : expired column kept now' row = false) :
    expired column kept now row = false := by
  simp only [expired, decide_eq_false_iff_not, not_lt] at young ⊢
  linarith

theorem strike_sublist (gone : α → Bool) (n : Nat) (rows : List α) : (strike gone n rows).Sublist rows := by
  induction rows generalizing n with
  | nil => cases n <;> exact List.Sublist.refl _
  | cons row rows ih =>
    cases n with
    | zero => exact List.Sublist.refl _
    | succ n =>
      rw [strike]
      split
      · exact (ih n).cons row
      · exact (ih (n + 1)).cons_cons row

theorem keeps_start (now : Time) (rows : List α) : Keeps column kept ⟨now, rows, rows, false⟩ :=
  ⟨List.Subperm.refl _, fun _ _ => List.Perm.refl _, Bool.noConfusion⟩

/-- The rows that a statement finds. -/
theorem Keeps.found (h : Keeps column kept c) (turn : Turn α) :
    Keeps column kept ⟨c.now + turn.elapsed, turn.scan.order (c.rows ++ turn.inserted),
      c.written ++ turn.inserted, false⟩ := by
  have perm := turn.scan.perm (c.rows ++ turn.inserted)
  refine ⟨perm.subperm.trans ((List.subperm_append_right _).mpr h.fewer), fun keep young => ?_, Bool.noConfusion⟩
  refine (perm.filter keep).trans ?_
  rw [List.filter_append, List.filter_append]
  exact (h.young keep fun row kept => expired_later (by linarith [Int.natCast_nonneg turn.elapsed])
    (young row kept)).append_right _

theorem Keeps.strike {found : List α} {now : Time} {written : List α}
    (h : Keeps column kept ⟨now, found, written, false⟩) (done : Bool)
    (short : done = true → found.length - (strike (expired column kept now) 5000 found).length < 5000) :
    Keeps column kept ⟨now, Retention.strike (expired column kept now) 5000 found, written, done⟩ := by
  refine ⟨(strike_sublist ..).subperm.trans h.fewer, fun keep young => ?_, fun all => ?_⟩
  · simp only [strike_filter young]
    exact h.young keep young
  · exact strike_short (short all)

theorem Keeps.deleteBatches (h : Keeps column kept c) (batches : Nat) (turns : List (Turn α)) :
    Keeps column kept (deleteBatches column kept batches c turns) ∧
      c.now ≤ (Retention.deleteBatches column kept batches c turns).now := by
  induction batches generalizing c turns with
  | zero => exact ⟨h, le_rfl⟩
  | succ batches ih =>
    cases turns with
    | nil => exact ⟨h, le_rfl⟩
    | cons turn turns =>
      have later : c.now ≤ c.now + turn.elapsed := by linarith [Int.natCast_nonneg turn.elapsed]
      have found := h.found turn
      simp only [Retention.deleteBatches]
      split
      · exact ⟨found, later⟩
      · split
        · rename_i short
          exact ⟨found.strike true fun _ => short, later⟩
        · obtain ⟨keeps, after⟩ := ih (found.strike false Bool.noConfusion) turns
          exact ⟨keeps, later.trans after⟩

/-- How many rows a job of so many batches deletes: at most these, and exactly these where it has them all and
is still not done. -/
theorem deleteBatches_length (column : α → Time) (kept : Int) (batches : Nat) (c : Cleanup α) (turns : List (Turn α)) :
    (deleteBatches column kept batches c turns).written.length + c.rows.length ≤
        (deleteBatches column kept batches c turns).rows.length + c.written.length + 5000 * batches ∧
      ((∀ turn ∈ turns, turn.fails = false) → batches ≤ turns.length → c.done = false →
        (deleteBatches column kept batches c turns).done = false →
          (deleteBatches column kept batches c turns).rows.length + c.written.length + 5000 * batches ≤
            (deleteBatches column kept batches c turns).written.length + c.rows.length) := by
  induction batches generalizing c turns with
  | zero => exact ⟨by simp [Retention.deleteBatches, Nat.add_comm], fun _ _ _ _ => by simp [Retention.deleteBatches,
    Nat.add_comm]⟩
  | succ batches ih =>
    cases turns with
    | nil => exact ⟨by simp only [Retention.deleteBatches]; omega, fun _ enough => absurd enough (Nat.not_succ_le_zero
      _)⟩
    | cons turn turns =>
      have length := (turn.scan.perm (c.rows ++ turn.inserted)).length_eq
      have struck := strike_length (fun row => column row < c.now + turn.elapsed - days kept) 5000
        (turn.scan.order (c.rows ++ turn.inserted))
      rw [List.length_append] at length
      simp only [Retention.deleteBatches]
      split
      · rename_i fails
        refine ⟨by simp only [List.length_append]; omega, fun works => ?_⟩
        rw [works turn List.mem_cons_self] at fails
        cases fails
      · split
        · exact ⟨by simp only [List.length_append]; omega, fun _ _ _ done => by cases done⟩
        · rename_i full
          obtain ⟨most, all⟩ :=
            ih ⟨c.now + turn.elapsed, strike (fun row => column row < c.now + turn.elapsed - days kept) 5000
            (turn.scan.order (c.rows ++ turn.inserted)), c.written ++ turn.inserted, false⟩ turns
          simp only [List.length_append] at most all
          refine ⟨by omega, fun works enough undone again => ?_⟩
          have rest := all (fun t mem => works t (List.mem_cons_of_mem _ mem))
            (Nat.le_of_succ_le_succ enough) trivial again
          omega

/-- What is no longer there has expired. -/
theorem Keeps.gone (h : Keeps column kept c) :
    c.written.length ≤ c.rows.length + c.written.countP (expired column kept c.now) := by
  have young := (h.young (fun row => !expired column kept c.now row) fun row young => by simpa using young).length_eq
  rw [← List.countP_eq_length_filter, ← List.countP_eq_length_filter] at young
  have rows : c.rows.length = _ := List.length_eq_countP_add_countP (expired column kept c.now)
  have written : c.written.length = _ := List.length_eq_countP_add_countP (expired column kept c.now)
  simp only [Bool.not_eq_true, Bool.decide_eq_false] at rows written
  omega

end

/-- A job deletes no row that is not old, at most 100000 rows of a table, and all that are old once it is
    done; and it is done if the database lets it and no more than these are old. -/
structure Bounds {α : Type} (column : α → Time) (kept : Int) (turns : List (Turn α)) (c : Cleanup α) : Prop where
  fewer : c.rows.Subperm c.written
  /-- The turns may end after any batch, and `c.now` is the time of the last one: no row goes that is young
  when its batch runs. -/
  young : ∀ keep : α → Bool, (∀ row, keep row = true → c.now - days kept ≤ column row) →
    (c.rows.filter keep).Perm (c.written.filter keep)
  most : c.written.length ≤ c.rows.length + 100000
  old : c.done = true → ∀ row ∈ c.rows, c.now - days kept ≤ column row
  done : (∀ turn ∈ turns, turn.fails = false) → 20 ≤ turns.length →
    c.written.countP (fun row => column row < c.now - days kept) < 100000 →
    c.done = true

theorem not_expired {α : Type} {column : α → Time} {kept : Int} {now : Time} {row : α} :
    expired column kept now row = false ↔ now - days kept ≤ column row := by
  rw [expired, decide_eq_false_iff_not, not_lt]

/-- The bounds of every table in every run of the job, beside whatever others write meanwhile. -/
theorem retention_bounds {α : Type} (column : α → Time) (metricsDays operationalDays : Int) (table : Table) (now : Time)
    (rows : List α)
    (turns : List (Turn α)) :
    Bounds column (daysOf metricsDays operationalDays table) turns
      (run column metricsDays operationalDays table now rows turns) := by
  have start : Keeps column (daysOf metricsDays operationalDays table) ⟨now, rows, rows, false⟩ := keeps_start now rows
  obtain ⟨keeps, -⟩ := start.deleteBatches 20 turns
  obtain ⟨most, all⟩ := deleteBatches_length column (daysOf metricsDays operationalDays table) 20 ⟨now, rows,
    rows, false⟩ turns
  refine ⟨keeps.fewer, fun keep young => ?_, ?_, fun done row mem => ?_, fun works enough few => ?_⟩
  · exact keeps.young keep fun row kept => not_expired.mpr (young row kept)
  · simp only [run] at most ⊢
    omega
  · exact not_expired.mp (keeps.old done row mem)
  · by_contra undone
    have full := all works enough rfl (eq_false_of_ne_true undone)
    have gone := keeps.gone
    simp only [run] at few
    change List.countP (expired column _ _) _ < _ at few
    simp only at full
    omega

/-! ### The availability of a server -/

section
variable {now c : Time} {metrics metrics' : List Time}

/-- What the query counts of a gap. -/
def counted (gap : Time × Time) : ℚ := if minutes 2 < gap.2 - gap.1 then seconds (gap.2 - gap.1) else 0

theorem counted_nonneg (gap : Time × Time) : 0 ≤ counted gap := by
  unfold counted
  split
  · rename_i long
    have positive : 0 ≤ gap.2 - gap.1 := le_trans (by decide) long.le
    exact div_nonneg (by exact_mod_cast positive) (by norm_num)
  · exact le_rfl

theorem counted_eq_zero {gap : Time × Time} : counted gap = 0 ↔ gap.2 - gap.1 ≤ minutes 2 := by
  unfold counted
  split
  · rename_i long
    have positive : (0 : ℚ) < (gap.2 - gap.1 : Int) := by
      exact_mod_cast lt_of_le_of_lt (by decide : (0 : Int) ≤ minutes 2) long
    have counts : seconds (gap.2 - gap.1) ≠ 0 := ne_of_gt (div_pos positive (by norm_num))
    exact iff_of_false counts (not_le.mpr long)
  · rename_i short
    exact iff_of_true rfl (not_lt.mp short)

theorem insertionSort_perm (same : metrics.Perm metrics') :
    metrics.insertionSort (· ≤ ·) = metrics'.insertionSort (· ≤ ·) :=
  ((List.perm_insertionSort _ _).trans (same.trans (List.perm_insertionSort _ _).symm)).eq_of_pairwise'
    (List.pairwise_insertionSort _ _) (List.pairwise_insertionSort _ _)

theorem samplePairs_filter : samplePairs (metrics.filter (c ≤ ·)) = (samplePairs metrics).filter (c ≤ ·.1) := by
  rw [samplePairs, filter_insertionSort, gaps_filter (List.pairwise_insertionSort _ _), samplePairs]

theorem downtimeSeconds_gaps :
    downtimeSeconds now metrics = (((samplePairs metrics).filter (now - days 30 ≤ ·.1)).map counted).sum := by
  let long (b a : Time) : Option ℚ := if minutes 2 < b - a then some (seconds (b - a)) else none
  rw [downtimeSeconds, lag_filterMap long, filter_insertionSort, gaps_filter (List.pairwise_insertionSort _ _),
    ← samplePairs, sum_filterMap]
  congr 1
  refine List.map_congr_left fun gap _ => ?_
  by_cases gapLong : minutes 2 < gap.2 - gap.1
  · simp [long, counted, gapLong]
  · simp [long, counted, gapLong]

/-- Only the metrics of the last 30 days count. -/
theorem downtimeSeconds_congr (same : (metrics.filter (now - days 30 ≤ ·)).Perm (metrics'.filter (now - days 30 ≤ ·))) :
    downtimeSeconds now metrics = downtimeSeconds now metrics' := by
  unfold downtimeSeconds
  rw [insertionSort_perm same]

/-- What is not counted without the metrics before a time. -/
theorem downtimeSeconds_filter (now c : Time) (metrics : List Time) :
    downtimeSeconds now metrics = downtimeSeconds now (metrics.filter (c ≤ ·)) +
    (((samplePairs metrics).filter fun gap => now - days 30 ≤ gap.1 && !(c ≤ gap.1 : Bool)).map counted).sum := by
  rw [downtimeSeconds_gaps, downtimeSeconds_gaps, samplePairs_filter, List.filter_filter, ← List.sum_append,
    ← List.map_append]
  have parts := List.filter_append_perm (fun gap : Time × Time => (c ≤ gap.1 : Bool))
    ((samplePairs metrics).filter (now - days 30 ≤ ·.1))
  rw [List.filter_filter, List.filter_filter] at parts
  simp only [Bool.and_comm] at parts ⊢
  exact (parts.map counted).sum_eq.symm

theorem int64_mono {x y : ℚ} (h : 0 ≤ x) (le : x ≤ y) : int64 x ≤ int64 y := by
  rw [int64, int64, if_neg (not_lt.mpr h), if_neg (not_lt.mpr (h.trans le))]
  exact Int.floor_le_floor le

/-- The less downtime the query answers, the better. -/
theorem availability_mono (srv : Availability.Server) {x y : ℚ} (h : 0 ≤ x) (le : x ≤ y) :
    (calculateSingleServerAvailability30d srv now (some x)).2 ≤
    (calculateSingleServerAvailability30d srv now (some y)).2 ∧
      (calculateSingleServerAvailability30d srv now (some y)).1 ≤
      (calculateSingleServerAvailability30d srv now (some x)).1 := by
  have window : (0 : ℚ) ≤ ofInt (windowSeconds srv now) :=
    float64_nonneg (by exact_mod_cast le_trans (by norm_num) (le_max_left 60 _))
  have total : max 0 (min (int64 x + ongoingSeconds srv now) (windowSeconds srv now)) ≤
      max 0 (min (int64 y + ongoingSeconds srv now) (windowSeconds srv now)) :=
    max_le_max le_rfl (min_le_min (add_le_add_left (int64_mono h le) _) le_rfl)
  refine ⟨total, max_le_max le_rfl (min_le_min (round1_mono (Arithmetic.rounded_mono ?_)) le_rfl)⟩
  have up := max_le_max (le_refl 0) (sub_le_sub_left total (windowSeconds srv now))
  have part := Arithmetic.rounded_mono (div_le_div_of_nonneg_right (ofInt_mono up) window)
  exact mul_le_mul_of_nonneg_right part (by norm_num)

end

/-- The availability of a server from what a job has left of `server_metrics`, against that from all that was
    ever written: the same where 30 days are kept; no worse where the job is done; and the same downtime then
    just where all gaps that are not seen are short. -/
structure Seen (kept : Int) (srv : Availability.Server) (serverId : Uuid) (now : Time) (c : Cleanup Metric) : Prop where
  whole : 30 ≤ kept → downtimeSeconds now (metricsOf serverId c.rows) =
    downtimeSeconds now (metricsOf serverId c.written)
  better : c.done = true →
    (calculateSingleServerAvailability30d srv now (some (downtimeSeconds now (metricsOf serverId c.rows)))).2 ≤
        (calculateSingleServerAvailability30d srv now (some (downtimeSeconds now (metricsOf serverId c.written)))).2 ∧
      (calculateSingleServerAvailability30d srv now (some (downtimeSeconds now (metricsOf serverId c.written)))).1 ≤
        (calculateSingleServerAvailability30d srv now (some (downtimeSeconds now (metricsOf serverId c.rows)))).1
  same : c.done = true → (downtimeSeconds now (metricsOf serverId c.rows) =
    downtimeSeconds now (metricsOf serverId c.written) ↔
    ∀ gap ∈ samplePairs (metricsOf serverId c.written), now - days 30 ≤ gap.1 → gap.1 < c.now - days kept →
    gap.2 - gap.1 ≤ minutes 2)

section
variable {rows : List Metric} {serverId : Uuid} {from_ : Time}

theorem metricsOf_filter : (metricsOf serverId rows).filter (from_ ≤ ·) =
    (rows.filter fun row => row.serverId = serverId && from_ ≤ row.createdAt).map (·.createdAt) := by
  rw [metricsOf, List.filter_map, List.filter_filter]
  refine congrArg _ (List.filter_congr fun row _ => ?_)
  rw [Function.comp_apply, Bool.and_comm]

theorem Keeps.metrics {kept : Int} {c : Cleanup Metric} (h : Keeps Metric.createdAt kept c) (serverId : Uuid)
    (le : c.now - days kept ≤ from_) :
    ((metricsOf serverId c.rows).filter (from_ ≤ ·)).Perm ((metricsOf serverId c.written).filter (from_ ≤ ·)) := by
  rw [metricsOf_filter, metricsOf_filter]
  refine (h.young _ fun row kept => not_expired.mpr ?_).map _
  obtain ⟨-, recent⟩ := Bool.and_eq_true_iff.mp kept
  exact le.trans (of_decide_eq_true recent)

end

theorem Keeps.seen {kept : Int} {c : Cleanup Metric} (h : Keeps Metric.createdAt kept c) (srv : Availability.Server)
    (serverId : Uuid) (elapsed : Nat) : Seen kept srv serverId (c.now + elapsed) c := by
  have later : c.now ≤ c.now + elapsed := by linarith [Int.natCast_nonneg elapsed]
  -- Once the job is done, what is left are the metrics from the cut on.
  have cut : c.done = true → downtimeSeconds (c.now + elapsed) (metricsOf serverId c.rows) =
      downtimeSeconds (c.now + elapsed) ((metricsOf serverId c.written).filter (c.now - days kept ≤ ·)) := by
    intro done
    have all : (metricsOf serverId c.rows).filter (c.now - days kept ≤ ·) = metricsOf serverId c.rows := by
      refine List.filter_eq_self.mpr fun t mem => decide_eq_true ?_
      obtain ⟨row, there, rfl⟩ := List.mem_map.mp mem
      exact not_expired.mp (h.old done row (List.mem_filter.mp there).1)
    have perm : (metricsOf serverId c.rows).Perm ((metricsOf serverId c.written).filter (c.now - days kept ≤ ·)) := by
      have left := h.metrics serverId (le_refl (c.now - days kept))
      rwa [all] at left
    exact downtimeSeconds_congr (perm.filter _)
  have parts := downtimeSeconds_filter (c.now + elapsed) (c.now - days kept) (metricsOf serverId c.written)
  have unseen : ∀ x ∈ ((samplePairs (metricsOf serverId c.written)).filter fun gap =>
      c.now + elapsed - days 30 ≤ gap.1 && !(c.now - days kept ≤ gap.1 : Bool)).map counted, 0 ≤ x := by
    intro x mem
    obtain ⟨gap, -, rfl⟩ := List.mem_map.mp mem
    exact counted_nonneg gap
  refine ⟨fun month => ?_, fun done => ?_, fun done => ?_⟩
  · refine downtimeSeconds_congr (h.metrics serverId ?_)
    have longer : days 30 ≤ days kept := by
      unfold days
      omega
    linarith
  · have nonneg : 0 ≤ downtimeSeconds (c.now + elapsed) (metricsOf serverId c.rows) := by
      rw [downtimeSeconds_gaps]
      refine List.sum_nonneg fun x mem => ?_
      obtain ⟨gap, -, rfl⟩ := List.mem_map.mp mem
      exact counted_nonneg gap
    refine availability_mono srv nonneg ?_
    rw [cut done, parts]
    exact le_add_of_nonneg_right (List.sum_nonneg unseen)
  · rw [cut done, parts, left_eq_add]
    constructor
    · intro zero gap mem recent old
      refine counted_eq_zero.mp (List.all_zero_of_le_zero_le_of_sum_eq_zero unseen zero (List.mem_map_of_mem ?_))
      refine List.mem_filter.mpr ⟨mem, Bool.and_eq_true_iff.mpr ⟨decide_eq_true recent, ?_⟩⟩
      rw [decide_eq_false (not_le.mpr old)]
      rfl
    · intro short
      refine List.sum_eq_zero fun x mem => ?_
      obtain ⟨gap, there, rfl⟩ := List.mem_map.mp mem
      obtain ⟨pair, hidden⟩ := List.mem_filter.mp there
      simp only [Bool.and_eq_true, decide_eq_true_eq, Bool.not_eq_true', decide_eq_false_iff_not, not_le] at hidden
      exact counted_eq_zero.mpr (short gap pair hidden.1 hidden.2)

/-- What the retention job does to the availability of every server, at any time from its end on. -/
theorem availability_retained (metricsDays operationalDays : Int) (start : Time) (rows : List Metric)
    (turns : List (Turn Metric))
    (srv : Availability.Server) (serverId : Uuid) (elapsed : Nat) :
    Seen metricsDays srv serverId
      ((run Metric.createdAt metricsDays operationalDays .serverMetrics start rows turns).now + elapsed)
      (run Metric.createdAt metricsDays operationalDays .serverMetrics start rows turns) := by
  have keeps : Keeps Metric.createdAt metricsDays ⟨start, rows, rows, false⟩ := keeps_start start rows
  exact (keeps.deleteBatches 20 turns).1.seen srv serverId elapsed

/-- A server that was silent for five days and then for ten; a week is kept. -/
def swept : Cleanup Metric :=
  run Metric.createdAt 7 90 .serverMetrics (days 30) [⟨1, days 15⟩, ⟨1, days 20⟩,
    ⟨1, days 30⟩] [⟨0, [], ⟨id, fun _ => .refl _⟩, false⟩]

example : swept.done = true ∧ downtimeSeconds (days 30) (metricsOf 1 swept.written) = 1296000 ∧
    downtimeSeconds (days 30) (metricsOf 1 swept.rows) = 0 := by decide +kernel

end RetentionWindows
end DatrixOps
