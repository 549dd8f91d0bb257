import DatrixOps.Theorems.RollupCounts

/-! How far the average latency of a day is from the mean. Every upsert rounds the average again, and what it
    rounds away counts once for each check before. -/

namespace DatrixOps
open Postgres

/-- Their response times. -/
def latencies (checks : List UptimeCheck) : List Int := checks.map (·.latencyMs)

/-- A row's average, in hundredths, is one that the latencies, newest first, can be rounded to. -/
def Averages : List Int → Int → Prop
  | [], _ => False
  | [x], a => a = 100 * x
  | x :: y :: xs, a => ∃ b, Averages (y :: xs) b ∧
      2 * |a * (xs.length + 2) - (b * (xs.length + 1) + 100 * x)| ≤ xs.length + 2

/-- What is left of the rounding, in hundredths and times the number of checks. -/
def drift (xs : List Int) (a : Int) : Int := a * xs.length - 100 * xs.sum

/-- The rounded mean of two hundredths. -/
theorem nearest_div {n m : Int} (hm : 0 < m) : 2 * |nearest ((n : ℚ) / m) * m - n| ≤ m := by
  have error := abs_nearest_sub_le (q := (n : ℚ) / m)
  have pos : (0 : ℚ) < m := by exact_mod_cast hm
  have scaled : |((nearest ((n : ℚ) / m) : Int) : ℚ) * m - n| ≤ 1 / 2 * m := by
    have factor : ((nearest ((n : ℚ) / m) : Int) : ℚ) * m - n = ((nearest ((n : ℚ) / m) : Int) - (n : ℚ) / m) * m := by
      field_simp
    rw [factor, abs_mul, abs_of_pos pos]
    exact mul_le_mul_of_nonneg_right error pos.le
  have cleared : (2 : ℚ) * |((nearest ((n : ℚ) / m) : Int) : ℚ) * m - n| ≤ m := by linarith
  exact_mod_cast cleared

/-- What the upserts leave is such an average. -/
theorem Upserted.averages : ∀ {checks : List UptimeCheck} {r : DailyUptimeRollup}, Upserted checks (some r) →
    ∃ a : Int, r.avgLatencyMs = a / 100 ∧ Averages (latencies checks) a
  | _, r, @Upserted.cons c checks none _ earlier upserted => by
    obtain rfl : checks = [] := by
      cases earlier
      rfl
    refine ⟨100 * c.latencyMs, ?_, rfl⟩
    have whole : (c.latencyMs : ℚ) = ((100 * c.latencyMs : Int) : ℚ) / 10 ^ 2 := by
      push_cast
      ring
    rw [(upsert_none upserted).avgLatencyMs, DailyUptimeRollup.first]
    dsimp only
    rw [whole, roundTo_div]
    norm_num
  | _, r, @Upserted.cons c checks (some r₀) _ earlier upserted => by
    obtain ⟨b, before, averages⟩ := earlier.averages
    have total : r₀.totalChecks = checks.length := by rw [earlier.agrees.totalChecks, backfill_eq]
    obtain ⟨excluded, -, stored⟩ := upsert_some upserted
    cases checks with
    | nil => cases averages
    | cons d checks =>
      have length : (((d :: checks).length : Int) : ℚ) = ((checks.length + 1 : Int) : ℚ) := by
        push_cast [List.length_cons]
        rfl
      refine ⟨nearest (((b * (checks.length + 1) + 100 * c.latencyMs : Int) : ℚ) / ((checks.length + 2 : Int) : ℚ)), ?_,
        b, averages, ?_⟩
      · rw [stored.avgLatencyMs, DailyUptimeRollup.merged, roundTo_roundTo, before, total, roundTo, length]
        have same : (b / 100 * ((checks.length + 1 : Int) : ℚ) + c.latencyMs) /
          (((d :: checks).length + 1 : Int) : ℚ) * 10 ^ 2 =
            ((b * (checks.length + 1) + 100 * c.latencyMs : Int) : ℚ) / ((checks.length + 2 : Int) : ℚ) := by
          push_cast [List.length_cons]
          field_simp
          ring
        rw [same]
        norm_num
      · have rounded := nearest_div (n := b * (checks.length + 1) + 100 * c.latencyMs)
          (m := checks.length + 2) (by omega)
        simpa [latencies] using rounded

/-! ### Few checks -/

/-- Another check adds at most half its number to what is left, which differs from a multiple of that number
by hundreds. -/
def driftBound : Nat → Int
  | 0 => 0
  | 1 => 0
  | n + 2 => Nat.gcd (n + 2) 100 * ((driftBound (n + 1) + (n + 2) / 2) / Nat.gcd (n + 2) 100)

/-- A multiple within a bound is within the largest multiple that the bound holds. -/
theorem multiple_within {g e bound : Int} (pos : 0 < g) (multiple : g ∣ e) (within : e ≤ bound) :
    e ≤ g * (bound / g) := by
  obtain ⟨k, rfl⟩ := multiple
  have le : k ≤ bound / g := Int.le_ediv_of_mul_le pos (by rw [mul_comm]; exact within)
  exact mul_le_mul_of_nonneg_left le pos.le

theorem drift_dvd {n : Nat} {xs : List Int} {a : Int} (length : xs.length = n) :
    ((Nat.gcd n 100 : Nat) : Int) ∣ drift xs a := by
  have divides_length : ((Nat.gcd n 100 : Nat) : Int) ∣ n := Int.natCast_dvd_natCast.mpr (Nat.gcd_dvd_left n 100)
  have divides_hundred : ((Nat.gcd n 100 : Nat) : Int) ∣ 100 := Int.natCast_dvd_natCast.mpr (Nat.gcd_dvd_right n 100)
  rw [drift, length]
  exact dvd_sub (dvd_mul_of_dvd_right divides_length a) (dvd_mul_of_dvd_left divides_hundred _)

/-- What the last check leaves of the rounding is at most half its number. -/
theorem drift_cons {x y : Int} {xs : List Int} {a b : Int}
    (rounded : 2 * |a * (xs.length + 2) - (b * (xs.length + 1) + 100 * x)| ≤ xs.length + 2) :
    2 * |drift (x :: y :: xs) a - drift (y :: xs) b| ≤ xs.length + 2 := by
  have error : drift (x :: y :: xs) a - drift (y :: xs) b = a * (xs.length + 2) - (b * (xs.length + 1) + 100 * x) := by
    simp only [drift, List.length_cons, List.sum_cons]
    push_cast
    ring
  rw [error]
  exact rounded

theorem drift_bounded : ∀ {xs : List Int} {a : Int}, Averages xs a → |drift xs a| ≤ driftBound xs.length
  | [x], a, averages => by
    have exact_ : a = 100 * x := averages
    simp [drift, exact_, driftBound]
  | x :: y :: xs, a, averages => by
    obtain ⟨b, averaged, rounded⟩ := averages
    have before := abs_le.mp (drift_bounded averaged)
    have step := abs_le.mp (show |drift (x :: y :: xs) a - drift (y :: xs) b| ≤ (xs.length + 2 : Int) / 2 from
      (Int.le_ediv_iff_mul_le (by decide)).mpr (by rw [mul_comm]; exact drift_cons rounded))
    have pos : (0 : Int) < (Nat.gcd (xs.length + 2) 100 : Nat) :=
      Int.natCast_pos.mpr (Nat.gcd_pos_of_pos_right _ (by decide))
    have multiple := @drift_dvd _ (x :: y :: xs) a rfl
    rw [List.length_cons] at before
    refine abs_le.mpr ⟨?_, ?_⟩
    · have opposite := multiple_within pos (dvd_neg.mpr multiple)
        (show -drift (x :: y :: xs) a ≤ driftBound (xs.length + 1) + (xs.length + 2) / 2 by linarith [before.1, step.1])
      exact neg_le.mp opposite
    · exact multiple_within pos multiple (by linarith [before.2, step.2])

/-- The drift is within the number of checks when they are at most eight, or ten. -/
theorem drift_small {n : Nat} (few : n ≤ 8 ∨ n = 10) {xs : List Int} {a : Int} (length : xs.length = n)
    (averages : Averages xs a) :
    -n ≤ drift xs a ∧ drift xs a ≤ n := by
  have bound : ∀ n < 11, n ≤ 8 ∨ n = 10 → driftBound n ≤ n := by decide
  exact abs_le.mp ((drift_bounded averages).trans (length ▸ bound n (by omega) few))

/-- Up to six checks it is less than half their number, so that the average is the mean, rounded once. -/
theorem drift_tiny {n : Nat} (few : n ≤ 6) {xs : List Int} {a : Int} (length : xs.length = n)
    (averages : Averages xs a) :
    -n < 2 * drift xs a ∧ 2 * drift xs a < n := by
  have bound : ∀ n < 7, n ≠ 0 → 2 * driftBound n < n := by decide
  have some_ : n ≠ 0 := by
    rintro rfl
    obtain rfl := List.length_eq_zero_iff.mp length
    cases averages
  have within := drift_bounded averages
  rw [length] at within
  have small := bound n (by omega) some_
  constructor <;> linarith [abs_le.mp within]

/-! ### The mean -/

/-- The mean of the response times. -/
def meanLatency (checks : List UptimeCheck) : ℚ := (checks.map fun c => (c.latencyMs : ℚ)).sum / checks.length

variable {checks : List UptimeCheck} {r : DailyUptimeRollup}

theorem meanLatency_eq : meanLatency checks = ((latencies checks).sum : ℚ) / checks.length := by
  have sums : (checks.map fun c => (c.latencyMs : ℚ)).sum = ((latencies checks).sum : Int) := by
    induction checks with
    | nil => rfl
    | cons c checks ih =>
      have more : (latencies (c :: checks)).sum = c.latencyMs + (latencies checks).sum := List.sum_cons
      rw [List.map_cons, List.sum_cons, ih, more]
      push_cast
      rfl
  rw [meanLatency, sums]

/-- The average is off by what has drifted. -/
theorem avg_sub_mean {a : Int} (avg : r.avgLatencyMs = a / 100) (some_ : checks ≠ []) :
    r.avgLatencyMs - meanLatency checks = drift (latencies checks) a / (100 * checks.length) := by
  have pos : (checks.length : ℚ) ≠ 0 := by
    have := List.length_pos_iff.mpr some_
    positivity
  rw [avg, meanLatency_eq, drift, latencies, List.length_map]
  push_cast
  field_simp

theorem Upserted.ne_nil (h : Upserted checks (some r)) : checks ≠ [] := by
  rintro rfl
  cases h

/-- The average is within a hundredth of the mean when the drift is within the number of checks. -/
theorem near_mean {a : Int} (avg : r.avgLatencyMs = a / 100) (some_ : checks ≠ [])
    (within : -(checks.length : Int) ≤ drift (latencies checks) a ∧ drift (latencies checks) a ≤ checks.length) :
    |r.avgLatencyMs - meanLatency checks| ≤ 1 / 100 := by
  have pos : (0 : ℚ) < checks.length := by exact_mod_cast List.length_pos_iff.mpr some_
  have low : -(checks.length : ℚ) ≤ drift (latencies checks) a := by exact_mod_cast within.1
  have high : (drift (latencies checks) a : ℚ) ≤ checks.length := by exact_mod_cast within.2
  rw [avg_sub_mean avg some_, abs_le]
  constructor
  · rw [le_div_iff₀ (by positivity)]
    linarith
  · rw [div_le_iff₀ (by positivity)]
    linarith

/-- It is the mean rounded once when the drift is less than half of that. -/
theorem eq_backfill {a : Int} (avg : r.avgLatencyMs = a / 100) (some_ : checks ≠ [])
    (within : -(checks.length : Int) < 2 * drift (latencies checks) a ∧
      2 * drift (latencies checks) a < checks.length) :
    r.avgLatencyMs = (backfill (checks : Multiset UptimeCheck)).avgLatencyMs := by
  have pos : (0 : ℚ) < checks.length := by exact_mod_cast List.length_pos_iff.mpr some_
  have low : -(checks.length : ℚ) < 2 * drift (latencies checks) a := by exact_mod_cast within.1
  have high : (2 : ℚ) * drift (latencies checks) a < checks.length := by exact_mod_cast within.2
  have off := avg_sub_mean avg some_
  have rounded : nearest (meanLatency checks * 10 ^ 2) = a := by
    refine nearest_eq ?_
    have scaled : (a : ℚ) - meanLatency checks * 10 ^ 2 = drift (latencies checks) a / checks.length := by
      have hundred : (a : ℚ) - meanLatency checks * 10 ^ 2 = 100 * (r.avgLatencyMs - meanLatency checks) := by
        rw [avg]
        ring
      rw [hundred, off]
      field_simp
    rw [scaled, abs_lt]
    constructor
    · rw [lt_div_iff₀ pos]
      linarith
    · rw [div_lt_iff₀ pos]
      linarith
  rw [backfill_eq]
  change _ = roundTo 2 (meanLatency checks)
  rw [roundTo, rounded, avg]
  norm_num

/-- Whoever is upserted is counted, and the count fits its column. -/
theorem Upserted.length_lt (h : Upserted checks (some r)) : checks.length < 2 ^ 31 := by
  have total : r.totalChecks = checks.length := by rw [h.agrees.totalChecks, backfill_eq]
  have fits : ∀ {r r' : DailyUptimeRollup}, r.stored = some r' → r'.totalChecks < 2 ^ 31 := by
    intro r r' stored
    simp only [DailyUptimeRollup.stored, Option.bind_eq_bind, Option.bind_eq_some_iff, Option.pure_def,
      Option.some.injEq] at stored
    obtain ⟨_, -, _, -, total, ht, _, -, _, -, _, -, rfl⟩ := stored
    simp only [int4, Option.ite_none_right_eq_some] at ht
    rw [← Option.some.inj ht.2]
    exact ht.1.2
  have small : r.totalChecks < 2 ^ 31 := by
    cases h with
    | @cons c checks row _ earlier upserted =>
      obtain ⟨excluded, stored, merged⟩ := Option.bind_eq_some_iff.mp upserted
      cases row with
      | none =>
        cases merged
        exact fits stored
      | some r => exact fits merged
  omega

/-- A steady average: it is near the mean and what the backfill computes, and no other order of the checks gives
    another one. -/
structure Steady (checks : List UptimeCheck) (r : DailyUptimeRollup) : Prop where
  mean : |r.avgLatencyMs - meanLatency checks| ≤ 1 / 100
  backfill : |r.avgLatencyMs - (backfill (checks : Multiset UptimeCheck)).avgLatencyMs| ≤ 1 / 100
  order : ∀ checks' r', checks'.Perm checks → Upserted checks' (some r') → r'.avgLatencyMs = r.avgLatencyMs

/-- Up to six checks the average is what the backfill computes. -/
theorem avg_eq_backfill (few : checks.length ≤ 6) (h : Upserted checks (some r)) :
    r.avgLatencyMs = (backfill (checks : Multiset UptimeCheck)).avgLatencyMs := by
  obtain ⟨a, avg, averages⟩ := h.averages
  exact eq_backfill avg h.ne_nil (drift_tiny few (by rw [latencies, List.length_map]) averages)

theorem mean_of_few (few : checks.length ≤ 8 ∨ checks.length = 10) (h : Upserted checks (some r)) :
    |r.avgLatencyMs - meanLatency checks| ≤ 1 / 100 := by
  obtain ⟨a, avg, averages⟩ := h.averages
  exact near_mean avg h.ne_nil (drift_small few (by rw [latencies, List.length_map]) averages)

theorem steady_of_few (few : checks.length ≤ 6) (h : Upserted checks (some r)) : Steady checks r where
  mean := mean_of_few (by omega) h
  backfill := by
    rw [avg_eq_backfill few h, sub_self, abs_zero]
    norm_num
  order checks' r' perm h' := by
    rw [avg_eq_backfill few h, avg_eq_backfill (by rwa [perm.length_eq]) h', Multiset.coe_eq_coe.mpr perm]

/-! ### More checks -/

/-- The rows after the upserts of these checks, newest first. -/
def upserts : List UptimeCheck → Option (Option DailyUptimeRollup)
  | [] => some none
  | c :: earlier => (upserts earlier).bind fun row => (upsertTodayRollup c row).map some

theorem upserted_of_upserts : ∀ {checks : List UptimeCheck} {row : Option DailyUptimeRollup}, upserts checks =
    some row → Upserted checks row
  | [], row, h => by
    cases h
    exact Upserted.nil
  | c :: earlier, row, h => by
    obtain ⟨before, hb, hr⟩ := Option.bind_eq_some_iff.mp h
    obtain ⟨r, upserted, rfl⟩ := Option.map_eq_some_iff.mp hr
    exact Upserted.cons (upserted_of_upserts hb) upserted

/-- A check that was answered after so long. -/
def response (latencyMs : Int) : UptimeCheck := ⟨"website", 1, "UP", latencyMs, none⟩

/-- Checks with these response times, from the first one on. -/
def responses (times : List Int) : List UptimeCheck := (times.map response).reverse

/-- The average that is stored after checks with these response times. -/
def averageAfter (times : List Int) : Option ℚ := ((upserts (responses times)).bind id).map (·.avgLatencyMs)

theorem upserted_of_averageAfter {times : List Int} {avg : ℚ} (h : averageAfter times = some avg) :
    ∃ r, Upserted (responses times) (some r) ∧ r.avgLatencyMs = avg := by
  obtain ⟨r, hr, same⟩ := Option.map_eq_some_iff.mp h
  obtain ⟨row, upserted, rfl⟩ := Option.bind_eq_some_iff.mp hr
  exact ⟨r, upserted_of_upserts upserted, same⟩

theorem length_responses {times : List Int} : (responses times).length = times.length := by simp [responses]

/-- Response times whose average differs with their order. -/
theorem unsteady_of_order {times times' : List Int} {avg avg' : ℚ} (h : averageAfter times = some avg)
    (h' : averageAfter times' = some avg')
    (perm : times'.Perm times) (differ : avg' ≠ avg) :
      ∃ checks r, checks.length = times.length ∧ Upserted checks (some r) ∧ ¬Steady checks r := by
  obtain ⟨r, upserted, rfl⟩ := upserted_of_averageAfter h
  obtain ⟨r', upserted', rfl⟩ := upserted_of_averageAfter h'
  refine ⟨_, r, length_responses, upserted, fun steady => differ (steady.order _ r' ?_ upserted')⟩
  exact ((List.reverse_perm _).trans (perm.map response)).trans (List.reverse_perm _).symm

/-- Response times whose average is off. -/
theorem off_of_mean {times : List Int} {avg : ℚ} (h : averageAfter times = some avg)
    (off : 1 / 100 < |avg - meanLatency (responses times)|) :
    ∃ checks r, checks.length = times.length ∧ Upserted checks (some r) ∧
      ¬|r.avgLatencyMs - meanLatency checks| ≤ 1 / 100 := by
  obtain ⟨r, upserted, rfl⟩ := upserted_of_averageAfter h
  exact ⟨_, r, length_responses, upserted, not_le.mpr off⟩

/-! ### Any number of checks -/

/-- The row of a day whose checks were answered after 1 ms on the average, and whose average is 1.02. -/
def level (total : Nat) : DailyUptimeRollup := ⟨100, 0, total, 0, 102 / 100, .operational, none⟩

/-- Thirteen response times that lead to it. -/
def drifting : List Int := [0, 0, 0, 0, 0, 0, 0, 1, 0, 3, 3, 3, 3]

theorem upserts_drifting : upserts (responses drifting) = some (some (level 13)) := by decide +kernel

theorem stored_response : (DailyUptimeRollup.first (response 1)).stored =
    some (DailyUptimeRollup.first (response 1)) := by decide +kernel

/-- A check that is answered after 1 ms leaves the average at 1.02. -/
theorem upsert_level {total : Nat} (many : 13 ≤ total) (fits : total + 1 < 2 ^ 31) :
    upsertTodayRollup (response 1) (some (level total)) = some (level (total + 1)) := by
  have pos : (0 : ℚ) < ((total + 1 : Int) : ℚ) := by positivity
  have all : roundTo 2 (((total + 1 - 0 : Int) : ℚ) / ((total + 1 : Int) : ℚ) * 100) = 100 := by
    rw [sub_zero, div_self pos.ne', one_mul]
    exact roundTo_natCast (n := 100)
  have kept : roundTo 2 ((102 / 100 * ((total : Int) : ℚ) + ((1 : Int) : ℚ)) / ((total + 1 : Int) : ℚ)) =
      102 / 100 := by
    have hundredths : nearest ((102 / 100 * ((total : Int) : ℚ) + ((1 : Int) : ℚ)) / ((total + 1 : Int) : ℚ) * 10 ^ 2) =
        102 := by
      refine nearest_eq ?_
      have left : ((102 : Int) : ℚ) - (102 / 100 * ((total : Int) : ℚ) + ((1 : Int) : ℚ)) /
        ((total + 1 : Int) : ℚ) * 10 ^ 2 =
          2 / ((total + 1 : Int) : ℚ) := by
        push_cast
        field_simp
        ring
      have large : (14 : ℚ) ≤ ((total + 1 : Int) : ℚ) := by exact_mod_cast Nat.succ_le_succ many
      rw [left, abs_of_pos (by positivity), div_lt_iff₀ pos]
      linarith
    rw [roundTo, hundredths]
    norm_num
  have merged : (level total).merged (DailyUptimeRollup.first (response 1)) (response 1) = level (total + 1) := by
    have same : (DailyUptimeRollup.first (response 1)).status = .operational := rfl
    simp only [DailyUptimeRollup.merged, level, same, reduceCtorEq, if_false, add_zero, all, if_true]
    rw [show (response 1).latencyMs = 1 from rfl, kept]
    rfl
  have percent : numeric 5 2 100 = some 100 := by decide +kernel
  have average : numeric 7 2 (102 / 100) = some (102 / 100) := by decide +kernel
  have none_ : int4 0 = some 0 := by decide
  have counted : int4 ((total + 1 : Nat) : Int) = some ((total + 1 : Nat) : Int) := if_pos ⟨by omega, by omega⟩
  unfold upsertTodayRollup
  rw [stored_response]
  change ((level total).merged _ _).stored = _
  rw [merged]
  simp only [DailyUptimeRollup.stored, level, percent, average, none_, counted, nullable, Option.bind_eq_bind,
    Option.bind_some,
    Option.pure_def]

theorem upserted_level {more : Nat} (fits : 13 + more < 2 ^ 31) :
    Upserted (List.replicate more (response 1) ++ responses drifting) (some (level (13 + more))) := by
  induction more with
  | zero => exact upserted_of_upserts upserts_drifting
  | succ more ih =>
    rw [List.replicate_succ, List.cons_append]
    exact Upserted.cons (ih (by omega)) (upsert_level (by omega) fits)

theorem meanLatency_level {more : Nat} : meanLatency (List.replicate more (response 1) ++ responses drifting) = 1 := by
  have total : (latencies (List.replicate more (response 1) ++ responses drifting)).sum = more + 13 := by
    rw [latencies, List.map_append, List.map_replicate, List.sum_append, List.sum_replicate]
    have thirteen : ((responses drifting).map (·.latencyMs)).sum = 13 := by decide
    rw [thirteen, nsmul_eq_mul, show (response 1).latencyMs = 1 from rfl, mul_one]
  have length : (List.replicate more (response 1) ++ responses drifting).length = more + 13 := by
    rw [List.length_append, List.length_replicate, length_responses]
    rfl
  rw [meanLatency_eq, total, length]
  push_cast
  exact div_self (by positivity)

/-- From thirteen checks on, as many as the row can count, the average can be off by two hundredths. -/
theorem off_of_many {n : Nat} (many : 13 ≤ n) (fits : n < 2 ^ 31) :
    ∃ checks r, checks.length = n ∧ Upserted checks (some r) ∧ ¬|r.avgLatencyMs - meanLatency checks| ≤ 1 / 100 := by
  obtain ⟨more, rfl⟩ := Nat.exists_eq_add_of_le many
  refine ⟨_, level (13 + more), ?_, upserted_level fits, ?_⟩
  · rw [List.length_append, List.length_replicate, length_responses]
    exact Nat.add_comm more 13
  · rw [meanLatency_level, level]
    norm_num

/-- The average can be off after nine checks, and after eleven or more. -/
theorem off_iff {n : Nat} :
    (∃ checks r, checks.length = n ∧ Upserted checks (some r) ∧ ¬|r.avgLatencyMs - meanLatency checks| ≤ 1 / 100) ↔
    ¬(n ≤ 8 ∨ n = 10 ∨ 2 ^ 31 ≤ n) := by
  constructor
  · rintro ⟨checks, r, rfl, upserted, off⟩ (few | ten | huge)
    · exact off (mean_of_few (Or.inl few) upserted)
    · exact off (mean_of_few (Or.inr ten) upserted)
    · exact absurd upserted.length_lt (by omega)
  · intro other
    rcases Nat.lt_or_ge n 13 with small | many
    · obtain rfl | rfl | rfl : n = 9 ∨ n = 11 ∨ n = 12 := by omega
      · have average : averageAfter [0, 0, 1, 1, 1, 1, 1, 1, 0] = some (68 / 100) := by decide +kernel
        exact off_of_mean average (by decide +kernel)
      · have average : averageAfter [0, 0, 1, 1, 1, 1, 1, 1, 0, 0, 1] = some (65 / 100) := by decide +kernel
        exact off_of_mean average (by decide +kernel)
      · have average : averageAfter [0, 0, 1, 1, 1, 1, 1, 1, 0, 0, 1, 0] = some (60 / 100) := by decide +kernel
        exact off_of_mean average (by decide +kernel)
    · exact off_of_many many (by omega)

/-- The average can be unsteady after seven or more. -/
theorem unsteady_iff {n : Nat} : (∃ checks r, checks.length = n ∧ Upserted checks (some r) ∧ ¬Steady checks r) ↔
    ¬(n ≤ 6 ∨ 2 ^ 31 ≤ n) := by
  constructor
  · rintro ⟨checks, r, rfl, upserted, unsteady⟩ (few | huge)
    · exact unsteady (steady_of_few few upserted)
    · exact absurd upserted.length_lt (by omega)
  · intro other
    by_cases off : n ≤ 8 ∨ n = 10
    · obtain rfl | rfl | rfl : n = 7 ∨ n = 8 ∨ n = 10 := by omega
      · have late : averageAfter [0, 0, 0, 0, 0, 0, 1] = some (14 / 100) := by decide +kernel
        have early : averageAfter [0, 0, 0, 0, 0, 1, 0] = some (15 / 100) := by decide +kernel
        exact unsteady_of_order late early (by decide) (by norm_num)
      · have late : averageAfter [0, 0, 0, 0, 0, 0, 0, 1] = some (13 / 100) := by decide +kernel
        have early : averageAfter [0, 0, 0, 0, 0, 0, 1, 0] = some (12 / 100) := by decide +kernel
        exact unsteady_of_order late early (by decide) (by norm_num)
      · have late : averageAfter [0, 0, 0, 0, 0, 0, 0, 0, 0, 1] = some (10 / 100) := by decide +kernel
        have early : averageAfter [0, 0, 0, 0, 0, 0, 0, 1, 0, 0] = some (11 / 100) := by decide +kernel
        exact unsteady_of_order late early (by decide) (by norm_num)
    · obtain ⟨checks, r, length, upserted, far⟩ := off_iff.mpr (show ¬(n ≤ 8 ∨ n = 10 ∨ 2 ^ 31 ≤ n) by omega)
      exact ⟨checks, r, length, upserted, fun steady => far steady.mean⟩

/-- After how many checks the average is always near the mean, and after how many it is also what the backfill
    computes in any order: ten and at most eight, and at most six. A row cannot count 2^31 checks. -/
theorem latency_steady_iff (n : Nat) :
    ((∀ checks r, checks.length = n → Upserted checks (some r) → |r.avgLatencyMs - meanLatency checks| ≤ 1 / 100) ↔
      n ≤ 8 ∨ n = 10 ∨ 2 ^ 31 ≤ n) ∧
    ((∀ checks r, checks.length = n → Upserted checks (some r) → Steady checks r) ↔ n ≤ 6 ∨ 2 ^ 31 ≤ n) := by
  constructor
  · rw [← not_iff_not, ← off_iff]
    simp only [not_forall, exists_prop]
  · rw [← not_iff_not, ← unsteady_iff]
    simp only [not_forall, exists_prop]

/-- Nine response times of 0 and 1 ms with the mean 0.667, and the average 0.68. -/
theorem latency_drifts : averageAfter [0, 0, 1, 1, 1, 1, 1, 1, 0] = some (68 / 100) ∧
    meanLatency (responses [0, 0, 1, 1, 1, 1, 1, 1, 0]) = 2 / 3 ∧ ¬|(68 / 100 : ℚ) - 2 / 3| ≤ 1 / 100 := by
  decide +kernel

end DatrixOps
