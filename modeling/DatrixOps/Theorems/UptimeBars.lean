import Mathlib.Data.List.Forall2
import DatrixOps.Website.Uptime

/-! What the uptime summary shows. A day without a roll-up is one without data before the website was created,
    and counts as a day of full uptime from then on. -/

namespace DatrixOps
namespace UptimeBars
open Golang Postgres Uptime

attribute [local instance] Arithmetic.binary64

/-! ### One website -/

/-- The mean to two decimals, as it is computed; of nothing it is 100. -/
def mean (scores : List ℚ) : ℚ :=
  if scores = [] then 100 else rounded (mathRound (rounded (rounded (sumOf scores / ofInt scores.length) * 100)) / 100)

section
variable (rollups : Int → Option DailyUptimeRollup) (createdDate : Int)

/-- The bar of a day without a roll-up. -/
def missingBar (date : Int) : UptimeDayBar := if date < createdDate then noDataBar date else operationalBar date

/-- The bar of a day. -/
def bar (date : Int) : UptimeDayBar :=
  match rollups date with
  | some r => recordedBar date r
  | none => missingBar createdDate date

/-- What a day counts in the mean, if it counts. -/
def score (date : Int) : Option ℚ :=
  match rollups date with
  | some r => some r.uptimePct
  | none => if date < createdDate then none else some 100

/-- What an item shows of a range of days. -/
structure Shown (dates : List Int) (item : UptimeSummaryItem) : Prop where
  order : item.days.map (·.date) = dates
  recorded : ∀ b ∈ item.days, ∀ r, rollups b.date = some r → b = recordedBar b.date r
  missing : ∀ b ∈ item.days, rollups b.date = none → b = missingBar createdDate b.date
  overall : item.overallUptimePct = mean (dates.filterMap (score rollups createdDate))
  /-- No rounding counts in the mean of values of up to three digits, but that to two decimals. -/
  near : ∀ scores, scores = dates.filterMap (score rollups createdDate) → scores ≠ [] → (∀ x ∈ scores, |x| ≤ 1000) →
    |item.overallUptimePct - scores.sum / scores.length| ≤ 51 / 10000

end

variable {rollups rollups' : Int → Option DailyUptimeRollup} {createdDate : Int} {dates : List Int}

theorem scoreDay_foldl (scores : Scores) : dates.foldl (scoreDay rollups createdDate) scores =
    ⟨scores.dayBars ++ dates.map (bar rollups createdDate),
      (dates.filterMap (score rollups createdDate)).foldl (fun sum x => rounded (sum + x)) scores.totalUptimeSum,
      scores.scoredDays + (dates.filterMap (score rollups createdDate)).length⟩ := by
  induction dates generalizing scores with
  | nil => simp
  | cons date dates ih =>
    rw [List.foldl_cons, ih, List.map_cons]
    cases found : rollups date with
    | some r =>
      have scored : score rollups createdDate date = some r.uptimePct := by rw [score, found]
      have shown : bar rollups createdDate date = recordedBar date r := by rw [bar, found]
      rw [List.filterMap_cons_some scored, shown, scoreDay, found]
      simp [Nat.add_assoc, Nat.add_comm]
    | none =>
      have shown : bar rollups createdDate date = missingBar createdDate date := by rw [bar, found]
      rw [shown, scoreDay, found, missingBar]
      by_cases before : date < createdDate
      · have scored : score rollups createdDate date = none := by simp [score, found, before]
        rw [List.filterMap_cons_none scored]
        simp [before]
      · have scored : score rollups createdDate date = some 100 := by simp [score, found, before]
        rw [List.filterMap_cons_some scored]
        simp [before, Nat.add_assoc, Nat.add_comm]

theorem date_bar (date : Int) : (bar rollups createdDate date).date = date := by
  unfold bar missingBar
  split
  · rfl
  · split <;> rfl

theorem bar_congr {date : Int} (same : rollups date = rollups' date) :
    bar rollups createdDate date = bar rollups' createdDate date := by
  rw [bar, bar, same]

theorem score_congr {date : Int} (same : rollups date = rollups' date) :
    score rollups createdDate date = score rollups' createdDate date := by
  rw [score, score, same]

/-- Rounding to the digits of a `float64` errs by less than a millionth, in numbers of up to six digits. -/
theorem abs_rounded_sub_le {x : ℚ} (below : |x| < 2 ^ (17 : ℤ)) : |rounded x - x| ≤ 1 / 10 ^ 6 := by
  have error := abs_float64_sub_le_of_lt (x := x) (k := -36) (by simpa using below) (by norm_num)
  exact error.trans (by norm_num)

theorem mean_near {scores : List ℚ} (some_ : scores ≠ []) (few : scores.length ≤ 365)
    (bounds : ∀ x ∈ scores, |x| ≤ 1000) :
    |mean scores - scores.sum / scores.length| ≤ 51 / 10000 := by
  have positive : (0 : ℚ) < scores.length := by exact_mod_cast List.length_pos_iff.mpr some_
  have few' : (scores.length : ℚ) ≤ 365 := by exact_mod_cast few
  have count : ofInt scores.length = scores.length := by
    have small : |(scores.length : ℤ)| < 2 ^ 53 := by
      rw [abs_of_nonneg (Int.natCast_nonneg _)]
      omega
    exact_mod_cast float64_intCast small
  -- the sum, the quotient, the hundredths, their rounding and the result
  have sum : |sumOf scores / scores.length - scores.sum / scores.length| ≤ 1 / 10 ^ 6 := by
    have fits : (scores.length : ℚ) * (1000 + 2 ^ (-34 : ℤ) / 2) < 2 ^ (-34 + 53 : ℤ) := by
      calc (scores.length : ℚ) * (1000 + 2 ^ (-34 : ℤ) / 2) ≤ 365 * (1000 + 2 ^ (-34 : ℤ) / 2) :=
            mul_le_mul_of_nonneg_right few' (by norm_num)
        _ < 2 ^ (-34 + 53 : ℤ) := by norm_num
    have error := abs_sumOf_sub_le bounds fits (by norm_num)
    rw [← sub_div, abs_div, abs_of_pos positive, div_le_iff₀ positive]
    calc |sumOf scores - scores.sum| ≤ scores.length * (2 ^ (-34 : ℤ) / 2) := error
      _ ≤ scores.length * (1 / 10 ^ 6) := mul_le_mul_of_nonneg_left (by norm_num) positive.le
      _ = 1 / 10 ^ 6 * scores.length := mul_comm _ _
  have exact_ : |scores.sum / scores.length| ≤ 1000 := by
    rw [abs_div, abs_of_pos positive, div_le_iff₀ positive]
    linarith [abs_sum_le bounds]
  rw [mean, if_neg some_, count]
  generalize sumOf scores / scores.length = q₀ at sum ⊢
  generalize scores.sum / scores.length = q at sum exact_ ⊢
  rw [abs_le] at sum exact_
  have quotient := abs_rounded_sub_le (x := q₀) (by rw [abs_lt]; constructor <;> norm_num <;> linarith)
  generalize rounded q₀ = q₁ at quotient ⊢
  rw [abs_le] at quotient
  have hundredths := abs_rounded_sub_le (x := q₁ * 100) (by rw [abs_lt]; constructor <;> norm_num <;> linarith)
  generalize rounded (q₁ * 100) = p at hundredths ⊢
  rw [abs_le] at hundredths
  have whole := abs_mathRound_sub_le (x := p)
  generalize mathRound p = m at whole ⊢
  rw [abs_le] at whole
  have result := abs_rounded_sub_le (x := m / 100) (by rw [abs_lt]; constructor <;> norm_num <;> linarith)
  generalize rounded (m / 100) = r at result ⊢
  rw [abs_le] at result ⊢
  constructor <;> linarith

/-- The mean of the loop's variables. -/
theorem overallPct_eq {bars : List UptimeDayBar} {scores : List ℚ} :
    overallPct ⟨bars, sumOf scores, scores.length⟩ = mean scores := by
  cases scores with
  | nil => rfl
  | cons x xs =>
    rw [overallPct, mean, if_pos (by simp), if_neg (List.cons_ne_nil x xs)]

theorem summaryItem_shown (w : Uptime.Website) (start : Int) {days : Nat} (few : days ≤ 365)
    (same : ∀ date ∈ range start days, rollups' date = rollups date) :
    Shown rollups createdDate (range start days) (summaryItem w rollups' createdDate start days) := by
  have bars : (summaryItem w rollups' createdDate start days).days =
      (range start days).map (bar rollups createdDate) := by
    rw [summaryItem, scoreDay_foldl, List.nil_append]
    exact List.map_congr_left fun date hd => bar_congr (same date hd)
  have overall : (summaryItem w rollups' createdDate start days).overallUptimePct =
      mean ((range start days).filterMap (score rollups createdDate)) := by
    rw [← List.filterMap_congr fun date hd => score_congr (same date hd), summaryItem, scoreDay_foldl]
    simp only [Nat.zero_add]
    exact overallPct_eq
  have near : ∀ scores, scores = (range start days).filterMap (score rollups createdDate) → scores ≠ [] →
    (∀ x ∈ scores, |x| ≤ 1000) →
      |(summaryItem w rollups' createdDate start days).overallUptimePct - scores.sum / scores.length| ≤ 51 / 10000 := by
    rintro scores rfl some_ bounds
    have length : (range start days).length = days := by rw [range, List.length_map, List.length_range]
    rw [overall]
    exact mean_near some_ ((List.length_filterMap_le _ _).trans (length.le.trans few)) bounds
  refine ⟨?_, ?_, ?_, overall, near⟩
  · rw [bars, List.map_map]
    exact (List.map_congr_left fun date _ => date_bar date).trans (List.map_id _)
  · rw [bars]
    intro b hb r found
    obtain ⟨date, -, rfl⟩ := List.mem_map.mp hb
    rw [date_bar] at found ⊢
    rw [bar, found]
  · rw [bars]
    intro b hb none_
    obtain ⟨date, -, rfl⟩ := List.mem_map.mp hb
    rw [date_bar] at none_ ⊢
    rw [bar, none_]

/-! ### The summary -/

/-- The roll-ups of a website that are read, by day. -/
def rollupsOf (rows : RollupKey → Option DailyUptimeRollup) (arrived : RollupKey → Bool) (w : Uptime.Website)
    (date : Int) :
    Option DailyUptimeRollup :=
  readRow rows arrived ⟨"website", w.id, date - unixDay⟩

theorem daysOf_le (days : Int) : daysOf days ≤ 365 := by
  unfold daysOf
  split
  · norm_num
  · split <;> omega

theorem mem_range_bounds {now : Time} {days date : Int} {endDate : List Char}
    (h : date ∈ range (startDay now days endDate) (daysOf days)) :
    startDay now days endDate ≤ date ∧ date ≤ endDay now endDate := by
  obtain ⟨d, hd, rfl⟩ := List.mem_map.mp h
  have before := List.mem_range.mp hd
  unfold startDay
  omega

/-- Every website read has an item that shows the days of the range, in their order, with the rows read. It
    fails when a query does, and for a range that begins before the first day there is in the database. -/
theorem getUptimeSummary_shown (now : Time) (localDay : Time → Int) (rows : RollupKey → Option DailyUptimeRollup)
    (answers : Answers)
    (days : Int) (endDate : List Char) :
    match getUptimeSummary now localDay rows answers days endDate with
    | .error message => answers.websites = .error message ∨ ∃ websites, answers.websites = .ok websites ∧
      websites ≠ [] ∧
        (startDay now days endDate < 0 ∨ answers.arrived = .error message)
    | .ok summary => ∃ websites, answers.websites = .ok websites ∧
        List.Forall₂ (fun w item => item.id = w.id ∧ ∃ arrived, answers.arrived = .ok arrived ∧
          Shown (rollupsOf rows arrived w) (localDay w.createdAt)
          (range (startDay now days endDate) (daysOf days)) item) websites summary.items := by
  rw [getUptimeSummary]
  cases listed : answers.websites with
  | error message => exact Or.inl rfl
  | ok websites =>
    rcases eq_or_ne websites [] with rfl | some_
    · exact ⟨[], rfl, List.Forall₂.nil⟩
    have ids : websites.map (·.id) ≠ [] := fun none_ => some_ (List.map_eq_nil_iff.mp none_)
    simp only [getUptimeRollups, if_neg ids, bind, Except.bind]
    by_cases early : startDay now days endDate < 0
    · rw [if_pos early]
      exact Or.inr ⟨websites, rfl, some_, Or.inl early⟩
    rw [if_neg early]
    cases read : answers.arrived with
    | error message => exact Or.inr ⟨websites, rfl, some_, Or.inr rfl⟩
    | ok arrived =>
      refine ⟨websites, rfl, List.forall₂_map_right_iff.mpr (List.forall₂_same.mpr fun w hw => ⟨rfl, arrived, rfl, ?_⟩)⟩
      refine summaryItem_shown w _ (daysOf_le days) fun date hd => if_pos ?_
      exact ⟨List.mem_map_of_mem hw, mem_range_bounds hd⟩

/-- A website created on the first day. -/
def shop : Uptime.Website := ⟨7, "shop", "https://shop.example", "UP", 0⟩

/-- On a day it was checked twice, once in vain. -/
def halfUp : DailyUptimeRollup := ⟨50, 60, 2, 1, 45, .outage, none⟩

/-- Of two days the first is rolled up; the other is shown as operational, and the mean is 75 instead of 50. -/
theorem missing_day_operational :
    let rows : RollupKey → Option DailyUptimeRollup := fun key => if key = ⟨"website", 7, 0⟩ then some halfUp else none
    (getUptimeSummary 0 (fun _ => unixDay) rows ⟨.ok [shop], .ok fun _ => true⟩ 2 "1970-01-02".toList).map
        (fun s => s.items.map fun i => (i.days.map fun b => (b.date, b.status, b.avgLatencyMs), i.overallUptimePct)) =
      .ok [([(unixDay, .rolledUp .outage, 45), (unixDay + 1, .rolledUp .operational, 45)], 75)] ∧
    mean [halfUp.uptimePct] = 50 := by
  decide +kernel

/-- Halfway between two decimals it is the sum's own rounding that decides. -/
example : mean [float64 (9502 / 100), float64 (9507 / 100)] = float64 (9504 / 100) := by decide +kernel

end UptimeBars
end DatrixOps
