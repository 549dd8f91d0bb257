import Mathlib.Data.Int.LeastGreatest
import DatrixOps.Theorems.CronSearch
import DatrixOps.Collector.Crontab

/-! The next run that is reported for a cron job (snapshot.go, parseCronFile and nextCronRun) against the runs
    that the cron daemon makes in the host's local time. The report is read off UTC, and takes a day field for
    a star only where it is nothing else. -/

namespace DatrixOps
namespace CronRuns
open Golang Cron CronSearch Crontab

/-! ### First instants -/

/-- `o` is the first element of a set, and none where the set is empty. -/
def IsFirst (s : Set Int) (o : Option Int) : Prop := ∀ i, o = some i ↔ IsLeast s i

variable {s t : Set Int} {o : Option Int} {b : Int}

theorem exists_least (below : ∀ i ∈ s, b ≤ i) (some_ : s.Nonempty) : ∃ i, IsLeast s i := by
  obtain ⟨i, hi, least⟩ := Int.exists_least_of_bdd ⟨b, below⟩ some_
  exact ⟨i, hi, least⟩

/-- The first element of one set is that of another exactly where the first element of either is in both. -/
theorem isFirst_iff (bs : ∀ i ∈ s, b ≤ i) (bt : ∀ i ∈ t, b ≤ i) (h : IsFirst s o) :
    IsFirst t o ↔ ∀ i, IsLeast (s ∪ t) i → i ∈ s ∩ t := by
  constructor
  · intro h' i least
    have first : IsLeast s i ∨ IsLeast t i := by
      rcases least.1 with hs | ht
      · exact Or.inl ⟨hs, fun j hj => least.2 (Or.inl hj)⟩
      · exact Or.inr ⟨ht, fun j hj => least.2 (Or.inr hj)⟩
    rcases first with hs | ht
    · exact ⟨hs.1, ((h' i).mp ((h i).mpr hs)).1⟩
    · exact ⟨((h i).mp ((h' i).mpr ht)).1, ht.1⟩
  · intro both i
    have same (j : Int) (hj : IsLeast (s ∪ t) j) : IsLeast s j ∧ IsLeast t j := by
      obtain ⟨hs, ht⟩ := both j hj
      exact ⟨⟨hs, fun k hk => hj.2 (Or.inl hk)⟩, ⟨ht, fun k hk => hj.2 (Or.inr hk)⟩⟩
    have below : ∀ j ∈ s ∪ t, b ≤ j := fun j hj => hj.elim (bs j) (bt j)
    rw [h i]
    constructor
    · intro hs
      obtain ⟨j, hj⟩ := exists_least below ⟨i, Or.inl hs.1⟩
      obtain ⟨first, second⟩ := same j hj
      exact hs.unique first ▸ second
    · intro ht
      obtain ⟨j, hj⟩ := exists_least below ⟨i, Or.inr ht.1⟩
      obtain ⟨first, second⟩ := same j hj
      exact ht.unique second ▸ first

/-! ### The report -/

/-- The instants at which the agent's reading of a schedule has the job run. -/
def Readings (schedule : List Char) : Set Int :=
  {i | ∃ parsed c, parseCronSchedule schedule = some parsed ∧ Matches parsed c ∧ i = 60 * c * 1000000000}

/-- The instants after `t`, up to the end of the minute-wise window of a year. -/
def Within (t : Int) : Set Int := {i | t < i ∧ i ≤ 60 * addYears (minuteAfter t) 1 * 1000000000}

/-- The report as an instant. -/
def reported (schedule : List Char) (t : Int) : Option Int := (nextCronRun schedule t).map fun c => 60 * c * 1000000000

variable {schedule : List Char} {parsed : CronSchedule} {offset i c : Int} {τ : Int}

theorem within_iff : 60 * c * 1000000000 ∈ Within τ ↔ c ∈ Window τ := by
  simp only [Within, Window, Set.mem_ofPred_eq, Set.mem_Icc, minuteAfter]
  omega

theorem isFirst_reported (accepted : parseCronSchedule schedule = some parsed) :
    IsFirst (Readings schedule ∩ Within τ) (reported schedule τ) := by
  have run : nextCronRun schedule τ = search parsed (addYears (minuteAfter τ) 1) (minuteAfter τ) := by
    rw [nextCronRun, accepted]
    rfl
  have mem (i : Int) : i ∈ Readings schedule ∩ Within τ ↔ ∃ c, c ∈ Window τ ∧ Matches parsed c ∧
      i = 60 * c * 1000000000 := by
    constructor
    · rintro ⟨⟨parsed', c, accepted', hc, rfl⟩, within⟩
      obtain rfl : parsed' = parsed := Option.some.inj (accepted'.symm.trans accepted)
      exact ⟨c, within_iff.mp within, hc, rfl⟩
    · rintro ⟨c, within, hc, rfl⟩
      exact ⟨⟨parsed, c, accepted, hc, rfl⟩, within_iff.mpr within⟩
  intro i
  rw [reported, run]
  rcases search_spec parsed (addYears (minuteAfter τ) 1) (minuteAfter τ) with ⟨r, hr, least⟩ | ⟨hr, none_⟩
  · have first : IsLeast (Readings schedule ∩ Within τ) (60 * r * 1000000000) := by
      refine ⟨(mem _).mpr ⟨r, least.1.1, least.1.2, rfl⟩, fun j hj => ?_⟩
      obtain ⟨c, within, hc, rfl⟩ := (mem j).mp hj
      have order : r ≤ c := least.2 ⟨within, hc⟩
      omega
    rw [hr, Option.map_some, Option.some_inj]
    exact ⟨fun same => same ▸ first, fun other => first.unique other⟩
  · rw [hr]
    refine iff_of_false (by simp) fun least => ?_
    obtain ⟨c, within, hc, -⟩ := (mem i).mp least.1
    exact none_ c within hc

/-- The report is the daemon's first start exactly where the first instant of the year that either has is one
of both. -/
theorem reported_first_iff (accepted : parseCronSchedule schedule = some parsed) :
    IsFirst (Starts schedule offset ∩ Within τ) (reported schedule τ) ↔
      ∀ i, IsLeast ((Readings schedule ∪ Starts schedule offset) ∩ Within τ) i →
      i ∈ Readings schedule ∩ Starts schedule offset := by
  rw [isFirst_iff (b := τ) (fun i hi => hi.2.1.le) (fun i hi => hi.2.1.le) (isFirst_reported accepted),
    ← Set.union_inter_distrib_right]
  refine forall_congr' fun i => imp_congr_right fun least => ?_
  exact ⟨fun both => ⟨both.1.1, both.2.1⟩, fun both => ⟨⟨both.1, least.1.2⟩, ⟨both.2, least.1.2⟩⟩⟩

theorem mem_within_pred (i : Int) : i ∈ Within (i - 1) := by
  have year := lt_addYears (minuteAfter (i - 1)) one_pos
  simp only [Within, Set.mem_ofPred_eq]
  simp only [minuteAfter] at year ⊢
  omega

/-- At every instant it is exactly where the two have the job run at the same instants. -/
theorem reported_always_iff (accepted : parseCronSchedule schedule = some parsed) :
    (∀ τ, IsFirst (Starts schedule offset ∩ Within τ) (reported schedule τ)) ↔
      Readings schedule = Starts schedule offset := by
  constructor
  · intro h
    have both (i : Int) (hi : i ∈ Readings schedule ∪ Starts schedule offset) :
        i ∈ Readings schedule ∩ Starts schedule offset := by
      refine (reported_first_iff accepted).mp (h (i - 1)) i ⟨⟨hi, mem_within_pred i⟩, fun j hj => ?_⟩
      have later := hj.2.1
      omega
    exact Set.Subset.antisymm (fun i hi => (both i (Or.inl hi)).2) fun i hi => (both i (Or.inr hi)).1
  · intro same τ
    refine (reported_first_iff accepted).mpr fun i least => ?_
    rw [← same, Set.union_self] at least
    rw [← same, Set.inter_self]
    exact least.1.1

variable {v : Int}

/-! ### Plain schedules -/

theorem takeWhile_range {α : Type} {p : α → Bool} {f : Nat → α} {n k : Nat} (hk : k < n)
    (before : ∀ i < k, p (f i) = true)
    (at_ : p (f k) = false) : ((List.range n).map f).takeWhile p = (List.range k).map f := by
  obtain ⟨m, rfl⟩ : ∃ m, n = k + (1 + m) := ⟨n - k - 1, by omega⟩
  have first : ∀ x ∈ (List.range k).map f, p x = true := by
    intro x hx
    obtain ⟨i, hi, rfl⟩ := List.mem_map.mp hx
    exact before i (List.mem_range.mp hi)
  rw [List.range_add, List.map_append, List.takeWhile_append_of_pos first, List.range_add, List.map_append,
    List.map_append]
  simp [at_]

/-- As long as the step is not close to the largest number, the values are those that the range holds. -/
theorem mem_rangeValues {r : Range} (first : 0 ≤ r.first) (last : r.last ≤ 59) (order : r.first ≤ r.last)
    (pos : 0 < r.step)
    (short : r.step < 2 ^ 63 - 59) : v ∈ rangeValues r.first r.last r.step ↔ r.Holds v := by
  obtain ⟨a, b, s⟩ := r
  dsimp only at *
  obtain ⟨k, few, hk, value, within, above⟩ := round_of_short first last order pos short
  rw [rangeValues, takeWhile_range few (fun i hi => by rw [value i hi.le]; exact decide_eq_true (within i hi))
    (by rw [value k le_rfl]; exact decide_eq_false (not_le.mpr above))]
  simp only [List.mem_map, List.mem_range, Range.Holds]
  constructor
  · rintro ⟨i, hi, rfl⟩
    rw [value i hi.le]
    refine ⟨?_, within i hi, ⟨i, by rw [add_sub_cancel_left, mul_comm]⟩⟩
    have steps := Int.mul_nonneg (Int.natCast_nonneg i) pos.le
    omega
  · rintro ⟨low, high, n, hn⟩
    have nonneg : 0 ≤ n := by
      by_contra negative
      have steps : s * n < 0 := Int.mul_neg_of_pos_of_neg pos (not_le.mp negative)
      omega
    obtain ⟨i, rfl⟩ := Int.eq_ofNat_of_zero_le nonneg
    have hi : i < k := by
      have fits : (i : Int) ≤ (b - a) / s := Int.le_ediv_of_mul_le pos (by rw [Int.mul_comm]; omega)
      omega
    exact ⟨i, hi, by rw [value i hi.le, Int.mul_comm]; omega⟩

/-- A step that the agent's loop adds up without passing the largest number. -/
def Short (r : Range) : Prop := r.step < 2 ^ 63 - 59

theorem atoi_of_number {text : List Char} {n : Int} (h : Crontab.number text = some n) (fits : n < 2 ^ 63) :
    atoi text = some n ∧ 0 ≤ n := by
  obtain ⟨k, hk, rfl⟩ := Option.map_eq_some_iff.mp h
  have shape : Digits text := by
    cases text with
    | nil => cases hk
    | cons c cs =>
      have all := (Option.ite_none_right_eq_some.mp hk).1
      exact ⟨List.cons_ne_nil _ _, List.all_eq_true.mp all⟩
  have value : k = Nat.ofDigitChars 10 text 0 := Option.some.inj (hk.symm.trans (digits_eq shape))
  have fits : k < 2 ^ 63 := Int.ofNat_lt.mp fits
  rw [atoi_digits shape, ← value, if_pos fits]
  exact ⟨rfl, Int.natCast_nonneg k⟩

theorem baseBounds_of_bounds {min max a b : Int} {base : List Char} (h : bounds min max base = some (a, b))
    (order : a ≤ b)
    (last : b ≤ 59) : baseBounds min max base = some (a, b) := by
  unfold baseBounds
  unfold bounds at h
  split at h
  · rename_i star
    rw [if_pos star]
    exact h
  · rename_i star
    rw [if_neg star]
    split at h
    · rename_i value single
      obtain ⟨none_, rfl⟩ := split_eq_singleton.mp single
      obtain ⟨v, hv, same⟩ := Option.map_eq_some_iff.mp h
      obtain ⟨rfl, rfl⟩ := Prod.mk.inj same
      rw [if_neg none_, (atoi_of_number hv (by omega)).1]
      rfl
    · rename_i first last_ two
      have dash : '-' ∈ base := by
        by_contra none_
        rw [split_of_not_mem none_] at two
        cases two
      simp only [Option.bind_eq_bind, Option.bind_eq_some_iff, Option.some.injEq, Prod.mk.injEq] at h
      obtain ⟨a', ha, b', hb, rfl, rfl⟩ := h
      rw [if_pos dash, two]
      simp only [(atoi_of_number ha (by omega)).1, (atoi_of_number hb (by omega)).1]
      rfl
    · cases h

theorem splitStep_of_stepped {text base : List Char} {step : Int} (h : stepped text = some (base, step))
    (pos : 0 < step)
    (short : step < 2 ^ 63 - 59) : splitStep text = some (base, step) := by
  unfold stepped at h
  unfold splitStep
  split at h
  · rename_i single
    obtain ⟨none_, rfl⟩ := split_eq_singleton.mp single
    rw [if_neg none_]
    exact h
  · rename_i base' text' two
    have slash : '/' ∈ text := by
      by_contra none_
      rw [split_of_not_mem none_] at two
      cases two
    obtain ⟨n, hn, same⟩ := Option.map_eq_some_iff.mp (Option.ite_none_right_eq_some.mp h).2
    obtain ⟨rfl, rfl⟩ := Prod.mk.inj same
    rw [if_pos slash, two]
    simp only [(atoi_of_number hn (by omega)).1]
    exact if_pos pos
  · cases h

theorem part_of_element {min max : Int} {text : List Char} {r : Range} (h : element min max text = some r)
    (short : Short r)
    (some_ : text ≠ []) (white : ∀ c ∈ text, isSpace c = false) (last : max ≤ 59) :
    parseCronPart min max text = some (rangeValues r.first r.last r.step) ∧ 0 < r.step ∧ min ≤ r.first ∧ r.last ≤ max ∧
      r.first ≤ r.last := by
  simp only [element, Option.bind_eq_bind, Option.bind_eq_some_iff, Prod.exists, Option.ite_none_right_eq_some] at h
  obtain ⟨base, step, hstep, a, b, hbounds, ⟨pos, low, high, order⟩, same⟩ := h
  obtain rfl := Option.some.inj same
  refine ⟨?_, pos, low, high, order⟩
  simp only [parseCronPart, trimSpace_eq_self white, if_neg some_, splitStep_of_stepped hstep pos short,
    baseBounds_of_bounds hbounds order (by omega), Option.bind_eq_bind, Option.bind_some]
  exact if_neg (by omega)

theorem element_nil {min max : Int} : element min max [] = none := by
  simp [element, stepped, bounds, split, Crontab.number, digits]

theorem parts_of_elements {min max : Int} (first : 0 ≤ min) (last : max ≤ 59) {parts : List (List Char)} :
    ∀ {ranges : List Range}, parts.mapM (element min max) = some ranges → (∀ r ∈ ranges, Short r) →
      (∀ part ∈ parts, ∀ c ∈ part, isSpace c = false) →
      ∃ values, parts.mapM (parseCronPart min max) = some values ∧ (∀ v, v ∈ values.flatten ↔ ∃ r ∈ ranges, r.Holds v) ∧
        (parts ≠ [] → values.flatten ≠ []) := by
  induction parts with
  | nil =>
    rintro ranges h - -
    obtain rfl := Option.some.inj h
    exact ⟨[], rfl, by simp, fun h => absurd rfl h⟩
  | cons part parts ih =>
    intro ranges h short white
    rw [List.mapM_cons] at h
    simp only [Option.bind_eq_bind, Option.bind_eq_some_iff, Option.pure_def, Option.some.injEq] at h
    obtain ⟨r, hr, rest, hrest, rfl⟩ := h
    have some_ : part ≠ [] := by
      rintro rfl
      rw [element_nil] at hr
      cases hr
    obtain ⟨own, pos, low, high, order⟩ :=
      part_of_element hr (short r List.mem_cons_self) some_ (white part List.mem_cons_self) last
    obtain ⟨values, hvalues, mem, -⟩ := ih hrest (fun r hr => short r (List.mem_cons_of_mem _ hr))
      fun part hpart => white part (List.mem_cons_of_mem _ hpart)
    have holds (v : Int) : v ∈ rangeValues r.first r.last r.step ↔ r.Holds v :=
      mem_rangeValues (by omega) (by omega) order pos (short r List.mem_cons_self)
    refine ⟨_ :: values, by rw [List.mapM_cons, own, hvalues]; rfl, fun v => ?_, fun _ => ?_⟩
    · rw [List.flatten_cons, List.mem_append, holds, mem]
      simp
    · have first_ : r.first ∈ rangeValues r.first r.last r.step := (holds _).mpr ⟨le_rfl, order, by simp⟩
      exact List.ne_nil_of_mem (List.mem_append_left _ first_)

/-- The agent reads a field as the daemon does, but for what it takes for a star. -/
theorem field_of_field {min max : Int} {text : List Char} {f : Field} (h : field min max text = some f)
    (short : ∀ r ∈ f.ranges, Short r)
    (first : 0 ≤ min) (last : max ≤ 59) (white : ∀ c ∈ text, isSpace c = false) :
    f.starred = decide (text.head? = some '*') ∧
    ∃ values, parseCronField text min max = some (values, decide (text = ['*'])) ∧ ∀ v, v ∈ values ↔ f.Holds v := by
  obtain ⟨ranges, hranges, rfl⟩ := Option.map_eq_some_iff.mp h
  obtain ⟨values, hvalues, mem, some_⟩ := parts_of_elements first last hranges short fun part hpart c hc =>
    white c (mem_of_mem_part hpart hc)
  refine ⟨rfl, values.flatten, ?_, mem⟩
  have filled := some_ split_ne_nil
  simp only [parseCronField, hvalues, Option.bind_eq_bind, Option.bind_some, guard, if_pos filled,
    trimSpace_eq_self white]
  rfl

/-- A schedule in the daemon's own syntax, with steps that the agent can add up and no day field that starts
    with a star and goes on. -/
structure Plain (schedule : List Char) : Prop where
  entry : ∃ e, entry schedule = some e ∧ ∀ f ∈ [e.minute, e.hour, e.dayOfMonth, e.month, e.dayOfWeek],
    ∀ r ∈ f.ranges, Short r
  star : ∀ k, k = 2 ∨ k = 4 → ∀ text, (fields (expandMacro schedule))[k]? = some text →
    text.head? = some '*' → text = ['*']

theorem mem_daysOfWeek {numbers : List Int} {day : Int} (h : day < 7) :
    day ∈ numbers.map (fun n => if n = 7 then 0 else n) ↔ day ∈ numbers ∨ day = 0 ∧ 7 ∈ numbers := by
  constructor
  · intro hday
    obtain ⟨n, hn, rfl⟩ := List.mem_map.mp hday
    split
    · rename_i sunday
      exact Or.inr ⟨rfl, sunday ▸ hn⟩
    · exact Or.inl hn
  · rintro (hday | ⟨rfl, sunday⟩)
    · exact List.mem_map.mpr ⟨day, hday, if_neg (by omega)⟩
    · exact List.mem_map.mpr ⟨7, sunday, if_pos rfl⟩

/-- A plain schedule is read as the daemon reads it. -/
theorem matches_iff_due (h : Plain schedule) : ∃ parsed e, parseCronSchedule schedule = some parsed ∧
    entry schedule = some e ∧
    ∀ c, Matches parsed c ↔ e.Due c := by
  obtain ⟨⟨e, he, short⟩, star⟩ := h
  have word : ∀ w ∈ fields (expandMacro schedule), ∀ c ∈ w, isSpace c = false := fun w hw => (mem_fields hw).2
  have accepted := he
  unfold entry at accepted
  split at accepted
  · rename_i minute hour dayOfMonth month dayOfWeek five
    rw [five] at star word
    simp only [Option.bind_eq_bind, Option.bind_eq_some_iff, Option.some.injEq] at accepted
    obtain ⟨fm, hm, fh, hh, fd, hd, fo, ho, fw, hw, rfl⟩ := accepted
    obtain ⟨-, minutes, pm, inMinutes⟩ :=
      field_of_field hm (short fm (by simp)) (by decide) (by decide) (word minute (by simp))
    obtain ⟨-, hours, ph, inHours⟩ :=
      field_of_field hh (short fh (by simp)) (by decide) (by decide) (word hour (by simp))
    obtain ⟨dayStar, days, pd, inDays⟩ :=
      field_of_field hd (short fd (by simp)) (by decide) (by decide) (word dayOfMonth (by simp))
    obtain ⟨-, months, po, inMonths⟩ :=
      field_of_field ho (short fo (by simp)) (by decide) (by decide) (word month (by simp))
    obtain ⟨weekStar, numbers, pw, inNumbers⟩ :=
      field_of_field hw (short fw (by simp)) (by decide) (by decide) (word dayOfWeek (by simp))
    have lone {text : List Char} (h : text.head? = some '*' → text = ['*']) :
        decide (text = ['*']) = decide (text.head? = some '*') :=
      decide_eq_decide.mpr ⟨fun same => by rw [same]; rfl, h⟩
    have dayLone := (lone (star 2 (Or.inl rfl) dayOfMonth rfl)).trans dayStar.symm
    have weekLone := (lone (star 4 (Or.inr rfl) dayOfWeek rfl)).trans weekStar.symm
    refine ⟨⟨minutes, hours, days, months, numbers.map fun n => if n = 7 then 0 else n, decide (dayOfMonth = ['*']),
      decide (dayOfWeek = ['*'])⟩, ⟨fm, fh, fd, fo, fw⟩, ?_, he, fun c => ?_⟩
    · unfold parseCronSchedule
      rw [five]
      simp only [pm, ph, pd, po, pw, Option.bind_eq_bind, Option.bind_some]
    · have week : weekdayAt c ∈ (numbers.map fun n => if n = 7 then 0 else n) ↔
          Crontab.Entry.OnWeekday ⟨fm, fh, fd, fo, fw⟩ (weekdayAt c) := by
        rw [mem_daysOfWeek (by unfold weekdayAt; omega), inNumbers, inNumbers]
        rfl
      simp only [Matches, CronSchedule.dayMatches, Crontab.Entry.Due, Crontab.Entry.OnDay, inMonths, inHours, inMinutes,
        dayLone, weekLone]
      cases fd.starred <;> cases fw.starred <;> simp [week, inDays]
  · cases accepted

theorem readings_eq_starts (h : Plain schedule) : Readings schedule = Starts schedule 0 := by
  obtain ⟨parsed, e, accepted, valid, same⟩ := matches_iff_due h
  ext i
  constructor
  · rintro ⟨parsed', c, accepted', hc, rfl⟩
    obtain rfl : parsed' = parsed := Option.some.inj (accepted'.symm.trans accepted)
    exact ⟨e, c, valid, (same c).mp hc, by rw [Int.sub_zero]⟩
  · rintro ⟨e', c, valid', hc, rfl⟩
    obtain rfl : e' = e := Option.some.inj (valid'.symm.trans valid)
    exact ⟨parsed, c, accepted, (same c).mpr hc, by rw [Int.sub_zero]⟩

/-! ### Two schedules -/

/-- Every night at half past two. -/
def nightly : List Char := "30 2 * * *".toList

/-- The daemon starts it on odd days that are Mondays; it is listed for odd days and for Mondays. -/
def oddMondays : List Char := "0 0 */2 * 1".toList

/-- The only job of a one-line crontab. -/
def listed (schedule : List Char) (τ : Int) : CronJob where
  id := []
  source := []
  owner := []
  schedule := schedule
  command := "backup".toList
  enabled := true
  nextRunAt := nextCronRun schedule τ

/-- A report before which, and at which, the daemon starts nothing. -/
theorem not_isFirst (accepted : parseCronSchedule schedule = some parsed) (reads : i ∈ Readings schedule ∩ Within τ)
    (apart : ∀ j ∈ Readings schedule ∩ Within τ, j ≤ i → j ∉ Starts schedule offset) :
    ¬IsFirst (Starts schedule offset ∩ Within τ) (reported schedule τ) := by
  intro h
  obtain ⟨r, least⟩ := exists_least (s := Readings schedule ∩ Within τ) (b := τ) (fun j hj => hj.2.1.le) ⟨i, reads⟩
  have first := (h r).mp ((isFirst_reported accepted r).mpr least)
  exact apart r least.1 (least.2 reads) first.1.1

theorem holds_single (n : Int) {starred : Bool} : Field.Holds ⟨[⟨n, n, 1⟩], starred⟩ v ↔ v = n := by
  constructor
  · rintro ⟨r, hr, lower, upper, -⟩
    obtain rfl := List.mem_singleton.mp hr
    exact le_antisymm upper lower
  · rintro rfl
    exact ⟨_, List.mem_singleton_self _, le_rfl, le_rfl, by simp⟩

theorem parse_nightly : parseCronSchedule nightly = some ⟨[30], [2], (List.range 31).map fun n : Nat => (n : Int) + 1,
    (List.range 12).map fun n : Nat => (n : Int) + 1, [0, 1, 2, 3, 4, 5, 6, 0], true, true⟩ := by decide +kernel

theorem parse_oddMondays :
    parseCronSchedule oddMondays = some ⟨[0], [0], (List.range 16).map fun n : Nat => 2 * (n : Int) + 1,
    (List.range 12).map fun n : Nat => (n : Int) + 1, [1], false, false⟩ := by decide +kernel

theorem entry_nightly :
    entry nightly = some ⟨⟨[⟨30, 30, 1⟩], false⟩, ⟨[⟨2, 2, 1⟩], false⟩, ⟨[⟨1, 31, 1⟩], true⟩, ⟨[⟨1, 12, 1⟩], true⟩,
    ⟨[⟨0, 7, 1⟩], true⟩⟩ := by rfl

theorem entry_oddMondays : entry oddMondays = some ⟨⟨[⟨0, 0, 1⟩], false⟩, ⟨[⟨0, 0, 1⟩], false⟩, ⟨[⟨1, 31, 2⟩], true⟩,
    ⟨[⟨1, 12, 1⟩], true⟩, ⟨[⟨1, 1, 1⟩], false⟩⟩ := by rfl

/-! ### The report and the daemon -/

section
variable {hexDigest : List Char → List Char} {content source owner : List Char} {systemFormat : Bool} {job : CronJob}

theorem nextRunAt_of_listed (h : job ∈ parseCronFile hexDigest content source owner systemFormat fun _ => τ) :
    job.nextRunAt = nextCronRun job.schedule τ := by
  obtain ⟨⟨line, n⟩, -, hline⟩ := List.mem_filterMap.mp h
  simp only [parseCronLine, Option.ite_none_left_eq_some] at hline
  obtain ⟨-, -, -, same⟩ := hline
  rw [← Option.some.inj same]

/-- For a job listed with a schedule that is accepted: the run reported at an instant is the daemon's first
    start of the year exactly where the first instant that the schedule read off UTC or the daemon has in it
    is one of both; it is so at every instant exactly where the two have the same instants; and they have,
    where the host's clock shows UTC and the schedule is plain. -/
theorem reported_runs_iff (listed : job ∈ parseCronFile hexDigest content source owner systemFormat fun _ => τ)
    (accepted : (parseCronSchedule job.schedule).isSome = true) (offset : Int) :
    (IsFirst (Starts job.schedule offset ∩ Within τ) (job.nextRunAt.map fun c => 60 * c * 1000000000) ↔
      ∀ i, IsLeast ((Readings job.schedule ∪ Starts job.schedule offset) ∩ Within τ) i →
        i ∈ Readings job.schedule ∩ Starts job.schedule offset) ∧
    ((∀ τ, IsFirst (Starts job.schedule offset ∩ Within τ) (reported job.schedule τ)) ↔
      Readings job.schedule = Starts job.schedule offset) ∧
    (offset = 0 → Plain job.schedule → Readings job.schedule = Starts job.schedule offset) := by
  obtain ⟨parsed, accepted⟩ := Option.isSome_iff_exists.mp accepted
  rw [nextRunAt_of_listed listed]
  refine ⟨reported_first_iff accepted, reported_always_iff accepted, ?_⟩
  rintro rfl plain
  exact readings_eq_starts plain

end

theorem reported_runs_iff_nightly : (∀ τ, IsFirst (Starts nightly 0 ∩ Within τ) (reported nightly τ)) ↔
    Readings nightly = Starts nightly 0 :=
  (reported_runs_iff (show listed nightly 0 ∈ parseCronFile (fun _ => []) (nightly ++ " backup".toList) [] [] false
    fun _ => 0 from
    List.mem_singleton_self _) (by rw [listed, parse_nightly]; rfl) 0).2.1

/-- At the epoch: 2:30 is reported as an hour of UTC to a host seven hours ahead, and Saturday the third for
    odd days that are Mondays. -/
theorem runs_misreported :
    (∃ job ∈ parseCronFile (fun _ => []) (nightly ++ " backup".toList) [] [] false (fun _ => 0),
      ¬IsFirst (Starts job.schedule 25200 ∩ Within 0) (job.nextRunAt.map fun c => 60 * c * 1000000000)) ∧
    ∃ job ∈ parseCronFile (fun _ => []) (oddMondays ++ " backup".toList) [] [] false (fun _ => 0),
      ¬IsFirst (Starts job.schedule 0 ∩ Within 0) (job.nextRunAt.map fun c => 60 * c * 1000000000) := by
  have nightlyListed : parseCronFile (fun _ => []) (nightly ++ " backup".toList) [] [] false (fun _ => 0) =
    [listed nightly 0] := rfl
  have oddListed : parseCronFile (fun _ => []) (oddMondays ++ " backup".toList) [] [] false (fun _ => 0) =
    [listed oddMondays 0] := rfl
  rw [nightlyListed, oddListed]
  refine ⟨⟨_, List.mem_singleton_self _, ?_⟩, ⟨_, List.mem_singleton_self _, ?_⟩⟩
  · refine not_isFirst (i := 60 * 150 * 1000000000) parse_nightly
      ⟨⟨_, 150, parse_nightly, by decide +kernel, rfl⟩, ?_⟩ ?_
    · exact within_iff.mpr ⟨by decide, show (150 : Int) ≤ addYears (minuteAfter 0) 1 by decide +kernel⟩
    · rintro j ⟨⟨parsed, c, accepted, ⟨-, -, hour, -⟩, rfl⟩, -⟩ - ⟨e, c', valid, ⟨-, -, due, -⟩, same⟩
      obtain rfl := Option.some.inj (accepted.symm.trans parse_nightly)
      obtain rfl := Option.some.inj (valid.symm.trans entry_nightly)
      have local_ : hourAt c' = 2 := (holds_single 2).mp due
      have utc : hourAt c = 2 := List.mem_singleton.mp hour
      unfold hourAt at local_ utc
      omega
  · refine not_isFirst (i := 60 * 2880 * 1000000000) parse_oddMondays
      ⟨⟨_, 2880, parse_oddMondays, by decide +kernel, rfl⟩, ?_⟩ ?_
    · exact within_iff.mpr ⟨by decide, show (2880 : Int) ≤ addYears (minuteAfter 0) 1 by decide +kernel⟩
    · rintro j ⟨-, after, -⟩ upTo ⟨e, c, valid, ⟨-, day, hour, minute⟩, rfl⟩
      obtain rfl := Option.some.inj (valid.symm.trans entry_oddMondays)
      have atHour : hourAt c = 0 := (holds_single 0).mp hour
      have atMinute : minuteAt c = 0 := (holds_single 0).mp minute
      have monday : weekdayAt c = 1 := by
        rcases day.2 with monday | ⟨-, ⟨r, hr, -, upper, -⟩⟩
        · exact (holds_single 1).mp monday
        · obtain rfl := List.mem_singleton.mp hr
          exact absurd upper (by decide)
      simp only [hourAt, minuteAt, weekdayAt, dayOf, unixDay] at atHour atMinute monday
      omega

end CronRuns
end DatrixOps
