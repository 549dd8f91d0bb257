import Mathlib.Algebra.Order.BigOperators.Group.List
import DatrixOps.Server.Availability

/-! What the downtime of a server counts. The query sees the metrics of the last 30 days only, so a gap that
    begins before them is not one to it; and a server that was never heard of has no last heartbeat to count
    from. -/

namespace DatrixOps
namespace Downtime
open Postgres Golang Availability

/-! ### Gaps -/

section
variable {α β : Type} {c : Time} {l l' : List Time} {p : Time × Time}

/-- The elements of a list with their successors. -/
def gaps : List α → List (α × α)
  | a :: b :: l => (a, b) :: gaps (b :: l)
  | _ => []

theorem mem_of_mem_gaps {l : List α} {p : α × α} (h : p ∈ gaps l) : p.1 ∈ l ∧ p.2 ∈ l := by
  induction l with
  | nil => cases h
  | cons a l ih =>
    cases l with
    | nil => cases h
    | cons b l =>
      rcases List.mem_cons.mp h with rfl | later
      · simp
      · exact ⟨List.mem_cons_of_mem _ (ih later).1, List.mem_cons_of_mem _ (ih later).2⟩

/-- A row without one before it has no gap. -/
theorem lag_filterMap (f : Time → Time → Option β) :
    (lag l).filterMap (fun (b, prev) => prev.bind (f b)) = (gaps l).filterMap fun (a, b) => f b a := by
  cases l with
  | nil => rfl
  | cons a l =>
    rw [lag, List.zip_cons_cons, List.filterMap_cons_none (by rfl)]
    induction l generalizing a with
    | nil => rfl
    | cons b l ih =>
      rw [List.map_cons, List.zip_cons_cons, List.filterMap_cons, ih b, gaps, List.filterMap_cons]
      rfl

/-- Of a list in ascending order, the gaps from some point on are those that begin from it on. -/
theorem gaps_filter (sorted : l.Pairwise (· ≤ ·)) : gaps (l.filter (c ≤ ·)) = (gaps l).filter (c ≤ ·.1) := by
  induction l with
  | nil => rfl
  | cons a l ih =>
    obtain ⟨le, rest⟩ := List.pairwise_cons.mp sorted
    specialize ih rest
    cases l with
    | nil =>
      by_cases from_ : c ≤ a
      · rw [List.filter_cons_of_pos (by simpa using from_)]
        rfl
      · rw [List.filter_cons_of_neg (by simpa using from_)]
        rfl
    | cons b l =>
      rw [gaps]
      by_cases from_ : c ≤ a
      · have next : c ≤ b := from_.trans (le b List.mem_cons_self)
        rw [List.filter_cons_of_pos (by simpa using next)] at ih
        rw [List.filter_cons_of_pos (by simpa using from_), List.filter_cons_of_pos (by simpa using next), gaps, ih]
        rw [List.filter_cons_of_pos (by simpa using from_)]
      · rw [List.filter_cons_of_neg (by simpa using from_), ih, List.filter_cons_of_neg (by simpa using from_)]

theorem filter_insertionSort (keep : Time → Bool) :
    (l.filter keep).insertionSort (· ≤ ·) = (l.insertionSort (· ≤ ·)).filter keep := by
  have sorted := List.pairwise_insertionSort (· ≤ ·) l
  have perm := ((List.perm_insertionSort (· ≤ ·) l).filter keep).symm
  exact ((List.perm_insertionSort (· ≤ ·) _).trans perm).eq_of_pairwise' (List.pairwise_insertionSort _ _)
    (sorted.filter keep)

theorem sum_map_partition (keep : α → Bool) (f : α → Int) (l : List α) :
    (l.map f).sum = ((l.filter keep).map f).sum + ((l.filter (!keep ·)).map f).sum := by
  rw [← List.sum_append, ← List.map_append]
  exact ((List.filter_append_perm keep l).map f).sum_eq.symm

end

/-! ### What the downtime is meant to be -/

section
variable (srv : Availability.Server) (now : Time) (metrics : List Time)

/-- The start of the window: 30 days ago, or when the server was created. -/
def windowStart : Time := max srv.createdAt (now - days 30)

/-- The consecutive samples. -/
def samplePairs : List (Time × Time) := gaps (metrics.insertionSort (· ≤ ·))

/-- The length of the part of a gap that lies in the window, if it is longer than two minutes. -/
def partInWindow (gap : Time × Time) : Int :=
  if minutes 2 < gap.2 - gap.1 then max 0 (min gap.2 now - max gap.1 (windowStart srv now)) else 0

/-- The time in the window that falls into gaps. -/
def gapsInWindow : Int := ((samplePairs metrics).map (partInWindow srv now)).sum

/-- As `gapsInWindow`, without the gap that straddles the window's start. -/
def gapsFromStart : Int := (((samplePairs metrics).filter (windowStart srv now ≤ ·.1)).map (partInWindow srv now)).sum

/-- The part of the gap since the last heartbeat that lies in the window, of a server that is offline. -/
def ongoing : Int := if isOffline srv now then srv.lastSeenAt.elim 0 fun lastSeen =>
    max 0 (now - max lastSeen (windowStart srv now)) else 0

/-- A duration in seconds, rounded down. -/
def wholeSeconds (d : Int) : Int := d / 1000000

/-- The instant lies in the window. -/
def InWindow (t : Time) : Prop := windowStart srv now ≤ t ∧ t ≤ now

/-- There is neither a sample nor a heartbeat in the window. -/
def Silent : Prop := (∀ t ∈ metrics, ¬InWindow srv now t) ∧ ∀ lastSeen ∈ srv.lastSeenAt, ¬InWindow srv now lastSeen

instance : DecidablePred (InWindow srv now) := fun _ => inferInstanceAs (Decidable (_ ∧ _))

instance : Decidable (Silent srv now metrics) := inferInstanceAs (Decidable (_ ∧ _))

/-- The downtime by the definition of its parts, each in whole seconds. -/
def reference : Int :=
  if Silent srv now metrics then wholeSeconds (now - windowStart srv now)
  else wholeSeconds (gapsInWindow srv now metrics) + wholeSeconds (ongoing srv now)

/-- Metrics and heartbeats are recorded at the time they arrive, for a server there is. -/
structure Recorded : Prop where
  created : srv.createdAt ≤ now
  samples : ∀ t ∈ metrics, srv.createdAt ≤ t ∧ t ≤ now
  heartbeat : ∀ lastSeen ∈ srv.lastSeenAt, srv.createdAt ≤ lastSeen ∧ lastSeen ≤ now

/-- When the downtime is what it is meant to be. -/
structure Counted : Prop where
  /-- The part in the window of a gap that begins before it adds no whole second. -/
  straddling : wholeSeconds (gapsInWindow srv now metrics) = wholeSeconds (gapsFromStart srv now metrics)
  /-- The gaps and the one since the last heartbeat have room in the window. -/
  room : wholeSeconds (gapsInWindow srv now metrics) + wholeSeconds (ongoing srv now) ≤
    wholeSeconds (now - windowStart srv now)
  /-- A server without a heartbeat has a sample in the window, unless it was created within the last second. -/
  heard : srv.lastSeenAt = none → (∃ t ∈ metrics, InWindow srv now t) ∨ wholeSeconds (now - windowStart srv now) = 0

end

/-! ### What the code counts -/

section
variable {srv : Availability.Server} {now : Time} {metrics : List Time} {gap : Time × Time} {d : Int}

theorem wholeSeconds_mono {d' : Int} (h : d ≤ d') : wholeSeconds d ≤ wholeSeconds d' := Int.ediv_le_ediv (by decide) h

theorem wholeSeconds_nonneg (h : 0 ≤ d) : 0 ≤ wholeSeconds d := Int.ediv_nonneg h (by decide)

theorem int64_seconds (h : 0 ≤ d) : int64 (seconds d) = wholeSeconds d := by
  have nonneg : ¬seconds d < 0 := not_lt.mpr (div_nonneg (by exact_mod_cast h) (by norm_num))
  rw [int64, if_neg nonneg, seconds]
  exact Rat.floor_intCast_div_natCast d 1000000

theorem sum_seconds (l : List Int) : (l.map seconds).sum = seconds l.sum := by
  induction l with
  | nil => simp [seconds]
  | cons d l ih =>
    rw [List.map_cons, List.sum_cons, List.sum_cons, ih]
    simp only [seconds, Int.cast_add, add_div]

theorem sum_filterMap {α : Type} (f : α → Option ℚ) (l : List α) :
    (l.filterMap f).sum = (l.map fun a => (f a).getD 0).sum := by
  induction l with
  | nil => rfl
  | cons a l ih =>
    rw [List.map_cons, List.sum_cons, ← ih]
    cases found : f a with
    | none => simp [List.filterMap_cons_none found]
    | some x => simp [List.filterMap_cons_some found]

theorem mem_samplePairs (h : gap ∈ samplePairs metrics) : gap.1 ∈ metrics ∧ gap.2 ∈ metrics := by
  have both := mem_of_mem_gaps h
  exact ⟨(List.mem_insertionSort _).mp both.1, (List.mem_insertionSort _).mp both.2⟩

theorem partInWindow_nonneg : 0 ≤ partInWindow srv now gap := by
  unfold partInWindow
  split
  · exact le_max_left _ _
  · exact le_rfl

theorem gapsFromStart_bounds : 0 ≤ gapsFromStart srv now metrics ∧
    gapsFromStart srv now metrics ≤ gapsInWindow srv now metrics := by
  have nonneg : ∀ l : List (Time × Time), 0 ≤ (l.map (partInWindow srv now)).sum := fun l =>
    List.sum_nonneg fun part hp => by
      obtain ⟨gap, -, rfl⟩ := List.mem_map.mp hp
      exact partInWindow_nonneg
  refine ⟨nonneg _, ?_⟩
  rw [gapsInWindow, sum_map_partition (windowStart srv now ≤ ·.1), gapsFromStart]
  exact le_add_of_nonneg_right (nonneg _)

theorem windowStart_le {t : Time} : windowStart srv now ≤ t ↔ srv.createdAt ≤ t ∧ now - days 30 ≤ t := max_le_iff

theorem ongoingSeconds_of_seen {lastSeen : Time} (seen : srv.lastSeenAt = some lastSeen) (past : lastSeen ≤ now) :
    ongoingSeconds srv now = if isOffline srv now then wholeSeconds (now - lastSeen) else 0 := by
  have elapsed : 0 ≤ now - lastSeen := sub_nonneg.mpr past
  rw [ongoingSeconds, seen]
  change (if isOffline srv now then max 0 (int64 (seconds (now - lastSeen))) else 0) = _
  rw [int64_seconds elapsed, max_eq_right (wholeSeconds_nonneg elapsed)]

theorem windowDuration_eq : windowDuration srv now = now - windowStart srv now := by
  unfold windowDuration windowStart
  split
  · rename_i young
    rw [max_eq_left (by linarith)]
  · rename_i old
    rw [max_eq_right (by linarith), sub_sub_cancel]

namespace Recorded

variable (h : Recorded srv now metrics)
include h

/-- The metrics of the last 30 days are those of the window. -/
theorem recent_iff (member : gap ∈ samplePairs metrics) : now - days 30 ≤ gap.1 ↔ windowStart srv now ≤ gap.1 := by
  have created := (h.samples gap.1 (mem_samplePairs member).1).1
  rw [windowStart_le, and_iff_right created]

theorem partInWindow_of_start (member : gap ∈ samplePairs metrics) (from_ : windowStart srv now ≤ gap.1) :
    partInWindow srv now gap = if minutes 2 < gap.2 - gap.1 then gap.2 - gap.1 else 0 := by
  have before := (h.samples gap.2 (mem_samplePairs member).2).2
  rw [partInWindow, min_eq_left before, max_eq_left from_]
  split
  · rename_i long
    exact max_eq_right (le_trans (by decide) long.le)
  · rfl

/-- The query counts the gaps that begin in the window. -/
theorem downtimeSeconds_eq : downtimeSeconds now metrics = seconds (gapsFromStart srv now metrics) := by
  have kept : (samplePairs metrics).filter (now - days 30 ≤ ·.1) =
      (samplePairs metrics).filter (windowStart srv now ≤ ·.1) :=
    List.filter_congr fun gap member => decide_eq_decide.mpr (h.recent_iff member)
  let long (b a : Time) : Option ℚ := if minutes 2 < b - a then some (seconds (b - a)) else none
  rw [downtimeSeconds, lag_filterMap long, filter_insertionSort, gaps_filter (List.pairwise_insertionSort _ _)]
  rw [← samplePairs, kept, sum_filterMap, gapsFromStart, ← sum_seconds, List.map_map]
  congr 1
  refine List.map_congr_left fun gap member => ?_
  obtain ⟨pair, from_⟩ := List.mem_filter.mp member
  rw [Function.comp_apply, h.partInWindow_of_start pair (by simpa using from_)]
  by_cases gapLong : minutes 2 < gap.2 - gap.1
  · simp [long, gapLong]
  · simp [long, gapLong, seconds]

/-- Without a sample in the window there is no gap in it: all of them end before it. -/
theorem gaps_of_silent (silent : Silent srv now metrics) : gapsInWindow srv now metrics = 0 := by
  refine List.sum_eq_zero fun part hp => ?_
  obtain ⟨gap, member, rfl⟩ := List.mem_map.mp hp
  have sample := (mem_samplePairs member).2
  have before : gap.2 < windowStart srv now := not_le.mp fun from_ =>
    silent.1 gap.2 sample ⟨from_, (h.samples gap.2 sample).2⟩
  have none_ : min gap.2 now - max gap.1 (windowStart srv now) ≤ 0 :=
    sub_nonpos.mpr ((min_le_left _ _).trans (before.le.trans (le_max_right _ _)))
  rw [partInWindow, max_eq_left none_, ite_self]

/-- No gap fits in a window of less than a minute. -/
theorem gaps_of_short (short : wholeSeconds (now - windowStart srv now) < 60) : gapsInWindow srv now metrics = 0 := by
  refine List.sum_eq_zero fun part hp => ?_
  obtain ⟨gap, member, rfl⟩ := List.mem_map.mp hp
  have first := (h.samples gap.1 (mem_samplePairs member).1).1
  have last := (h.samples gap.2 (mem_samplePairs member).2).2
  have window : now - windowStart srv now < minutes 1 := (Int.ediv_lt_iff_lt_mul (by decide)).mp short
  have young : windowStart srv now = srv.createdAt := by
    refine max_eq_left (le_of_not_ge fun old => ?_)
    rw [windowStart, max_eq_right old, sub_sub_cancel] at window
    exact absurd window (by decide)
  have long : minutes 1 ≤ minutes 2 := by decide
  rw [young] at window
  rw [partInWindow, if_neg (by linarith)]

/-- What the code adds for a server that is offline is the part in the window, or more than the window. -/
theorem ongoing_cases : ongoingSeconds srv now = wholeSeconds (ongoing srv now) ∧
      (∀ lastSeen ∈ srv.lastSeenAt, InWindow srv now lastSeen) ∨
    60 ≤ wholeSeconds (now - windowStart srv now) ∧ wholeSeconds (now - windowStart srv now) ≤ ongoingSeconds srv now ∧
      wholeSeconds (ongoing srv now) = wholeSeconds (now - windowStart srv now) ∧ srv.lastSeenAt ≠ none := by
  cases seen : srv.lastSeenAt with
  | none => exact Or.inl ⟨by simp [ongoingSeconds, ongoing, seen, wholeSeconds], by simp⟩
  | some lastSeen =>
    obtain ⟨created, past⟩ := h.heartbeat lastSeen seen
    rw [ongoingSeconds_of_seen seen past, ongoing, seen, Option.elim_some]
    rcases le_or_gt (windowStart srv now) lastSeen with inside | before
    · refine Or.inl ⟨?_, by simpa using ⟨inside, past⟩⟩
      rw [max_eq_left inside, max_eq_right (sub_nonneg.mpr past)]
      split
      · rfl
      · rfl
    · have old : windowStart srv now = now - days 30 := by
        rcases max_choice srv.createdAt (now - days 30) with young | old
        · exact absurd (young ▸ before) (not_lt.mpr created)
        · exact old
      have offline : isOffline srv now = true := by
        have long : minutes 1 ≤ days 30 := by decide
        have late : lastSeen < now - minutes 1 := by linarith
        simp [isOffline, seen, late]
      have window : now - windowStart srv now = days 30 := by rw [old, sub_sub_cancel]
      rw [if_pos offline, if_pos offline, max_eq_right before.le, window]
      exact Or.inr ⟨by decide, wholeSeconds_mono (by linarith), rfl, by simp⟩

end Recorded

theorem Recorded.window_nonneg (h : Recorded srv now metrics) : 0 ≤ now - windowStart srv now :=
  sub_nonneg.mpr (windowStart_le.mpr ⟨h.created, sub_le_self _ (by decide)⟩)

theorem Recorded.ongoing_bounds (h : Recorded srv now metrics) :
    0 ≤ ongoing srv now ∧ ongoing srv now ≤ now - windowStart srv now := by
  unfold ongoing
  split
  · cases srv.lastSeenAt with
    | none => exact ⟨le_rfl, h.window_nonneg⟩
    | some lastSeen => exact ⟨le_max_left _ _, max_le h.window_nonneg (sub_le_sub_left (le_max_right _ _) _)⟩
  · exact ⟨le_rfl, h.window_nonneg⟩

theorem downtime_eq (h : Recorded srv now metrics) :
    (calculateSingleServerAvailability30d srv now (some (downtimeSeconds now metrics))).2 =
      max 0 (min (wholeSeconds (gapsFromStart srv now metrics) + ongoingSeconds srv now)
        (max 60 (wholeSeconds (now - windowStart srv now)))) := by
  rw [calculateSingleServerAvailability30d, windowSeconds, windowDuration_eq, int64_seconds h.window_nonneg,
    Option.getD_some]
  rw [h.downtimeSeconds_eq, int64_seconds gapsFromStart_bounds.1]

/-- The downtime of a server is what it is meant to be when no gap reaches into the window from before it, the
    server was heard of, and the parts of its downtime have room in the window. -/
theorem downtime_exact_iff (h : Recorded srv now metrics) :
    (calculateSingleServerAvailability30d srv now (some (downtimeSeconds now metrics))).2 = reference srv now metrics ↔
      Counted srv now metrics := by
  have fromStart : 0 ≤ wholeSeconds (gapsFromStart srv now metrics) := wholeSeconds_nonneg gapsFromStart_bounds.1
  have le : wholeSeconds (gapsFromStart srv now metrics) ≤ wholeSeconds (gapsInWindow srv now metrics) :=
    wholeSeconds_mono gapsFromStart_bounds.2
  have off := wholeSeconds_nonneg h.ongoing_bounds.1
  have fits := wholeSeconds_mono h.ongoing_bounds.2
  rw [downtime_eq h, reference]
  by_cases silent : Silent srv now metrics
  · have gaps : wholeSeconds (gapsInWindow srv now metrics) = 0 := by rw [h.gaps_of_silent silent]; rfl
    rw [if_pos silent]
    rcases h.ongoing_cases with ⟨same, inside⟩ | ⟨long, more, whole, seen⟩
    · have never : srv.lastSeenAt = none := Option.eq_none_iff_forall_not_mem.mpr fun l hl =>
        silent.2 l hl (inside l hl)
      have none_ : wholeSeconds (ongoing srv now) = 0 := by simp [ongoing, never, wholeSeconds]
      have unheard : Counted srv now metrics ↔ wholeSeconds (now - windowStart srv now) = 0 := by
        refine ⟨fun counted => (counted.heard never).resolve_left fun ⟨t, ht, inside⟩ => silent.1 t ht inside,
          fun short => ?_⟩
        exact ⟨by omega, by omega, fun _ => Or.inr short⟩
      rw [unheard]
      omega
    · have counted : Counted srv now metrics := ⟨by omega, by omega, fun never => absurd never seen⟩
      simp only [counted, iff_true]
      omega
  · have short : wholeSeconds (now - windowStart srv now) < 60 → wholeSeconds (gapsInWindow srv now metrics) = 0 :=
        fun short => by
      rw [h.gaps_of_short short]
      rfl
    have heard : srv.lastSeenAt = none → ∃ t ∈ metrics, InWindow srv now t := fun never => by
      by_contra none_
      refine silent ⟨fun t ht inside => none_ ⟨t, ht, inside⟩, fun l hl => ?_⟩
      rw [never] at hl
      cases hl
    rw [if_neg silent]
    constructor
    · intro exact_
      rcases h.ongoing_cases with ⟨same, -⟩ | ⟨long, more, whole, -⟩
      · exact ⟨by omega, by omega, fun never => Or.inl (heard never)⟩
      · exact ⟨by omega, by omega, fun never => Or.inl (heard never)⟩
    · rintro ⟨straddling, room, -⟩
      rcases h.ongoing_cases with ⟨same, -⟩ | ⟨long, more, whole, -⟩
      · omega
      · omega

end

/-- A server created on the first day, and last heard of on the 40th. -/
def nas : Availability.Server := ⟨"online", 0, some (days 40)⟩

/-- It was silent for five minutes. -/
theorem downtime_exact_five_minutes :
    (calculateSingleServerAvailability30d nas (days 40)
      (some (downtimeSeconds (days 40) [days 40, days 40 - minutes 5]))).2 =
      reference nas (days 40) [days 40, days 40 - minutes 5] :=
  (downtime_exact_iff ⟨by decide, by decide, by decide⟩).mpr ⟨by decide, by decide, fun never => by cases never⟩

/-- A server that was silent throughout the window is fully available, as is one that was never heard of. -/
theorem silence_available :
    calculateSingleServerAvailability30d nas (days 40) (some (downtimeSeconds (days 40) [days 9, days 40])) = (100, 0) ∧
    reference nas (days 40) [days 9, days 40] = 2592000 ∧
    calculateSingleServerAvailability30d ⟨"offline", days 39,
      none⟩ (days 40) (some (downtimeSeconds (days 40) [])) = (100, 0) ∧
    reference ⟨"offline", days 39, none⟩ (days 40) [] = 86400 := by
  decide +kernel

end Downtime
end DatrixOps
