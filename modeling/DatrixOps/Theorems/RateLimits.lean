import DatrixOps.Middleware.RateLimit

/-! Every address has a token bucket of its own, whatever others ask and whenever the cleanup drops it: a
    bucket that has not been asked for so long is full again, as a new one is. -/

namespace DatrixOps
namespace RateLimits
open Golang Postgres RateLimit

section
variable {σ : Type} {rate : Rate σ} {r : ℚ} {b : Nat} {bucket : TokenBucket rate r b} {moment : Time}
  {l : RateLimiter σ}

/-- The tokens of the limiter that an address is given -/
def level (bucket : TokenBucket rate r b) (l : RateLimiter σ) (ip : String) (t : Time) : ℚ :=
  ((l.ips ip).bind fun v => l.limiters[v.limiter]?).elim (b : ℚ) (bucket.tokens · t)

/-- The limiter that the address would have if none were dropped -/
def own (rate : Rate σ) (r : ℚ) (b : Nat) (l : RateLimiter σ) (ip : String) : σ :=
  rate.after (rate.newLimiter r b) ((decisionsOf l ip).map Prod.fst)

/-- What holds between the visitors and the decisions. -/
structure Kept (bucket : TokenBucket rate r b) (moment : Time) (l : RateLimiter σ) : Prop where
  held : ∀ ip v, l.ips ip = some v → v.lastSeen ≤ l.now ∧ ∃ s, l.limiters[v.limiter]? = some s ∧ bucket.Made s
  apart : ∀ ip ip' v v', l.ips ip = some v → l.ips ip' = some v' → v.limiter = v'.limiter → ip = ip'
  current : ∀ q ∈ l.pending, l.now - q.since ≤ moment → ∃ v, l.ips q.ip = some v ∧ v.limiter = q.limiter ∧
    q.since ≤ v.lastSeen
  rested : ∀ ip v, l.ips ip = some v → ∀ t, l.now ≤ t → (v.lastSeen : ℚ) + moment + b / r * 1000000 ≤ t →
    level bucket l ip t = b
  alone : ∀ ip t, l.now ≤ t → level bucket l ip t = bucket.tokens (own rate r b l ip) t
  answers : ∀ ip, decisionsOf l ip = rate.decided (rate.newLimiter r b) ((decisionsOf l ip).map Prod.fst)
  before : ∀ d ∈ l.decided, d.decidedAt ≤ l.now
  sorted : l.decided.Pairwise fun d d' => d.decidedAt ≤ d'.decidedAt

theorem level_of_visitor {ip : String} {v : Visitor} {s : σ} (known : l.ips ip = some v)
    (there : l.limiters[v.limiter]? = some s) (t : Time) :
    level bucket l ip t = bucket.tokens s t := by
  rw [level, known, Option.bind_some, there, Option.elim_some]

theorem level_of_none {ip : String} (unknown : l.ips ip = none) (t : Time) : level bucket l ip t = b := by
  rw [level, unknown, Option.bind_none, Option.elim_none]

theorem level_congr {l' : RateLimiter σ} {ip : String} (same : (l'.ips ip).bind (fun v => l'.limiters[v.limiter]?) =
    (l.ips ip).bind fun v => l.limiters[v.limiter]?) (t : Time) : level bucket l' ip t = level bucket l ip t := by
  rw [level, level, same]

theorem kept_new (now : Time) : Kept bucket moment (NewRateLimiter now : RateLimiter σ) where
  held _ _ known := by cases known
  apart _ _ _ _ known := by cases known
  current _ mem := absurd mem List.not_mem_nil
  rested _ _ known := by cases known
  alone ip t _ := (level_of_none rfl t).trans (bucket.full t).symm
  answers _ := rfl
  before _ mem := absurd mem List.not_mem_nil
  sorted := List.Pairwise.nil

/-- The times at which an address was answered -/
theorem Kept.times (h : Kept bucket moment l) (ip : String) :
    (∀ t ∈ (decisionsOf l ip).map Prod.fst, t ≤ l.now) ∧ ((decisionsOf l ip).map Prod.fst).Pairwise (· ≤ ·) := by
  rw [decisionsOf, List.map_map]
  refine ⟨fun t mem => ?_, (h.sorted.sublist List.filter_sublist).map _ fun _ _ le => le⟩
  obtain ⟨d, there, rfl⟩ := List.mem_map.mp mem
  exact h.before d (List.mem_of_mem_filter there)

theorem Kept.refills (h : Kept bucket moment l) (positive : 0 < r) (ip : String) :
    Refills r b l.now (level bucket l ip) :=
  (bucket.refills positive (h.times ip).1 (h.times ip).2).congr (h.alone ip)

theorem Kept.wait (h : Kept bucket moment l) (d : Nat) : Kept bucket moment { l with now := l.now + d } := by
  have later : l.now ≤ l.now + d := by linarith [Int.natCast_nonneg d]
  refine ⟨fun ip v known => ?_, h.apart, fun q mem recent => h.current q mem ?_, fun ip v known t le => ?_,
    fun ip t le => ?_, h.answers,
    fun d mem => (h.before d mem).trans later, h.sorted⟩
  · obtain ⟨seen, there⟩ := h.held ip v known
    exact ⟨seen.trans later, there⟩
  · have recent : l.now + d - q.since ≤ moment := recent
    linarith
  · exact h.rested ip v known t (later.trans le)
  · exact h.alone ip t (later.trans le)

theorem cleanup_ips (ip : String) : (cleanup l).ips ip = (l.ips ip).filter fun v => l.now - v.lastSeen ≤ idle := rfl

/-- A visitor that the cleanup drops has all its tokens again. -/
theorem Kept.level_cleanup (h : Kept bucket moment l) (fits : (moment : ℚ) + b / r * 1000000 ≤ idle)
    (ip : String) {t : Time}
    (le : l.now ≤ t) : level bucket (cleanup l) ip t = level bucket l ip t := by
  cases known : l.ips ip with
  | none =>
    have unknown : (cleanup l).ips ip = none := by
      rw [cleanup_ips, known, Option.filter_none]
    rw [level_of_none known, level_of_none unknown]
  | some v =>
    by_cases seen : l.now - v.lastSeen ≤ idle
    · refine level_congr ?_ t
      rw [cleanup_ips, known, Option.filter_some, if_pos (decide_eq_true seen)]
      rfl
    · have unknown : (cleanup l).ips ip = none := by
        rw [cleanup_ips, known, Option.filter_some, if_neg (by simpa using seen)]
      rw [level_of_none unknown, h.rested ip v known t le]
      have passed : v.lastSeen + idle ≤ t := by linarith
      have passed : (v.lastSeen : ℚ) + idle ≤ t := by exact_mod_cast passed
      linarith

theorem Kept.cleanup (h : Kept bucket moment l) (fits : (moment : ℚ) + b / r * 1000000 ≤ idle) (positive : 0 < r) :
    Kept bucket moment (cleanup l) := by
  have known_of {ip : String} {v : Visitor} (known : (RateLimit.cleanup l).ips ip = some v) : l.ips ip = some v :=
    (Option.filter_eq_some_iff.mp known).1
  refine ⟨fun ip v known => h.held ip v (known_of known), fun ip ip' v v' known known' =>
    h.apart ip ip' v v' (known_of known) (known_of known'),
    fun q mem recent => ?_, fun ip v known t le rests => ?_, fun ip t le => ?_, h.answers, h.before, h.sorted⟩
  · obtain ⟨v, known, same, seen⟩ := h.current q mem recent
    refine ⟨v, Option.filter_eq_some_iff.mpr ⟨known, decide_eq_true ?_⟩, same, seen⟩
    have rest : 0 ≤ (b : ℚ) / r * 1000000 := by positivity
    have short : (moment : ℚ) ≤ idle := by linarith
    have short : moment ≤ idle := by exact_mod_cast short
    have recent : l.now - q.since ≤ moment := recent
    linarith
  · rw [h.level_cleanup fits ip le]
    exact h.rested ip v (known_of known) t le rests
  · rw [h.level_cleanup fits ip le]
    exact h.alone ip t le

/-- A request is given the limiter of its address as it is. -/
theorem Kept.level_getVisitor (h : Kept bucket moment l) (asked ip : String) (t : Time) :
    level bucket (getVisitor rate r b l asked).1 ip t = level bucket l ip t := by
  unfold getVisitor
  cases known : l.ips asked with
  | none =>
    by_cases same : ip = asked
    · subst same
      rw [level_of_none known, level_of_visitor (Function.update_self ..) List.getElem?_concat_length, bucket.full]
    · refine level_congr ?_ t
      simp only [Function.update_of_ne same]
      cases other : l.ips ip with
      | none => rfl
      | some v =>
        obtain ⟨-, s, there, -⟩ := h.held ip v other
        rw [Option.bind_some, Option.bind_some, List.getElem?_append_left (List.getElem?_eq_some_iff.mp there).1]
  | some v =>
    refine level_congr ?_ t
    by_cases same : ip = asked
    · subst same
      simp only [Function.update_self, known, Option.bind_some]
    · simp only [Function.update_of_ne same]

/-- The visitor whose limiter a request is given: a new one, or the one there is. -/
theorem getVisitor_spec (rate : Rate σ) (r : ℚ) (b : Nat) (l : RateLimiter σ) (asked : String) :
    (getVisitor rate r b l asked).1.ips = Function.update l.ips asked (some ⟨(getVisitor rate r b l asked).2, l.now⟩) ∧
      ((∃ v, l.ips asked = some v ∧ v.limiter = (getVisitor rate r b l asked).2 ∧
        (getVisitor rate r b l asked).1.limiters = l.limiters) ∨
        l.ips asked = none ∧ (getVisitor rate r b l asked).2 = l.limiters.length ∧
          (getVisitor rate r b l asked).1.limiters = l.limiters ++ [rate.newLimiter r b]) := by
  unfold getVisitor
  cases known : l.ips asked with
  | none => exact ⟨rfl, Or.inr ⟨rfl, rfl, rfl⟩⟩
  | some v => exact ⟨rfl, Or.inl ⟨v, rfl, rfl, rfl⟩⟩

theorem getVisitor_frame (rate : Rate σ) (r : ℚ) (b : Nat) (l : RateLimiter σ) (asked : String) :
    (getVisitor rate r b l asked).1.now = l.now ∧
    (getVisitor rate r b l asked).1.pending = l.pending ∧ (getVisitor rate r b l asked).1.decided = l.decided := by
  unfold getVisitor
  split <;> exact ⟨rfl, rfl, rfl⟩

/-- No other address has the limiter that a request is given. -/
theorem Kept.given (h : Kept bucket moment l) (asked : String) {ip : String} {v : Visitor} (known : l.ips ip = some v)
    (same : v.limiter = (getVisitor rate r b l asked).2) : ip = asked := by
  obtain ⟨v', known', pointer, -⟩ | ⟨-, fresh, -⟩ := (getVisitor_spec rate r b l asked).2
  · exact h.apart ip asked v v' known known' (same.trans pointer.symm)
  · obtain ⟨-, s, there, -⟩ := h.held ip v known
    have bound := (List.getElem?_eq_some_iff.mp there).1
    rw [same, fresh] at bound
    exact absurd bound (Nat.lt_irrefl _)

theorem request_asked (asked : String) :
    (step rate r b l (.request asked)).ips asked = some ⟨(getVisitor rate r b l asked).2, l.now⟩ := by
  refine Eq.trans (congrFun (getVisitor_spec rate r b l asked).1 asked) ?_
  rw [Function.update_self]

theorem request_other {asked ip : String} (other : ip ≠ asked) :
    (step rate r b l (.request asked)).ips ip = l.ips ip := by
  refine Eq.trans (congrFun (getVisitor_spec rate r b l asked).1 ip) ?_
  rw [Function.update_of_ne other]

/-- The visitor of an address after a request -/
theorem request_cases {asked ip : String} {v : Visitor} (known : (step rate r b l (.request asked)).ips ip = some v) :
    ip = asked ∧ v = ⟨(getVisitor rate r b l asked).2, l.now⟩ ∨ ip ≠ asked ∧ l.ips ip = some v := by
  by_cases same : ip = asked
  · rw [same, request_asked] at known
    exact Or.inl ⟨same, (Option.some.inj known).symm⟩
  · rw [request_other same] at known
    exact Or.inr ⟨same, known⟩

theorem request_limiters {asked : String} {n : Nat} {s : σ} (there : l.limiters[n]? = some s) :
    (step rate r b l (.request asked)).limiters[n]? = some s := by
  have there' : (getVisitor rate r b l asked).1.limiters[n]? = some s := by
    obtain ⟨-, -, -, same⟩ | ⟨-, -, same⟩ := (getVisitor_spec rate r b l asked).2
    · rw [same, there]
    · rw [same, List.getElem?_append_left (List.getElem?_eq_some_iff.mp there).1, there]
  exact there'

theorem Kept.held_request (h : Kept bucket moment l) (asked : String) :
    ∃ s, (step rate r b l (.request asked)).limiters[(getVisitor rate r b l asked).2]? = some s ∧ bucket.Made s := by
  obtain ⟨v, known, pointer, -⟩ | ⟨-, fresh, limiters⟩ := (getVisitor_spec rate r b l asked).2
  · obtain ⟨-, s, there, made⟩ := h.held asked v known
    rw [pointer] at there
    exact ⟨s, request_limiters there, made⟩
  · refine ⟨rate.newLimiter r b, ?_, bucket.made_new⟩
    have last : (getVisitor rate r b l asked).1.limiters[(getVisitor rate r b l asked).2]? =
        some (rate.newLimiter r b) := by
      rw [fresh, limiters, List.getElem?_concat_length]
    exact last

/-- A request under way still has the limiter of its address when another asks for one. -/
theorem Kept.current_request (h : Kept bucket moment l) (asked : String) {q : Arrival} (mem : q ∈ l.pending)
    (recent : l.now - q.since ≤ moment) : ∃ v, (step rate r b l (.request asked)).ips q.ip = some v ∧
      v.limiter = q.limiter ∧
      q.since ≤ v.lastSeen := by
  obtain ⟨v, known, pointer, seen⟩ := h.current q mem recent
  by_cases same : q.ip = asked
  · refine ⟨⟨_, l.now⟩, (congrArg _ same).trans (request_asked asked), ?_, seen.trans (h.held q.ip v known).1⟩
    obtain ⟨v', known', pointer', -⟩ | ⟨unknown, -⟩ := (getVisitor_spec rate r b l asked).2
    · rw [same, known'] at known
      simp only
      rw [← pointer', Option.some.inj known, pointer]
    · rw [same, unknown] at known
      cases known
  · exact ⟨v, (request_other same).trans known, pointer, seen⟩

theorem Kept.request (h : Kept bucket moment l) (asked : String) :
    Kept bucket moment (step rate r b l (.request asked)) := by
  obtain ⟨now, pending, decided⟩ := getVisitor_frame rate r b l asked
  have level_same (ip : String) (t : Time) :
      level bucket (step rate r b l (.request asked)) ip t = level bucket l ip t :=
    h.level_getVisitor asked ip t
  have now_same : (step rate r b l (.request asked)).now = l.now := now
  have own_same (ip : String) : decisionsOf (step rate r b l (.request asked)) ip = decisionsOf l ip := by
    rw [decisionsOf, decisionsOf]
    exact congrArg (fun decided => (decided.filter (·.ip = ip)).map fun d => (d.decidedAt, d.allowed)) decided
  refine ⟨fun ip v known => ?_, fun ip ip' v v' known known' same => ?_, fun q mem recent => ?_,
    fun ip v known t le rests => ?_,
    fun ip t le => ?_, fun ip => ?_, ?_, ?_⟩
  · rw [now_same]
    obtain ⟨rfl, rfl⟩ | ⟨-, known⟩ := request_cases known
    · exact ⟨le_rfl, h.held_request ip⟩
    · obtain ⟨seen, s, there, made⟩ := h.held ip v known
      exact ⟨seen, s, request_limiters there, made⟩
  · obtain ⟨rfl, rfl⟩ | ⟨other, old⟩ := request_cases known
    · obtain ⟨rfl, -⟩ | ⟨other, old⟩ := request_cases known'
      · rfl
      · exact absurd (h.given ip old same.symm) other
    · obtain ⟨rfl, rfl⟩ | ⟨-, known'⟩ := request_cases known'
      · exact absurd (h.given ip' old same) other
      · exact h.apart ip ip' v v' old known' same
  · have mem : q ∈ (getVisitor rate r b l asked).1.pending ++
      [⟨asked, (getVisitor rate r b l asked).2, (getVisitor rate r b l asked).1.now⟩] := mem
    rw [pending, now] at mem
    rw [now_same] at recent
    obtain old | new := List.mem_append.mp mem
    · exact h.current_request asked old recent
    · rw [List.mem_singleton.mp new]
      exact ⟨_, request_asked asked, rfl, le_rfl⟩
  · rw [level_same]
    rw [now_same] at le
    obtain ⟨rfl, rfl⟩ | ⟨-, known⟩ := request_cases known
    · obtain ⟨v, known, -⟩ | ⟨unknown, -⟩ := (getVisitor_spec rate r b l ip).2
      · refine h.rested ip v known t le ?_
        have seen : (v.lastSeen : ℚ) ≤ l.now := by exact_mod_cast (h.held ip v known).1
        simp only at rests
        linarith
      · exact level_of_none unknown t
    · exact h.rested ip v known t le rests
  · rw [level_same, own, own_same]
    exact h.alone ip t (now_same ▸ le)
  · rw [own_same]
    exact h.answers ip
  · rw [now_same]
    exact decided ▸ h.before
  · exact decided ▸ h.sorted

/-! ### What a request is answered -/

/-- The request at `i` has asked its limiter. -/
def answered (rate : Rate σ) (l : RateLimiter σ) (i : Nat) (q : Arrival) (s : σ) : RateLimiter σ :=
  { l with
    limiters := l.limiters.set q.limiter (rate.allow s l.now).2
    pending := l.pending.eraseIdx i
    decided := l.decided ++ [⟨q.ip, (rate.allow s l.now).1, l.now⟩] }

theorem allow_cases (rate : Rate σ) (l : RateLimiter σ) (i : Nat) : allow rate l i = l ∨
    ∃ q s, l.pending[i]? = some q ∧ l.limiters[q.limiter]? = some s ∧ allow rate l i = answered rate l i q s := by
  unfold allow
  cases under : l.pending[i]? with
  | none => exact Or.inl rfl
  | some q =>
    simp only
    cases there : l.limiters[q.limiter]? with
    | none => exact Or.inl rfl
    | some s => exact Or.inr ⟨q, s, rfl, there, rfl⟩

theorem decisionsOf_answered (i : Nat) (q : Arrival) (s : σ) (ip : String) : decisionsOf (answered rate l i q s) ip =
    decisionsOf l ip ++ if ip = q.ip then [(l.now, (rate.allow s l.now).1)] else [] := by
  rw [decisionsOf, decisionsOf, answered, List.filter_append, List.map_append]
  by_cases same : ip = q.ip
  · rw [if_pos same, same, List.filter_cons, if_pos (decide_eq_true rfl)]
    rfl
  · have other : ¬decide (q.ip = ip) = true := fun eq => same (of_decide_eq_true eq).symm
    rw [if_neg same, List.filter_cons, if_neg other]
    rfl

section
variable {i : Nat} {q : Arrival} {v : Visitor} {s : σ}

/-- What a limiter that is asked leaves to its address and to the others -/
theorem Kept.level_answered (h : Kept bucket moment l) (known : l.ips q.ip = some v) (pointer : v.limiter = q.limiter)
    (there : l.limiters[q.limiter]? = some s) (made : bucket.Made s) (ip : String) {t : Time} (le : l.now ≤ t) :
    level bucket (answered rate l i q s) ip t = if ip = q.ip then min (b : ℚ) (level bucket l q.ip l.now -
      (if 1 ≤ level bucket l q.ip l.now then 1 else 0) + r * (t - l.now) / 1000000) else level bucket l ip t := by
  have there' : (answered rate l i q s).limiters[v.limiter]? = some (rate.allow s l.now).2 := by
    rw [pointer]
    exact (List.getElem?_set_self' ..).trans (by rw [there]; rfl)
  split
  · rename_i same
    have known' : (answered rate l i q s).ips ip = some v := (congrArg l.ips same).trans known
    rw [level_of_visitor known' there', level_of_visitor known (pointer ▸ there), bucket.takes s _ _ made le,
      bucket.allows s _ made]
    simp only [decide_eq_true_eq]
  · rename_i other
    refine level_congr ?_ t
    have ips : (answered rate l i q s).ips = l.ips := rfl
    rw [ips]
    cases known' : l.ips ip with
    | none => rfl
    | some v' =>
      have apart : q.limiter ≠ v'.limiter := fun same =>
        other (h.apart ip q.ip v' v known' known (same.symm.trans pointer.symm))
      rw [Option.bind_some, Option.bind_some]
      exact List.getElem?_set_ne apart

theorem Kept.answer (h : Kept bucket moment l) (positive : 0 < r) (under : l.pending[i]? = some q)
    (prompt : l.now - q.since ≤ moment)
    (there : l.limiters[q.limiter]? = some s) : Kept bucket moment (answered rate l i q s) := by
  obtain ⟨v, known, pointer, seen⟩ := h.current q (List.mem_of_getElem? under) prompt
  have made : bucket.Made s := by
    obtain ⟨-, s', there', made⟩ := h.held q.ip v known
    rw [pointer, there] at there'
    exact Option.some.inj there' ▸ made
  have allowed : (rate.allow s l.now).1 = (rate.allow (own rate r b l q.ip) l.now).1 := by
    rw [bucket.allows s _ made, ← level_of_visitor known (pointer ▸ there), h.alone q.ip l.now le_rfl]
    exact (bucket.allows _ _ bucket.made_after).symm
  have times_after (ip : String) : (decisionsOf (answered rate l i q s) ip).map Prod.fst =
      (decisionsOf l ip).map Prod.fst ++ if ip = q.ip then [l.now] else [] := by
    rw [decisionsOf_answered, List.map_append]
    split <;> rfl
  refine ⟨fun ip v' known' => ?_, h.apart, fun q' mem recent => h.current q' (List.mem_of_mem_eraseIdx mem) recent,
    fun ip v' known' t le rests => ?_,
    fun ip t le => ?_, fun ip => ?_, fun d mem => ?_, ?_⟩
  · obtain ⟨seen', s', there', made'⟩ := h.held ip v' known'
    refine ⟨seen', ?_⟩
    by_cases same : q.limiter = v'.limiter
    · exact ⟨_, (congrArg _ same.symm).trans ((List.getElem?_set_self' ..).trans (by rw [there]; rfl)),
        bucket.made_allow s _ made⟩
    · exact ⟨s', (List.getElem?_set_ne same).trans there', made'⟩
  · rw [h.level_answered known pointer there made ip le]
    split
    · rename_i same
      have eq : v' = v := Option.some.inj (known'.symm.trans ((congrArg l.ips same).trans known))
      subst eq
      -- The visitor was seen a moment ago at most, and rests since then.
      have recent : l.now ≤ v'.lastSeen + moment := by linarith
      have recent : (l.now : ℚ) ≤ v'.lastSeen + moment := by exact_mod_cast recent
      have back : (b : ℚ) ≤ r * (t - l.now) / 1000000 := refill_full positive (by linarith)
      exact min_eq_left (le_add_of_nonneg_of_le (h.refills positive q.ip).rest back)
    · exact h.rested ip v' known' t le rests
  · rw [h.level_answered known pointer there made ip le, own, times_after]
    split
    · rename_i same
      have le : l.now ≤ t := le
      rw [same, bucket.takes_after _ le, h.alone q.ip l.now le_rfl]
      rfl
    · rw [List.append_nil]
      exact h.alone ip t le
  · rw [times_after, decisionsOf_answered]
    split
    · rename_i same
      rw [decided_append, same, ← h.answers, allowed]
      rfl
    · rw [List.append_nil, List.append_nil]
      exact h.answers ip
  · obtain old | new := List.mem_append.mp mem
    · exact h.before d old
    · rw [List.mem_singleton.mp new]
      exact le_rfl
  · refine List.pairwise_append.mpr ⟨h.sorted, List.pairwise_singleton _ _, fun d mem d' new => ?_⟩
    rw [List.mem_singleton.mp new]
    exact h.before d mem

end

theorem Kept.step (h : Kept bucket moment l) (positive : 0 < r)
    (fits : (moment : ℚ) + b / r * 1000000 ≤ idle) (move : Move)
    (prompt : Prompt moment l move) : Kept bucket moment (RateLimit.step rate r b l move) := by
  cases move with
  | wait d => exact h.wait d
  | request ip => exact h.request ip
  | cleanup => exact h.cleanup fits positive
  | allow i =>
    change Kept bucket moment (RateLimit.allow rate l i)
    obtain same | ⟨q, s, under, there, answer⟩ := allow_cases rate l i
    · rw [same]
      exact h
    · rw [answer]
      exact h.answer positive under (prompt q under) there

end

/-- Every address is answered as by a bucket of its own, so that no more of its requests are let through in
    any time than the bucket holds and than come back. -/
structure Limited {σ : Type} (rate : Rate σ) (r : ℚ) (b : Nat) (l : RateLimiter σ) : Prop where
  alone : ∀ ip, decisionsOf l ip = rate.decided (rate.newLimiter r b) ((decisionsOf l ip).map Prod.fst)
  bounded : ∀ ip from_ to_, from_ ≤ to_ → (passed (decisionsOf l ip) from_ to_ : ℚ) ≤ b + r * (to_ - from_) / 1000000

theorem Kept.limited {σ : Type} {rate : Rate σ} {r : ℚ} {b : Nat} {bucket : TokenBucket rate r b} {moment : Time}
    {l : RateLimiter σ}
    (h : Kept bucket moment l) (positive : 0 < r) : Limited rate r b l := by
  refine ⟨h.answers, fun ip from_ to_ le => ?_⟩
  rw [h.answers ip]
  exact bucket.passed_le positive (h.times ip).2 le

theorem limited {σ : Type} {rate : Rate σ} {r : ℚ} {b : Nat} (bucket : TokenBucket rate r b) (positive : 0 < r)
    {moment : Time}
    (fits : (moment : ℚ) + b / r * 1000000 ≤ idle) {now : Time} {run : List Move}
    (prompt : (rateLimiter rate r b).Each (Prompt moment) (NewRateLimiter now) run) :
    Limited rate r b ((rateLimiter rate r b).exec (NewRateLimiter now) run) :=
  ((Machine.always_of_each (I := Kept bucket moment) (fun _ move h prompt => h.step positive fits move prompt)
    (kept_new now) prompt).last).limited
    positive

/-! ### The routes -/

/-- How long a request of a route may take from its limiter's lookup to its answer. -/
def slack : Time := 165 * 1000000

theorem Limiter.rate_pos (k : Limiter) : 0 < k.rate := by
  cases k <;> norm_num [Limiter.rate]

/-- A bucket of a route is full again before the cleanup drops it. -/
theorem Limiter.fits (k : Limiter) : (slack : ℚ) + k.burst / k.rate * 1000000 ≤ idle := by
  cases k <;> norm_num [Limiter.rate, Limiter.burst, slack, idle]

/-- What the limiters of all routes let through, in every run. -/
theorem routes_limited (k : Limiter) {σ : Type} {rate : Rate σ} (bucket : TokenBucket rate k.rate k.burst) (now : Time)
    (run : List Move)
    (prompt : (rateLimiter rate k.rate k.burst).Each (Prompt slack) (NewRateLimiter now) run) :
    Limited rate k.rate k.burst ((rateLimiter rate k.rate k.burst).exec (NewRateLimiter now) run) :=
  limited bucket (Limiter.rate_pos k) (Limiter.fits k) prompt

/-- Four attempts at once to complete the setup, and one more when the cleanup has dropped the address. -/
def attempts : List Move := [.request "a", .allow 0, .request "a", .request "a", .request "b", .allow 0, .allow 0,
    .request "a", .allow 1,
  .wait 240000000, .cleanup, .request "a", .wait 1, .allow 1]

theorem routes_limited_complete :
    (decisionsOf ((rateLimiter plainRate (Limiter.complete).rate (Limiter.complete).burst).exec
      (NewRateLimiter 0) attempts) "a").map Prod.snd =
      [true, true, true, false, true] ∧
    Limited plainRate (Limiter.complete).rate (Limiter.complete).burst
      ((rateLimiter plainRate (Limiter.complete).rate (Limiter.complete).burst).exec (NewRateLimiter 0) attempts) :=
  ⟨by decide +kernel, routes_limited .complete (plainBucket _ _) 0 attempts (by decide +kernel)⟩

end RateLimits
end DatrixOps
