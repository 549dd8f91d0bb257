import Mathlib.Algebra.Order.Field.Basic
import Mathlib.Data.List.Induction
import Mathlib.Data.Rat.Cast.Order
import Mathlib.Tactic.FieldSimp
import Mathlib.Tactic.GCongr
import Mathlib.Tactic.Linarith
import Mathlib.Tactic.Positivity
import Mathlib.Tactic.Ring

/-! Rate limiters by token buckets. A bucket holds some tokens at most and is full at first; an event that may
    happen takes one, and they come back at a rate. Times are in microseconds, rates by the second. -/

namespace Golang

/-- What is used of `golang.org/x/time/rate`: a new limiter, and whether an event may happen at a time. -/
structure Rate (σ : Type) where
  newLimiter : ℚ → Nat → σ
  allow : σ → Int → Bool × σ

/-- The limiters of a rate and a burst are token buckets: how many tokens one has at a time, if no event
happens before it. -/
structure TokenBucket {σ : Type} (rate : Rate σ) (r : ℚ) (b : Nat) where
  Made : σ → Prop
  tokens : σ → Int → ℚ
  made_new : Made (rate.newLimiter r b)
  made_allow : ∀ s t, Made s → Made (rate.allow s t).2
  full : ∀ t, tokens (rate.newLimiter r b) t = b
  allows : ∀ s t, Made s → (rate.allow s t).1 = decide (1 ≤ tokens s t)
  takes : ∀ s t t', Made s → t ≤ t' →
    tokens (rate.allow s t).2 t' =
      min (b : ℚ) (tokens s t - (if (rate.allow s t).1 then 1 else 0) + r * (t' - t) / 1000000)

/-- What a limiter answers at some times, one after another. -/
def Rate.decided {σ : Type} (rate : Rate σ) : σ → List Int → List (Int × Bool)
  | _, [] => []
  | s, t :: times => (t, (rate.allow s t).1) :: rate.decided (rate.allow s t).2 times

/-- The limiter after these times -/
def Rate.after {σ : Type} (rate : Rate σ) (s : σ) (times : List Int) : σ :=
  times.foldl (fun s t => (rate.allow s t).2) s

/-- How many events of a log happened from one time to another. -/
def passed (log : List (Int × Bool)) (from_ to_ : Int) : Nat :=
  log.countP fun entry => entry.2 && from_ ≤ entry.1 && entry.1 ≤ to_

/-! ### How the tokens come back -/

/-- How many tokens there are from a time on. -/
structure Refills (r : ℚ) (b : Nat) (now : Int) (level : Int → ℚ) : Prop where
  nonneg : ∀ t, now ≤ t → 0 ≤ level t
  le : ∀ t, now ≤ t → level t ≤ b
  grows : ∀ t t', now ≤ t → t ≤ t' → level t' ≤ level t + r * (t' - t) / 1000000

section
variable {r : ℚ} {b : Nat} {now : Int} {level : Int → ℚ}

/-- The tokens that come back in some time -/
theorem refill_nonneg (positive : 0 < r) {t t' : Int} (le : t ≤ t') : 0 ≤ r * ((t' : ℚ) - t) / 1000000 := by
  have elapsed : (0 : ℚ) ≤ (t' : ℚ) - t := sub_nonneg.mpr (by exact_mod_cast le)
  positivity

/-- All tokens come back in time. -/
theorem refill_full (positive : 0 < r) {t t' : Int} (rests : (b : ℚ) / r * 1000000 ≤ t' - t) :
    (b : ℚ) ≤ r * (t' - t) / 1000000 := by
  have whole : (b : ℚ) = r * (b / r * 1000000) / 1000000 := by field_simp
  calc (b : ℚ) = r * (b / r * 1000000) / 1000000 := whole
    _ ≤ r * (t' - t) / 1000000 := by gcongr

theorem Refills.later (h : Refills r b now level) {now' : Int} (le : now ≤ now') : Refills r b now' level :=
  ⟨fun t from_ => h.nonneg t (le.trans from_), fun t from_ => h.le t (le.trans from_),
    fun t t' from_ => h.grows t t' (le.trans from_)⟩

theorem refills_full (positive : 0 < r) : Refills r b now fun _ => b := by
  refine ⟨fun _ _ => Nat.cast_nonneg b, fun _ _ => le_rfl, fun t t' _ le => ?_⟩
  have more := refill_nonneg positive le
  linarith

theorem Refills.rest (h : Refills r b now level) : 0 ≤ level now - (if 1 ≤ level now then 1 else 0) := by
  split
  · rename_i one
    linarith
  · rw [sub_zero]
    exact h.nonneg now le_rfl

/-- After an event at a time, or the refusal of one -/
theorem Refills.take (h : Refills r b now level) (positive : 0 < r) :
    Refills r b now fun t => min (b : ℚ) (level now - (if 1 ≤ level now then 1 else 0) + r * (t - now) / 1000000) := by
  have rest := h.rest
  refine ⟨fun t from_ => ?_, fun t _ => min_le_left _ _, fun t t' from_ le => ?_⟩
  · exact le_min (Nat.cast_nonneg b) (add_nonneg rest (refill_nonneg positive from_))
  · have more := refill_nonneg positive le
    have same : r * ((t' : ℚ) - now) / 1000000 = r * ((t : ℚ) - now) / 1000000 + r * ((t' : ℚ) - t) / 1000000 := by ring
    rw [← min_add_add_right]
    refine min_le_min (by linarith) ?_
    rw [same]
    linarith

theorem Refills.congr {level' : Int → ℚ} (h : Refills r b now level) (same : ∀ t, now ≤ t → level' t = level t) :
    Refills r b now level' := by
  refine ⟨fun t from_ => ?_, fun t from_ => ?_, fun t t' from_ le => ?_⟩
  · rw [same t from_]
    exact h.nonneg t from_
  · rw [same t from_]
    exact h.le t from_
  · rw [same t from_, same t' (from_.trans le)]
    exact h.grows t t' from_ le

end

section
variable {σ : Type} {rate : Rate σ} {s : σ} {times : List Int}

theorem decided_append (t : Int) : rate.decided s (times ++ [t]) =
    rate.decided s times ++ [(t, (rate.allow (rate.after s times) t).1)] := by
  induction times generalizing s with
  | nil => rfl
  | cons t' times ih =>
    rw [List.cons_append, Rate.decided, ih]
    rfl

theorem after_append (t : Int) : rate.after s (times ++ [t]) = (rate.allow (rate.after s times) t).2 :=
  List.foldl_append

theorem mem_decided {entry : Int × Bool} (mem : entry ∈ rate.decided s times) : entry.1 ∈ times := by
  induction times generalizing s with
  | nil => exact absurd mem List.not_mem_nil
  | cons t times ih =>
    cases mem with
    | head => exact List.mem_cons_self
    | tail _ mem => exact List.mem_cons_of_mem _ (ih mem)

end

/-! ### A token bucket by itself -/

namespace TokenBucket
variable {σ : Type} {rate : Rate σ} {r : ℚ} {b : Nat} {times : List Int} {now : Int}

theorem made_after (bucket : TokenBucket rate r b) : bucket.Made (rate.after (rate.newLimiter r b) times) := by
  induction times using List.reverseRecOn with
  | nil => exact bucket.made_new
  | append_singleton times t ih =>
    rw [after_append]
    exact bucket.made_allow _ t ih

/-- One more event: what the limiter answers, and what it leaves. -/
theorem takes_after (bucket : TokenBucket rate r b) (times : List Int) {t t' : Int} (le : t ≤ t') :
    bucket.tokens (rate.after (rate.newLimiter r b) (times ++ [t])) t' =
      min (b : ℚ) (bucket.tokens (rate.after (rate.newLimiter r b) times) t -
        (if 1 ≤ bucket.tokens (rate.after (rate.newLimiter r b) times) t then 1 else 0) + r * (t' - t) / 1000000) := by
  rw [after_append, bucket.takes _ _ _ bucket.made_after le, bucket.allows _ _ bucket.made_after]
  simp only [decide_eq_true_eq]

theorem refills (bucket : TokenBucket rate r b) (positive : 0 < r) (before : ∀ t ∈ times, t ≤ now)
    (sorted : times.Pairwise (· ≤ ·)) :
    Refills r b now (bucket.tokens (rate.after (rate.newLimiter r b) times)) := by
  induction times using List.reverseRecOn generalizing now with
  | nil =>
    have full : bucket.tokens (rate.after (rate.newLimiter r b) []) = fun _ => (b : ℚ) := funext bucket.full
    rw [full]
    exact refills_full positive
  | append_singleton times t ih =>
    obtain ⟨rest, -, last⟩ := List.pairwise_append.mp sorted
    have refills := (ih (fun t' mem => last t' mem t List.mem_cons_self) rest).take positive
    exact (refills.congr fun t' le => bucket.takes_after times le).later
      (before t (List.mem_append_right _ List.mem_cons_self))

/-- What has happened from a time on and what may happen at once -/
theorem passed_add_le (bucket : TokenBucket rate r b) (positive : 0 < r) (before : ∀ t ∈ times, t ≤ now)
    (sorted : times.Pairwise (· ≤ ·))
    {from_ : Int} (le : from_ ≤ now) :
    (passed (rate.decided (rate.newLimiter r b) times) from_ now : ℚ) + bucket.tokens
    (rate.after (rate.newLimiter r b) times) now ≤
      b + r * (now - from_) / 1000000 := by
  induction times using List.reverseRecOn generalizing now with
  | nil =>
    have more := refill_nonneg positive le
    have full : bucket.tokens (rate.after (rate.newLimiter r b) []) now = b := bucket.full now
    rw [full, Rate.decided, passed, List.countP_nil, Nat.cast_zero, zero_add]
    linarith
  | append_singleton times t ih =>
    obtain ⟨rest, -, last⟩ := List.pairwise_append.mp sorted
    have reached := before t (List.mem_append_right _ List.mem_cons_self)
    have earlier : ∀ t' ∈ times, t' ≤ t := fun t' mem => last t' mem t List.mem_cons_self
    have takes := bucket.takes_after times reached
    by_cases inside : from_ ≤ t
    · have before := ih earlier rest inside
      have counted : passed (rate.decided (rate.newLimiter r b) (times ++ [t])) from_ now =
          passed (rate.decided (rate.newLimiter r b) times) from_ t +
            (if 1 ≤ bucket.tokens (rate.after (rate.newLimiter r b) times) t then 1 else 0) := by
        rw [decided_append, passed, List.countP_append, List.countP_singleton, bucket.allows _ _ bucket.made_after]
        congr 1
        · refine List.countP_congr fun entry mem => ?_
          have done := earlier _ (mem_decided mem)
          simp only [Bool.and_eq_true, decide_eq_true_eq, done, done.trans reached]
        · simp only [inside, reached, decide_true, Bool.and_true, decide_eq_true_eq]
      have same : r * ((now : ℚ) - from_) / 1000000 =
        r * ((t : ℚ) - from_) / 1000000 + r * ((now : ℚ) - t) / 1000000 := by ring
      have most := min_le_right (b : ℚ) (bucket.tokens (rate.after (rate.newLimiter r b) times) t -
        (if 1 ≤ bucket.tokens (rate.after (rate.newLimiter r b) times) t then 1 else 0) + r * (now - t) / 1000000)
      rw [← takes] at most
      rw [counted, same]
      push_cast
      linarith
    · have none_ : passed (rate.decided (rate.newLimiter r b) (times ++ [t])) from_ now = 0 := by
        refine List.countP_eq_zero.mpr fun entry mem counts => ?_
        simp only [Bool.and_eq_true, decide_eq_true_eq] at counts
        obtain early | late := List.mem_append.mp (mem_decided mem)
        · exact inside (counts.1.2.trans (earlier _ early))
        · exact inside (counts.1.2.trans (List.mem_singleton.mp late).le)
      have most := min_le_left (b : ℚ) (bucket.tokens (rate.after (rate.newLimiter r b) times) t -
        (if 1 ≤ bucket.tokens (rate.after (rate.newLimiter r b) times) t then 1 else 0) + r * (now - t) / 1000000)
      rw [← takes] at most
      have more := refill_nonneg positive le
      rw [none_, Nat.cast_zero, zero_add]
      linarith

/-- In any time, no more events happen than the bucket holds and than come back. -/
theorem passed_le (bucket : TokenBucket rate r b) (positive : 0 < r) (sorted : times.Pairwise (· ≤ ·)) {from_ to_ : Int}
    (le : from_ ≤ to_) :
    (passed (rate.decided (rate.newLimiter r b) times) from_ to_ : ℚ) ≤ b + r * (to_ - from_) / 1000000 := by
  induction times using List.reverseRecOn with
  | nil =>
    have more := refill_nonneg positive le
    have full : (0 : ℚ) ≤ b := Nat.cast_nonneg b
    rw [Rate.decided, passed, List.countP_nil, Nat.cast_zero]
    linarith
  | append_singleton times t ih =>
    obtain ⟨rest, -, last⟩ := List.pairwise_append.mp sorted
    by_cases inside : t ≤ to_
    · have before : ∀ t' ∈ times ++ [t], t' ≤ to_ := by
        intro t' mem
        obtain early | late := List.mem_append.mp mem
        · exact (last t' early t List.mem_cons_self).trans inside
        · exact (List.mem_singleton.mp late).le.trans inside
      have most := bucket.passed_add_le positive before sorted le
      have some_ := (bucket.refills positive before sorted).nonneg to_ le_rfl
      linarith
    · rw [decided_append, passed, List.countP_append, List.countP_singleton, if_neg, Nat.add_zero]
      · exact ih rest
      · simp only [inside, decide_false, Bool.and_false, Bool.false_eq_true, not_false_eq_true]

end TokenBucket

/-! ### A limiter that counts exactly -/

/-- A limiter with the tokens it had when it was last asked -/
structure PlainLimiter where
  limit : ℚ
  burst : Nat
  tokens : ℚ
  last : Option Int
  deriving DecidableEq

/-- The tokens that there are at a time -/
def PlainLimiter.level (s : PlainLimiter) (t : Int) : ℚ :=
  match s.last with
  | none => s.burst
  | some last => min (s.burst : ℚ) (s.tokens + s.limit * (t - last) / 1000000)

def plainRate : Rate PlainLimiter where
  newLimiter r b := ⟨r, b, b, none⟩
  allow s t := (decide (1 ≤ s.level t),
    { s with tokens := s.level t - (if 1 ≤ s.level t then 1 else 0), last := some t })

def plainBucket (r : ℚ) (b : Nat) : TokenBucket plainRate r b where
  Made s := s.limit = r ∧ s.burst = b
  tokens := PlainLimiter.level
  made_new := ⟨rfl, rfl⟩
  made_allow _ _ made := made
  full _ := rfl
  allows _ _ _ := rfl
  takes s t t' made _ := by
    simp only [plainRate, PlainLimiter.level, made.1, made.2, decide_eq_true_eq]

end Golang
