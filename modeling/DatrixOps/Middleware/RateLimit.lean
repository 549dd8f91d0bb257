import DatrixOps.Golang.Rate
import DatrixOps.Machine
import DatrixOps.Postgres.Prog

/-! The rate limiter of the control plane's public routes: a limiter for each address, which is dropped when
    the address has not been seen for some time. A request looks its limiter up under a lock and asks it after
    that, so others and the cleanup may go between. -/

namespace DatrixOps
namespace RateLimit
open Golang Postgres

/-- How long an address is kept that is not seen. -/
def idle : Time := 3 * 60 * 1000000

/-- `visitor`; its limiter is a pointer. -/
structure Visitor where
  limiter : Nat
  lastSeen : Time
  deriving DecidableEq

/-- A request that has looked its limiter up. -/
structure Arrival where
  ip : String
  limiter : Nat
  since : Time
  deriving DecidableEq

/-- A request that has been let through or turned away. -/
structure Decision where
  ip : String
  allowed : Bool
  decidedAt : Time
  deriving DecidableEq

/-- `rateLimiter`, with the limiters made, the requests under way and those decided. -/
structure RateLimiter (σ : Type) where
  now : Time
  ips : String → Option Visitor
  limiters : List σ
  pending : List Arrival
  decided : List Decision

inductive Move where
  | wait (d : Nat)
  | request (ip : String)
  | allow (i : Nat)
  | cleanup
  deriving DecidableEq

section
variable {σ : Type} (rate : Rate σ) (r : ℚ) (b : Nat)

def NewRateLimiter (now : Time) : RateLimiter σ := ⟨now, fun _ => none, [], [], []⟩

/-- getVisitor returns the rate limiter for the given IP address. -/
def getVisitor (l : RateLimiter σ) (ip : String) : RateLimiter σ × Nat :=
  match l.ips ip with
  | none =>
    let limiter := l.limiters.length
    ({ l with
      limiters := l.limiters ++ [rate.newLimiter r b],
      ips := Function.update l.ips ip (some ⟨limiter, l.now⟩) }, limiter)
  | some v => ({ l with ips := Function.update l.ips ip (some { v with lastSeen := l.now }) }, v.limiter)

/-- `l.Allow()` of a request under way -/
def allow (l : RateLimiter σ) (i : Nat) : RateLimiter σ :=
  match l.pending[i]? with
  | some q =>
    match l.limiters[q.limiter]? with
    | some s =>
      let (allowed, s) := rate.allow s l.now
      { l with
        limiters := l.limiters.set q.limiter s
        pending := l.pending.eraseIdx i
        decided := l.decided ++ [⟨q.ip, allowed, l.now⟩] }
    | none => l
  | none => l

/-- What the background goroutine does every minute. -/
def cleanup (l : RateLimiter σ) : RateLimiter σ := 
  { l with ips := fun ip => (l.ips ip).filter fun v => l.now - v.lastSeen ≤ idle }

def step (l : RateLimiter σ) : Move → RateLimiter σ
  | .wait d => { l with now := l.now + d }
  | .request ip =>
    let (l, limiter) := getVisitor rate r b l ip
    { l with pending := l.pending ++ [⟨ip, limiter, l.now⟩] }
  | .allow i => allow rate l i
  | .cleanup => cleanup l

/-- The limiter of a rate and a burst -/
def rateLimiter : Machine (RateLimiter σ) Move := ⟨step rate r b⟩

/-- A request that asks its limiter has looked it up a moment ago. -/
def Prompt (moment : Time) (l : RateLimiter σ) : Move → Prop
  | .allow i => ∀ q ∈ l.pending[i]?, l.now - q.since ≤ moment
  | _ => True

instance (moment : Time) (l : RateLimiter σ) : DecidablePred (Prompt moment l)
  | .allow i => inferInstanceAs (Decidable (∀ q ∈ l.pending[i]?, l.now - q.since ≤ moment))
  | .wait _ | .request _ | .cleanup => inferInstanceAs (Decidable True)

end

/-! ### The limiters of the routes -/

/-- The limiters that the routes make, by rate and burst. -/
inductive Limiter where
  | login | token | enrollment | complete
  deriving DecidableEq

def Limiter.rate : Limiter → ℚ
  | .login | .enrollment => 1
  | .token => 10
  | .complete => 1 / 5

def Limiter.burst : Limiter → Nat
  | .login | .enrollment => 5
  | .token => 20
  | .complete => 3

/-- What the requests of an address were answered, and when. -/
def decisionsOf {σ : Type} (l : RateLimiter σ) (ip : String) : List (Int × Bool) :=
  (l.decided.filter (·.ip = ip)).map fun d => (d.decidedAt, d.allowed)

end RateLimit
end DatrixOps
