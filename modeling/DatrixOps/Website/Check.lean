import DatrixOps.Golang.Strings

/-! One check of a website: the probe with its retry, and the row of `websites` that it leaves. Instants are
nanoseconds. -/

namespace DatrixOps
namespace WebsiteCheck
open Golang

abbrev Instant := Int

/-- An instant as a column has it, in whole microseconds. -/
def timestamptz (t : Instant) : Instant := t / 1000 * 1000

theorem timestamptz_timestamptz (t : Instant) : timestamptz (timestamptz t) = timestamptz t := by
  rw [timestamptz, timestamptz, Int.mul_ediv_cancel _ (by decide)]

/-! ### Probes -/

structure Certificate where
  issuer : String
  notAfter : Instant

/-- What comes of a request: none could be made, it failed in a way that classifyWebsiteCheckError names, or
there is a response. -/
inductive Attempt where
  | invalidURL
  | failed (failureKind : String)
  | response (statusCode : Int) (certificate : Option Certificate)

inductive CheckStatus where
  | up | down
  deriving DecidableEq, Repr

def CheckStatus.text : CheckStatus → String
  | .up => "UP"
  | .down => "DOWN"

structure WebsiteProbeResult where
  status : CheckStatus
  failureKind : String
  sslIssuer : Option String
  sslValidTo : Option Instant
  sslDaysRemaining : Option Int
  checkedAt : Instant
  statusCode : Option Int

def day : Int := 24 * 60 * 60 * 1000000000

def probeWebsiteWithClient (attempt : Attempt) (now : Instant) : WebsiteProbeResult :=
  let failing (failureKind : String) : WebsiteProbeResult :=
    { status := .down, failureKind, sslIssuer := none, sslValidTo := none, sslDaysRemaining := none, checkedAt :=
      now, statusCode := none }
  match attempt with
  | .invalidURL => failing "invalid_url"
  | .failed failureKind => failing failureKind
  | .response statusCode certificate =>
    { status := if 400 ≤ statusCode then .down else .up
      failureKind := if 400 ≤ statusCode then "http_status_error" else ""
      sslIssuer := certificate.map (·.issuer)
      sslValidTo := certificate.map (·.notAfter)
      sslDaysRemaining := certificate.map fun c => (c.notAfter - now).tdiv day
      checkedAt := now
      statusCode := some statusCode }

/-- What a check meets: a first attempt, another after three seconds unless its context is done before, and
    the time at which the certificate is looked at. -/
structure Check where
  attempt : Attempt
  startedAt : Instant
  retry : Option (Attempt × Instant)
  now : Instant

/-- The retry counts where it succeeds. -/
def probeWebsite (check : Check) : WebsiteProbeResult :=
  let res := probeWebsiteWithClient check.attempt check.startedAt
  match res.status, check.retry with
  | .down, some (attempt, startedAt) =>
    let retryRes := probeWebsiteWithClient attempt startedAt
    if retryRes.status = .up then retryRes else res
  | _, _ => res

/-- There is a response, and it is no error. -/
def Attempt.succeeds : Attempt → Bool
  | .response statusCode _ => statusCode < 400
  | _ => false

/-- Neither the first attempt nor, if the context leaves time for it, the second one succeeds. -/
def Check.Fails (check : Check) : Prop := check.attempt.succeeds = false ∧
    ∀ retry ∈ check.retry, retry.1.succeeds = false

theorem probeWebsiteWithClient_status (attempt : Attempt) (now : Instant) :
    (probeWebsiteWithClient attempt now).status = if attempt.succeeds then .up else .down := by
  cases attempt with
  | invalidURL => rfl
  | failed failureKind => rfl
  | response statusCode certificate =>
    by_cases error : 400 ≤ statusCode
    · simp [probeWebsiteWithClient, Attempt.succeeds, error, Int.not_lt.mpr error]
    · simp [probeWebsiteWithClient, Attempt.succeeds, error, Int.not_le.mp error]

theorem probeWebsite_down (check : Check) : (probeWebsite check).status = .down ↔ check.Fails := by
  have first := probeWebsiteWithClient_status check.attempt check.startedAt
  unfold probeWebsite Check.Fails
  cases succeeded : check.attempt.succeeds with
  | true =>
    rw [succeeded] at first
    simp [first]
  | false =>
    rw [succeeded] at first
    cases retried : check.retry with
    | none => simp [first]
    | some retry =>
      have second := probeWebsiteWithClient_status retry.1 retry.2
      cases again : retry.1.succeeds <;> simp [first, second, again]

/-! ### The row -/

/-- A row of `websites`, as far as checks go. -/
structure Website where
  status : String
  sslIssuer : Option String
  sslValidTo : Option Instant
  sslDaysRemaining : Option Int
  downStartedAt : Option Instant
  lastSSLAlertAt : Option Instant
  lastCheck : Option Instant

def Website.previousStatus (w : Website) : List Char := (trimSpace w.status.toList).map Char.toUpper

/-- The start of the downtime after a check. -/
def downStartedAt (w : Website) (result : WebsiteProbeResult) : Option Instant :=
  match result.status with
  | .down => if w.previousStatus ≠ "DOWN".toList then some result.checkedAt
    else w.downStartedAt.or (some result.checkedAt)
  | .up => if w.previousStatus = "DOWN".toList then none else w.downStartedAt

def lastSSLAlertAt (w : Website) (result : WebsiteProbeResult) (now : Instant) : Option Instant :=
  match result.sslDaysRemaining with
  | none => w.lastSSLAlertAt
  | some days =>
    if days ≤ 14 then if w.lastSSLAlertAt.all fun at_ => now - at_ ≥ day then some now else w.lastSSLAlertAt else none

/-- The row that UpdateStatus stores. -/
def updateStatus (w : Website) : Website :=
  { w with
    sslValidTo := w.sslValidTo.map timestamptz
    downStartedAt := w.downStartedAt.map timestamptz
    lastSSLAlertAt := w.lastSSLAlertAt.map timestamptz
    lastCheck := w.lastCheck.map timestamptz }

/-- checkWebsite, up to the row that it stores. -/
def checkWebsite (w : Website) (check : Check) : Website :=
  let result := probeWebsite check
  updateStatus
    { status := result.status.text
      sslIssuer := result.sslIssuer
      sslValidTo := result.sslValidTo
      sslDaysRemaining := result.sslDaysRemaining
      downStartedAt := downStartedAt w result
      lastSSLAlertAt := lastSSLAlertAt w result check.now
      lastCheck := some result.checkedAt }

end WebsiteCheck
end DatrixOps
