import DatrixOps.Postgres.ReadCommitted
import DatrixOps.Server.SelfHost

/-! Enrollment of agents: `Enroll`, `EnrollRollback` and the first statements of `Heartbeat`, with the synchronisation
    of the host's own record, command by command for any number of calls at once. -/

namespace DatrixOps
namespace Agent
open Postgres Prog

/-- A row of `servers`: the columns that SyncSelfHost reads and writes, and those of enrollment. -/
structure Server extends SelfHost.Server Unit where
  enrollmentTokenHash : Option String
  enrollmentTokenExpiresAt : Option Time
  enrollmentUsedAt : Option Time
  hostname : Option String
  architecture : Option String
  bootstrapRollbackTokenHash : Option String
  bootstrapRollbackExpiresAt : Option Time
  bootstrapCompletedAt : Option Time
  deletionStatus : DeletionStatus
  deriving DecidableEq, Repr

/-- A row of `servers`, or the random bytes drawn by one `Enroll`: they are drawn as the key of a row of their
    own, which no statement reads, so none are drawn twice. -/
inductive Key where
  | server (id : Uuid)
  | draw (n : Nat)
  deriving DecidableEq, Repr

inductive Row where
  | server (r : Server)
  | draw
  deriving DecidableEq, Repr

def Row.server? : Row → Option Server
  | .server r => some r
  | .draw => none

def servers : Table Row Server where
  get := Row.server?
  put := .server
  get_put _ := rfl
  put_get r s h := by
    cases r with
    | server _ => cases h; rfl
    | draw => cases h

@[simp] theorem servers_put (r : Server) : servers.put r = .server r := rfl

/-- Distinct texts have distinct digests, and distinct bytes make distinct credentials. -/
structure Credentials.Ideal (p : Credentials) : Prop where
  digest : Function.Injective p.sha256Hex
  credential : Function.Injective p.credential

inductive Response where
  | validationError (message : String)
  | enrolled (serverId : Uuid) (agentToken bootstrapRollbackToken : String)
  | invalidEnrollmentToken
  | noContent
  | invalidRollbackToken
  | recorded (serverId : Uuid)
  | unauthorized
  | internalError
  deriving DecidableEq, Repr

/-- What the outside replies: the host the control plane runs on, whether the next statement fails, and which
    of the first rows its `LIMIT 1` takes. -/
structure Outside where
  host : SelfHost.Host
  fails : Bool
  choice : Nat

abbrev Handler := Prog Key Row Empty Outside Response

def trimmed (text : String) : String := String.ofList (Golang.trimSpace text.toList)

/-- `NULLIF(text, '')` -/
def nullIfEmpty (text : String) : Option String := if text = "" then none else some text

/-- `SELECT .. FOR UPDATE` locks the rows it matches and changes nothing. -/
def selectForUpdate (p : Server → Bool) (next : List (Key × Server) → Handler) : Handler :=
  update servers (fun _ => ⟨p, id⟩) next

/-! ### Enroll -/

structure EnrollmentRequest where
  token : String
  hostname : String
  osFamily : String
  osName : String
  architecture : String
  version : String
  deriving DecidableEq, Repr

def EnrollmentRequest.cleaned (p : Credentials) (req : EnrollmentRequest) : EnrollmentRequest where
  token := trimmed req.token
  hostname := trimmed req.hostname
  osFamily := String.ofList (p.toLower.toLower (Golang.trimSpace req.osFamily.toList))
  osName := trimmed req.osName
  architecture := String.ofList (p.toLower.toLower (Golang.trimSpace req.architecture.toList))
  version := trimmed req.version

def EnrollmentRequest.invalid (req : EnrollmentRequest) : Option String :=
  if req.token = "" || 256 < req.token.utf8ByteSize then some "A valid enrollment token is required"
  else if 255 < req.hostname.utf8ByteSize || 40 < req.osFamily.utf8ByteSize || 255 < req.osName.utf8ByteSize ||
      80 < req.architecture.utf8ByteSize || 80 < req.version.utf8ByteSize then
    some "Enrollment metadata is too long"
  else none

/-- The `WHERE` of the `SELECT .. FOR UPDATE` of `Enroll`. -/
def Server.enrollable (r : Server) (enrollmentHash : String) (now : Time) : Bool :=
  r.enrollmentTokenHash = some enrollmentHash && r.enrollmentUsedAt.isNone &&
    r.enrollmentTokenExpiresAt.any (now < ·) && r.deletionStatus = .active

/-- The `SET` of the `UPDATE` of `Enroll`. -/
def Server.activated (r : Server) (p : Credentials) (n : Nat) (req : EnrollmentRequest) (now : Time) : Server :=
  { r with
    agentToken := none
    agentTokenHash := some (p.sha256Hex (p.credential n))
    bootstrapRollbackTokenHash := some (p.sha256Hex (p.rollbackToken n))
    bootstrapRollbackExpiresAt := some (now + 5 * minute)
    bootstrapCompletedAt := none
    enrollmentUsedAt := some now
    enrolledAt := some now
    hostname := nullIfEmpty req.hostname
    architecture := nullIfEmpty req.architecture
    updatedAt := some now }

/-- Enroll exchanges a short-lived, one-time enrollment token for a permanent per-Agent credential. -/
def enroll (p : Credentials) (req : EnrollmentRequest) : Handler :=
  let req := req.cleaned p
  match req.invalid with
  | some message => .answer (.validationError message)
  | none =>
    .start fun now => .insert (fun | .draw _ => some .draw | .server _ => none) (fun _ => false) fun
      | some (.draw n) =>
        selectForUpdate (fun r => r.enrollable (p.sha256Hex req.token) now) fun
          | [] => .rollback (.answer .invalidEnrollmentToken)
          | (k, r) :: _ =>
            byKey servers k (fun r' => r'.id = r.id) (fun r' => some (r'.activated p n req now)) fun _ =>
              .commit (.answer (.enrolled r.id (p.credential n) (p.rollbackToken n)))
      | _ => .rollback (.answer .internalError)

/-! ### EnrollRollback -/

/-- `$2` as the operand of `id = $2`. Its other place, `NULLIF($2, '')`, makes the argument of a prepared
    statement a text, and no operator compares a `uuid` with a text: the statement is rejected. Written into
    the statement, `$2` is a literal that is read as a `uuid`, and the statement is rejected where it is none.
    -/
def Credentials.comparedUuid (p : Credentials) (serverId : String) : Option Uuid :=
  if p.simpleProtocol then p.uuidIn serverId else none

/-- The `WHERE` of the `SELECT .. FOR UPDATE` of `EnrollRollback`, `id` being `$2` as a `uuid`. -/
def Server.releasable (r : Server) (rollbackHash serverId : String) (id : Uuid) (now : Time) : Bool :=
  r.bootstrapRollbackTokenHash = some rollbackHash && r.bootstrapRollbackExpiresAt.any (now < ·) &&
    r.bootstrapCompletedAt.isNone && ((nullIfEmpty serverId).isNone || r.id = id) && r.deletionStatus = .active

/-- The `SET` of the `UPDATE` of `EnrollRollback`. -/
def Server.released (r : Server) (now : Time) : Server :=
  { r with
    agentToken := none
    agentTokenHash := none
    enrollmentUsedAt := none
    enrolledAt := none
    hostname := none
    architecture := none
    bootstrapRollbackTokenHash := none
    bootstrapRollbackExpiresAt := none
    updatedAt := some now }

/-- EnrollRollback invalidates a freshly enrolled Agent credential and reactivates the original enrollment token. -/
def enrollRollback (p : Credentials) (rollbackToken serverId : String) : Handler :=
  let rollbackToken := trimmed rollbackToken
  let serverId := trimmed serverId
  if rollbackToken = "" || 256 < rollbackToken.utf8ByteSize then
    .answer (.validationError "A valid rollback token is required")
  else if 256 < serverId.utf8ByteSize then .answer (.validationError "server_id is too long")
  else
    .start fun now => match p.comparedUuid serverId with
      | none => .rollback (.answer .invalidRollbackToken)
      | some id => selectForUpdate (fun r => r.releasable (p.sha256Hex rollbackToken) serverId id now) fun
        | [] => .rollback (.answer .invalidRollbackToken)
        | (k, r) :: _ =>
          byKey servers k (fun r' => r'.id = r.id) (fun r' => some (r'.released now)) fun _ =>
            .commit (.answer .noContent)

/-! ### Heartbeat -/

/-- The `SET` of the `UPDATE` of `Heartbeat`. -/
def Server.seen (r : Server) (now : Time) : Server :=
  { r with
    status := some "online"
    bootstrapCompletedAt := some (r.bootstrapCompletedAt.getD now)
    bootstrapRollbackTokenHash := none
    bootstrapRollbackExpiresAt := none
    lastSeenAt := some now
    updatedAt := some now }

/-- The `UPDATE` that finds the server of a heartbeat. -/
def recordHeartbeat (p : Credentials) (agentToken : String) (next : Option Server → Handler) : Handler :=
  .start fun now => update servers (fun _ => ⟨fun r => r.accepts p agentToken, fun r => r.seen now⟩) fun found =>
    .commit (next (found.head?.map Prod.snd))

/-- The row that SyncSelfHost inserts. -/
def controlPlane (userId : Uuid) (tokenHash : String) (now : Time) : Key → Option Row
  | .server id => some <| .server
      { SelfHost.controlPlane id () now userId tokenHash with
        enrollmentTokenHash := none, enrollmentTokenExpiresAt := none, enrollmentUsedAt := none, hostname := none,
        architecture := none, bootstrapRollbackTokenHash := none, bootstrapRollbackExpiresAt := none,
        bootstrapCompletedAt := none, deletionStatus := .active }
  | .draw _ => none

/-- The `SET` of the `UPDATE` of SyncSelfHost. -/
def Server.adopted (r : Server) (userId : Uuid) (tokenHash : String) (now : Time) : Server :=
  { r with toServer := r.toServer.adopted userId tokenHash now }

/-- The `SELECT` of SyncSelfHost. One that fails is taken for one that finds no record. -/
def findSelfHost (p : Credentials) (tokenHash : String) (next : Option (SelfHost.Server Unit) → Handler) : Handler :=
  .ask fun o =>
    if o.fails then next none
    else select (fun _ snapshot =>
      let found := SelfHost.first p tokenHash ((servers.rows snapshot).map (·.2.toServer))
      found[o.choice % found.length]?) next

/-- SyncSelfHost ensures that the server record in the database matches the credentials configured in
    /etc/datrixops/self-monitor.env. Its caller ignores its errors. -/
def syncSelfHost (p : Credentials) (next : Handler) : Handler :=
  .ask fun o => match o.host.readSelfMonitorToken, o.host.firstUser with
    | some rawToken, some userId =>
      let tokenHash := p.sha256Hex rawToken
      findSelfHost p tokenHash fun found => .ask fun o =>
        if o.fails then next
        else match found with
          | none => .start fun now => .insert (controlPlane userId tokenHash now)
              (fun row => row.server?.any fun r => r.agentTokenHash = some tokenHash) fun
                | some _ => .commit next
                | none => .rollback next
          | some existing => .start fun now => byKey servers (.server existing.id) (fun r => r.id = existing.id)
              (fun r => some (r.adopted userId tokenHash now)) fun _ => .commit <| .ask fun o =>
                if o.fails then next
                else .start fun _ =>
                  delete servers (fun r => r.id ≠ existing.id && r.selfHost p && r.status = some "offline")
                    (.commit next)
    | _, _ => next

/-- What Heartbeat does before it turns to the server's tasks. -/
def heartbeat (p : Credentials) (agentToken : String) : Handler :=
  recordHeartbeat p agentToken fun
    | some r => .answer (.recorded r.id)
    | none => .ask fun o =>
      if o.host.checkSelfMonitorToken agentToken then
        syncSelfHost p <| recordHeartbeat p agentToken fun
          | some r => .answer (.recorded r.id)
          | none => .answer .unauthorized
      else .answer .unauthorized

/-! ### The system -/

inductive Request where
  | enroll (req : EnrollmentRequest)
  | enrollRollback (rollbackToken serverId : String)
  | heartbeat (agentToken : String)
  deriving DecidableEq

def serve (p : Credentials) : Request → Handler
  | .enroll req => enroll p req
  | .enrollRollback rollbackToken serverId => enrollRollback p rollbackToken serverId
  | .heartbeat agentToken => heartbeat p agentToken

end Agent
end DatrixOps
