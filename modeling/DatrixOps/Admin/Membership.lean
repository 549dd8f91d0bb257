import DatrixOps.Postgres.ReadCommitted
import DatrixOps.Auth.Rows

/-! The initial setup and the changes of administrators' membership, command by command for any number of calls at once.
    An advisory lock is a row that is never there: to take it is to lock its key. -/

namespace DatrixOps
namespace Admin
open Postgres Prog Auth

/-- What transactions lock: a row of `users`, the row of `system_settings`, or an advisory lock. -/
inductive Key where
  | user (id : Uuid)
  | settings
  /-- `pg_advisory_xact_lock(48293017)` -/
  | setup
  /-- `pg_advisory_xact_lock(hashtext('datrixops-admin-membership'))` -/
  | membership
  deriving DecidableEq, Repr

/-- The row of `system_settings`. `version` counts its updates, as the row's `xmin` tells versions apart; no statement
    reads it. -/
structure Settings where
  systemName : String
  timezone : String
  publicUrl : String
  registrationEnabled : Bool
  setupCompletedAt : Option Time
  updatedAt : Time
  version : Nat
  deriving DecidableEq, Repr

inductive Row where
  | user (u : User)
  | settings (st : Settings)
  deriving DecidableEq, Repr

def Row.user? : Row → Option User
  | .user u => some u
  | .settings _ => none

def Row.settings? : Row → Option Settings
  | .settings st => some st
  | .user _ => none

def users : Table Row User where
  get := Row.user?
  put := .user
  get_put _ := rfl
  put_get r u h := by
    cases r with
    | user _ => cases h; rfl
    | settings _ => cases h

def settings : Table Row Settings where
  get := Row.settings?
  put := .settings
  get_put _ := rfl
  put_get r st h := by
    cases r with
    | user _ => cases h
    | settings _ => cases h; rfl

@[simp] theorem users_put (u : User) : users.put u = .user u := rfl

@[simp] theorem settings_put (st : Settings) : settings.put st = .settings st := rfl

/-- `role IN ('admin', 'superadmin')` -/
def isAdmin : Role → Bool
  | .admin | .superadmin => true
  | _ => false

inductive Response where
  | configured (userId : Key)
  | done
  | invalidSetupToken
  | validationError (message : String)
  | setupAlreadyCompleted
  | setupConflict
  | internalError
  | errNotFound
  | errLastAdmin
  deriving DecidableEq, Repr

abbrev Handler := Prog Key Row Empty Bool Response

/-- `SELECT pg_advisory_xact_lock(..)` -/
def advisoryLock (k : Key) (next : Handler) : Handler := .access false k some fun _ => next

/-! ### Setup -/

structure CompleteRequest where
  username : String
  email : String
  password : String
  systemName : String
  timezone : String
  publicUrl : String
  deriving DecidableEq, Repr

/-- What the setup takes from its configuration and from outside: its token, which time zones there are, the text of
    the error of a public URL, how Go and the database lower-case text, and the hash of a password. -/
structure Setup where
  setupToken : String
  loadLocation : String → Bool
  validatePublicURL : String → Option String
  toLower : Golang.CaseMap
  sqlLower : Golang.CaseMap
  bcrypt : (password salt : String) → String

def validSetupToken (expected provided : String) : Bool := 32 ≤ expected.utf8ByteSize && provided = expected

/-- `^[a-z][a-z0-9_.-]{2,31}$` -/
def administratorUsernamePattern : List Char → Bool
  | [] => false
  | c :: cs => 'a' ≤ c && c ≤ 'z' && 2 ≤ cs.length && cs.length ≤ 31 &&
      cs.all fun c => ('a' ≤ c && c ≤ 'z') || ('0' ≤ c && c ≤ '9') || c = '_' || c = '.' || c = '-'

/-- What `Complete` makes of a request before it validates it. -/
def cleaned (p : Setup) (req : CompleteRequest) : CompleteRequest :=
  let lowered (text : String) : List Char := p.toLower.toLower (Golang.trimSpace text.toList)
  let trimmed (text : String) : List Char := Golang.trimSpace text.toList
  let username := lowered req.username
  let email := lowered req.email
  { username := String.ofList (if username = [] && email ≠ [] then email.takeWhile (· ≠ '@') else username)
    email := String.ofList email
    password := req.password
    systemName := String.ofList (trimmed req.systemName)
    timezone := String.ofList (trimmed req.timezone)
    publicUrl := String.ofList ((trimmed req.publicUrl).reverse.dropWhile (· = '/')).reverse }

def validateCompleteRequest (p : Setup) (req : CompleteRequest) : Option String :=
  if !administratorUsernamePattern req.username.toList then
    some "Administrator username must contain 3 to 32 lowercase letters, numbers, dots, underscores or hyphens"
  else if req.password.utf8ByteSize < 12 then some "Administrator password must be at least 12 characters"
  else if 72 < req.password.utf8ByteSize then some "Administrator password must not exceed 72 bytes"
  else if req.systemName = "" || 120 < req.systemName.utf8ByteSize then
    some "System name is required and must not exceed 120 characters"
  else if req.timezone = "" then some "Timezone is required"
  else if !p.loadLocation req.timezone then some "Timezone must be a valid IANA timezone"
  else p.validatePublicURL req.publicUrl

/-- The administrator that the setup inserts under a key. -/
def administrator (p : Setup) (req : CompleteRequest) (salt : String) : Key → Option Row
  | .user id => some <| .user
      { id, username := some req.username,
        email := if req.email = "" then req.username ++ "@datrixops.local" else req.email,
        passwordHash := p.bcrypt req.password salt, role := .superadmin, passwordChanges := 0 }
  | _ => none

/-- The unique indexes of `users`, on `LOWER(username)` and `email`. -/
def sameUser (p : Setup) (req : CompleteRequest) (r : Row) : Bool :=
  let lower (text : String) : List Char := p.sqlLower.toLower text.toList
  r.user?.any fun u => u.username.any (fun username => lower username = lower req.username) ||
    u.email = if req.email = "" then req.username ++ "@datrixops.local" else req.email

/-- `UPDATE system_settings SET .. WHERE id = 1` -/
def completed (req : CompleteRequest) (now : Time) (st : Settings) : Settings :=
  { systemName := req.systemName, timezone := req.timezone, publicUrl := req.publicUrl, registrationEnabled := false,
    setupCompletedAt := some now, updatedAt := now, version := st.version + 1 }

/-- The transaction of `Complete` is SERIALIZABLE: its statements read the snapshot taken by the first, which is the
    one that waits for the lock, and to update a row changed since then aborts it. -/
def complete (p : Setup) (providedToken : String) (req : CompleteRequest) (salt : String) : Handler :=
  if !validSetupToken p.setupToken providedToken then .answer .invalidSetupToken
  else
    let req := cleaned p req
    match validateCompleteRequest p req with
    | some message => .answer (.validationError message)
    | none =>
      .start fun now => .scan fun snapshot => advisoryLock .setup <|
        if (users.rows snapshot).length ≠ 0 then .rollback (.answer .setupAlreadyCompleted)
        else .insert (administrator p req salt) (sameUser p req) fun
          | none => .rollback (.answer .internalError)
          | some userId =>
            match (settings.rows snapshot).lookup .settings with
            | none => .commit (.answer (.configured userId))
            | some seen =>
              .access false .settings
                (fun old => if old = some (.settings seen) then some (some (.settings (completed req now seen)))
                  else none) fun
                | none => .rollback (.answer .internalError)
                | some _ => .commit (.answer (.configured userId))

/-! ### Membership -/

/-- `UPDATE users SET role` or `DELETE FROM users`, `change` saying what is left of the user. -/
def writeMember (id : Uuid) (change : User → Option User) : Handler :=
  byKey users (.user id) (fun u => u.id = id) change fun
    | some _ => .commit (.answer .done)
    | none => .rollback (.answer .errNotFound)

/-- The statements that UpdateUserRole and DeleteUser share: `endangers` says of whose role it is checked that another
    administrator remains. -/
def changeMember (id : Uuid) (endangers : Role → Bool) (change : User → Option User) : Handler :=
  .start fun _ => advisoryLock .membership <|
    byKey users (.user id) (fun u => u.id = id) some fun
      | some (some current) =>
        if endangers current.role then
          .scan fun snapshot =>
            if ((users.rows snapshot).filter fun u => isAdmin u.2.role).length ≤ 1 then
              .rollback (.answer .errLastAdmin)
            else writeMember id change
        else writeMember id change
      | _ => .rollback (.answer .errNotFound)

def updateUserRole (id : Uuid) (role : Role) : Handler :=
  changeMember id (fun current => isAdmin current && !isAdmin role) fun u => some { u with role }

def deleteUser (id : Uuid) : Handler := changeMember id isAdmin fun _ => none

/-! ### The system -/

inductive Request where
  | complete (providedToken : String) (req : CompleteRequest) (salt : String)
  | updateUserRole (id : Uuid) (role : Role)
  | deleteUser (id : Uuid)
  deriving DecidableEq

def serve (p : Setup) : Request → Handler
  | .complete providedToken req salt => complete p providedToken req salt
  | .updateUserRole id role => updateUserRole id role
  | .deleteUser id => deleteUser id

end Admin
end DatrixOps
