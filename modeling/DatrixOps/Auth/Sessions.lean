import DatrixOps.Postgres.ReadCommitted
import DatrixOps.Auth.Rows

/-! Signing in, refreshing and ending sessions, and changing passwords, command by command for any number of calls
    at once. The foreign keys, which only rule out runs, are left out, and with them the deletion of users. -/

namespace DatrixOps
namespace Auth
open Postgres Prog

/-- What a call returns: a new session, the token of a password reset, success or an error. -/
inductive Response where
  | tokens (refreshToken : String) (userId : Uuid) (role : Role)
  | resetToken (token : String)
  | done
  | refused
  deriving DecidableEq, Repr

abbrev Handler := Prog Uuid Row Empty Bool Response

def day : Time := 24 * hour

/-! ### Users -/

/-- FindUserByIdentifier finds a user by username or email. -/
def findUserByIdentifier (p : Crypto) (identifier : String) (next : Option User → Handler) : Handler :=
  select (fun _ snapshot => ((users.rows snapshot).find? fun u =>
    u.2.username.any (p.sameLower · identifier) || p.sameLower u.2.email identifier).map Prod.snd) next

def findUserByEmail (email : String) (next : Option User → Handler) : Handler :=
  select (fun _ snapshot => ((users.rows snapshot).find? fun u => u.2.email = email).map Prod.snd) next

def findUserByID (id : Uuid) (next : Option User → Handler) : Handler :=
  select (fun _ snapshot => ((users.rows snapshot).find? fun u => u.2.id = id).map Prod.snd) next

/-- `UPDATE users SET password_hash = $1 WHERE id = $2` -/
def setPassword (id : Uuid) (newHash : String) : Update User where
  where_ u := u.id = id
  set u := { u with passwordHash := newHash, passwordChanges := u.passwordChanges + 1 }

/-- CreateUser inserts a new user. -/
def createUser (email passwordHash : String) (role : Role) : Handler :=
  .start fun _ => .insert (fun id => some (.user ⟨id, none, email, passwordHash, role, 0⟩))
    (fun r => r.user?.any fun u => u.email = email) fun
    | some _ => .commit (.answer .done)
    | none => .rollback (.answer .refused)

/-! ### Sessions -/

/-- issueTokens. The refresh token is drawn for its row, so no other row stores its digest. -/
def issueTokens (p : Crypto) (userId : Uuid) (role : Role) (verified : Nat) : Handler :=
  .clock fun now => .start fun createdAt =>
    .insert (fun id => some (.refreshToken
        { id, userId, token := p.sha256Hex (p.secret id), expiresAt := now + 7 * day, createdAt, verified }))
      (fun _ => false) fun
      | some id => .commit (.answer (.tokens (p.secret id) userId role))
      | none => .rollback (.answer .refused)

/-- Login verifies credentials and issues tokens. -/
def login (p : Crypto) (identifier password : String) : Handler :=
  findUserByIdentifier p identifier fun
    | none => .answer .refused
    | some user =>
      if p.bcryptMatches user.passwordHash password then issueTokens p user.id user.role user.passwordChanges
      else .answer .refused

/-- ConsumeRefreshToken atomically enforces one-time refresh-token rotation. -/
def consumeRefreshToken (p : Crypto) (token : String) (next : Option RefreshToken → Handler) : Handler :=
  .start fun now => deleteReturning refreshTokens (fun t => t.matches_ p token && now < t.expiresAt) fun
    | [] => .commit (next none)
    | (_, t) :: _ => .commit (next (some t))

/-- Refresh issues a new access token using a valid refresh token. -/
def refresh (p : Crypto) (token : String) : Handler :=
  consumeRefreshToken p token fun
    | none => .answer .refused
    | some rt => findUserByID rt.userId fun
      | none => .answer .refused
      | some user => issueTokens p rt.userId user.role rt.verified

/-- Logout revokes the given refresh token; an error is ignored. -/
def logout (p : Crypto) (token : String) : Handler :=
  .ask fun fails =>
    if fails then .answer .done
    else .start fun _ => delete refreshTokens (fun t => t.matches_ p token) (.commit (.answer .done))

/-- DeleteExpiredTokens cleanup job. -/
def deleteExpiredTokens : Handler :=
  .start fun now => delete refreshTokens (fun t => t.expiresAt < now) (.commit (.answer .done))

/-! ### Changing passwords -/

/-- ForgotPassword generates a time-limited password reset token. -/
def forgotPassword (p : Crypto) (email : String) : Handler :=
  let email := p.normalizeEmail email
  if email = "" then .answer .done
  else findUserByEmail email fun
    | none => .answer .done
    | some _ => .clock fun now => .start fun createdAt =>
      .insert (fun id => some (.passwordReset
          { id, email := String.ofList (p.sqlLower.toLower email.toList), tokenHash := p.sha256Hex (p.secret id),
            expiresAt := now + hour, usedAt := none, createdAt }))
        (fun _ => false) fun
        | some id => .commit (.answer (.resetToken (p.secret id)))
        | none => .rollback (.answer .refused)

/-- The `WHERE` of the sub-select of ValidateAndConsumePasswordResetToken. -/
def PasswordReset.redeemable (r : PasswordReset) (p : Crypto) (email tokenHash : String) (now : Time) : Bool :=
  p.sameLower r.email email && r.tokenHash = tokenHash && r.usedAt.isNone && now < r.expiresAt

/-- `ORDER BY created_at DESC LIMIT 1` -/
def newest : List (Uuid × PasswordReset) → Option (Uuid × PasswordReset)
  | [] => none
  | r :: rs => match newest rs with
    | some r' => if r'.2.createdAt > r.2.createdAt then some r' else some r
    | none => some r

/-- `UPDATE password_resets SET used_at = NOW() WHERE id = (SELECT id ..)`. The result of the sub-select is kept;
    what is evaluated again on the newest version of the row is `id` alone. -/
def validateAndConsumePasswordResetToken (p : Crypto) (email tokenHash : String) (next : Bool → Handler) : Handler :=
  .start fun now => .scan fun snapshot =>
    match newest (matching passwordResets (·.redeemable p email tokenHash now) snapshot) with
    | none => .commit (next false)
    | some (k, chosen) =>
      visit false none (on passwordResets (fun r => r.id = chosen.id) fun r =>
        some { r with usedAt := some now }) [k] []
        fun found => .commit (next !found.isEmpty)

def revokeAllRefreshTokens (userId : Uuid) (next : Handler) : Handler :=
  delete refreshTokens (fun t => t.userId = userId) next

/-- ResetPassword verifies the token and updates the user's password. An error of the revocation is ignored. -/
def resetPassword (p : Crypto) (email rawToken newPassword salt : String) : Handler :=
  let email := p.normalizeEmail email
  let rawToken := trimmed rawToken
  if newPassword.utf8ByteSize < 8 ∨ 72 < newPassword.utf8ByteSize then .answer .refused
  else validateAndConsumePasswordResetToken p email (p.sha256Hex rawToken) fun valid =>
    if !valid then .answer .refused
    else findUserByEmail email fun
      | none => .answer .refused
      | some user =>
        .start fun _ => update users (fun _ => setPassword user.id (p.bcrypt newPassword salt)) fun _ => .commit <|
          .ask fun fails =>
            if fails then .answer .done
            else .start fun _ => revokeAllRefreshTokens user.id (.commit (.answer .done))

/-- UpdateUserPassword of the administrators' repository. -/
def updateUserPassword (id : Uuid) (passwordHash : String) : Handler :=
  .start fun _ => update users (fun _ => setPassword id passwordHash) fun
    | [] => .rollback (.answer .refused)
    | _ :: _ => revokeAllRefreshTokens id (.commit (.answer .done))

/-! ### The system -/

inductive Request where
  | createUser (email passwordHash : String) (role : Role)
  | login (identifier password : String)
  | refresh (token : String)
  | logout (token : String)
  | deleteExpiredTokens
  | forgotPassword (email : String)
  | resetPassword (email rawToken newPassword salt : String)
  | updateUserPassword (id : Uuid) (passwordHash : String)
  deriving DecidableEq

def serve (p : Crypto) : Request → Handler
  | .createUser email passwordHash role => createUser email passwordHash role
  | .login identifier password => login p identifier password
  | .refresh token => refresh p token
  | .logout token => logout p token
  | .deleteExpiredTokens => deleteExpiredTokens
  | .forgotPassword email => forgotPassword p email
  | .resetPassword email rawToken newPassword salt => resetPassword p email rawToken newPassword salt
  | .updateUserPassword id passwordHash => updateUserPassword id passwordHash

/-! ### Functions and a user to try things on -/

/-- For examples: a digest marks the text, and only ASCII has case. -/
def plainCrypto : Crypto where
  sha256Hex text := "#" ++ text
  bcrypt password _ := password
  bcryptMatches hash password := hash = password
  secret id := "token-" ++ toString id
  toLower := .asciiOnly
  sqlLower := .asciiOnly

theorem plainCrypto_ideal : plainCrypto.Ideal where
  injective a b h := by simpa [plainCrypto, ← String.toList_inj] using h
  unguessable k k' h := by simp [plainCrypto, ← String.toList_inj] at h

def alice : User := ⟨1, some "alice", "alice@example.org", "first password", .operator, 0⟩

end Auth
end DatrixOps
