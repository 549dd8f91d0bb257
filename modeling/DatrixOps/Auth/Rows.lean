import DatrixOps.Server.Rows
import DatrixOps.Golang.Strings

/-! The tables `users`, `refresh_tokens` and `password_resets`, and what sign-in takes from outside. -/

namespace DatrixOps
namespace Auth
open Postgres

inductive Role where
  | superadmin | admin | operator | viewer | user
  deriving DecidableEq, Repr

/-- A row of `users`. `passwordChanges` counts the updates of the password; no statement reads it. -/
structure User where
  id : Uuid
  username : Option String
  email : String
  passwordHash : String
  role : Role
  passwordChanges : Nat
  deriving DecidableEq, Repr

/-- A row of `refresh_tokens`. `verified` is how often the password had been changed when the sign-in at the head
    of its chain verified it; no statement reads it. -/
structure RefreshToken where
  id : Uuid
  userId : Uuid
  token : String
  expiresAt : Time
  createdAt : Time
  verified : Nat
  deriving DecidableEq, Repr

/-- A row of `password_resets`. -/
structure PasswordReset where
  id : Uuid
  email : String
  tokenHash : String
  expiresAt : Time
  usedAt : Option Time
  createdAt : Time
  deriving DecidableEq, Repr

inductive Row where
  | user (u : User)
  | refreshToken (t : RefreshToken)
  | passwordReset (r : PasswordReset)
  deriving DecidableEq, Repr

def Row.user? : Row → Option User
  | .user u => some u
  | _ => none

def Row.refreshToken? : Row → Option RefreshToken
  | .refreshToken t => some t
  | _ => none

def Row.passwordReset? : Row → Option PasswordReset
  | .passwordReset r => some r
  | _ => none

def users : Table Row User where
  get := Row.user?
  put := .user
  get_put _ := rfl
  put_get r u h := by
    cases r with
    | user _ => cases h; rfl
    | _ => cases h

def refreshTokens : Table Row RefreshToken where
  get := Row.refreshToken?
  put := .refreshToken
  get_put _ := rfl
  put_get r t h := by
    cases r with
    | refreshToken _ => cases h; rfl
    | _ => cases h

def passwordResets : Table Row PasswordReset where
  get := Row.passwordReset?
  put := .passwordReset
  get_put _ := rfl
  put_get r t h := by
    cases r with
    | passwordReset _ => cases h; rfl
    | _ => cases h

@[simp] theorem users_put (u : User) : users.put u = .user u := rfl

@[simp] theorem refreshTokens_put (t : RefreshToken) : refreshTokens.put t = .refreshToken t := rfl

@[simp] theorem passwordResets_put (r : PasswordReset) : passwordResets.put r = .passwordReset r := rfl

/-- What sign-in takes from outside: the hashes of tokens and passwords, the token drawn at random for the row
    stored under a key, and how Go and the database lower-case text. -/
structure Crypto where
  sha256Hex : String → String
  bcrypt : (password salt : String) → String
  bcryptMatches : (hash password : String) → Bool
  secret : Uuid → String
  toLower : Golang.CaseMap
  sqlLower : Golang.CaseMap

namespace Crypto
variable (p : Crypto)

/-- The digest of a token is that of no other, and no token drawn is the digest of one. -/
structure Ideal : Prop where
  injective : Function.Injective p.sha256Hex
  unguessable : ∀ k k', p.secret k ≠ p.sha256Hex (p.secret k')

/-- `LOWER(a) = LOWER(b)` -/
def sameLower (a b : String) : Bool := p.sqlLower.toLower a.toList = p.sqlLower.toLower b.toList

/-- `strings.ToLower(strings.TrimSpace(email))` -/
@[irreducible] def normalizeEmail (email : String) : String :=
  String.ofList (p.toLower.toLower (Golang.trimSpace email.toList))

end Crypto

/-- `strings.TrimSpace` -/
@[irreducible] def trimmed (text : String) : String := String.ofList (Golang.trimSpace text.toList)

/-- The token `row.token` is looked up by: its digest, or the token itself as older releases stored it. -/
def RefreshToken.matches_ (t : RefreshToken) (p : Crypto) (presented : String) : Bool :=
  t.token = p.sha256Hex presented || t.token = presented

end Auth
end DatrixOps
