import Echo.Auth.AccessTokens
import Echo.Lib.Transaction

/-! Password resets: `reset_password` of `routes/auth.rs` over `db/password_reset.rs` and what it
uses of `db/users.rs` and `db/tokens.rs`. -/
namespace Echo.Auth.Reset
open Echo.Lib
open Echo.Server (Uuid)

section Tables

structure ResetTokenRow where
  userId : Uuid
  expiresAt : Nat
  usedAt : Option Nat

structure RefreshTokenRow where
  tokenHash : String
  userId : Uuid
  revoked : Bool

structure Tables where
  passwordHash : Uuid → Option String
  resetTokens : String → Option ResetTokenRow
  refreshTokens : List RefreshTokenRow
  now : Nat

inductive Write where
  | passwordHash (userId : Uuid) (hash : String)
  | usedAt (token : String) (time : Nat)
  | revoked (tokenHash : String)
  deriving DecidableEq

inductive Key where
  | user (userId : Uuid)
  | resetToken (token : String)
  | refreshToken (tokenHash : String)
  deriving DecidableEq

inductive Query where
  | findToken (token : String)
  | updatePassword (userId : Uuid) (passwordHash : String)
  | consumeToken (token : String)
  | revokeAllUserTokens (userId : Uuid)

def Query.Result : Query → Type
  | .findToken _ => Option ResetTokenRow
  | _ => Unit

namespace Tables

def apply (t : Tables) : Write → Tables
  | .passwordHash userId hash => { t with passwordHash := Function.update t.passwordHash userId (some hash) }
  | .usedAt token time =>
    let used := (t.resetTokens token).map fun row => { row with usedAt := some time }
    { t with resetTokens := Function.update t.resetTokens token used }
  | .revoked tokenHash =>
    let revoke (row : RefreshTokenRow) := if row.tokenHash = tokenHash then { row with revoked := true } else row
    { t with refreshTokens := t.refreshTokens.map revoke }

end Tables

def Write.keys : Write → List Key
  | .passwordHash userId _ => [.user userId]
  | .usedAt token _ => [.resetToken token]
  | .revoked tokenHash => [.refreshToken tokenHash]

/-- `NOW()` is read off the clock here; whether `used_at` is set is all that is ever asked. -/
def Query.eval : (q : Query) → Tables → Except Empty (q.Result × List Write)
  | .findToken token, t => .ok (t.resetTokens token, [])
  | .updatePassword userId hash, t =>
    .ok ((), if (t.passwordHash userId).isSome then [.passwordHash userId hash] else [])
  | .consumeToken token, t => .ok ((), if (t.resetTokens token).isSome then [.usedAt token t.now] else [])
  | .revokeAllUserTokens userId, t =>
    let live := t.refreshTokens.filter fun row => row.userId = userId ∧ row.revoked = false
    .ok ((), live.map fun row => .revoked row.tokenHash)

def schema : Schema where
  Tables := Tables
  Write := Write
  apply := Tables.apply
  Key := Key
  decKey := inferInstance
  keys := Write.keys
  Query := Query
  Result := Query.Result
  Refusal := Empty
  eval := Query.eval

end Tables

section Machine

inductive HashFailure where
  | join
  | argon2

structure State where
  store : Store schema
  tokenInvalidator : TokenInvalidator
  /-- What the hash function makes of a password, with the salts to come. -/
  hashes : Nat → String → Except HashFailure String
  /-- Which of the coming database accesses fail. -/
  faults : List Bool

inductive Request where
  | sql (r : Sql schema)
  | now
  | hashPassword (password : String)
  | invalidate (userId : Uuid)
  | clock (nanoseconds : Nat)

def Answer : Request → Type
  | .sql r => r.Answer
  | .now => Nat
  | .hashPassword _ => Except HashFailure String
  | _ => Unit

namespace State

def tables (s : State) : Tables := s.store.tables

def fault (s : State) : Bool := s.faults.headD false

def setTables (s : State) (t : Tables) : State := { s with store := { s.store with tables := t } }

def sqlPerform (s : State) (r : Sql schema) : Option (r.Answer × State) :=
  (s.store.perform s.fault r).map fun (a, store) => (a, { s with store, faults := s.faults.tail })

def perform : (r : Request) → State → Option (Answer r × State)
  | .sql r, s => s.sqlPerform r
  | .now, s => some (s.tables.now, s)
  | .hashPassword password, s => some (s.hashes 0 password, { s with hashes := fun n => s.hashes (n + 1) })
  | .invalidate userId, s =>
    some ((), { s with tokenInvalidator := s.tokenInvalidator.invalidate userId s.tables.now })
  | .clock nanoseconds, s => some ((), s.setTables { s.tables with now := s.tables.now + nanoseconds })

def restart (s : State) : State := { s with store := s.store.restart, tokenInvalidator := .new }

end State

def machine : Machine where
  State := State
  Req := Request
  Ans := Answer
  perform := State.perform
  restart := State.restart

end Machine

section Routes

abbrev Task (α : Type) := Async machine AppError α

def fail {α : Type} (e : AppError) : Task α := Async.throw e

def atOnce (r : Request) : Task (Answer r) := Async.ask (M := machine) r

def ask (r : Request) : Task (Answer r) := do
  let answer ← Async.ask (M := machine) r
  Async.pause
  pure answer

def dbErr {α : Type} (access : Task (Except (Option Empty) α)) : Task α := do
  match ← access with
  | .ok a => pure a
  | .error _ => fail (.internal "Database error")

def query (q : Query) (tx : Option Nat) : Task q.Result := dbErr (ask (.sql (.run tx q)))

def transaction (body : Nat → Task Unit) : Task Unit := do
  let tx ← dbErr (ask (.sql .start))
  (body tx).catching fun e => do
    ask (.sql (.rollback tx))
    fail e
  dbErr (ask (.sql (.commit tx)))

structure ResetPasswordRequest where
  token : String
  newPassword : String

def validatePassword (password : String) : Except AppError Unit :=
  if password.utf8ByteSize < 8 then .error (.badRequest "Password must be at least 8 characters")
  else if 128 < password.utf8ByteSize then .error (.badRequest "Password must be at most 128 characters")
  else .ok ()

def hashPassword (password : String) : Task String := do
  let hashed : Except HashFailure String ← ask (.hashPassword password)
  match hashed with
  | .ok hash => pure hash
  | .error .join => fail (.internal "Password hashing failed")
  | .error .argon2 => fail (.internal "Authentication error")

def applyReset (token : String) (userId : Uuid) (newHash : String) : Task Unit :=
  transaction fun tx => do
    query (.updatePassword userId newHash) (some tx)
    query (.consumeToken token) (some tx)
    query (.revokeAllUserTokens userId) (some tx)

def resetPassword (body : ResetPasswordRequest) : Task Unit := do
  match validatePassword body.newPassword with
  | .error e => fail e
  | .ok () =>
    let found : Option ResetTokenRow ← query (.findToken body.token) none
    match found with
    | none => fail (.badRequest "Invalid or expired reset token")
    | some row =>
      if row.usedAt.isSome then fail (.badRequest "Reset token has already been used")
      else
        let now : Nat ← atOnce .now
        if row.expiresAt < now then fail (.badRequest "Reset token has expired")
        else
          let newHash ← hashPassword body.newPassword
          applyReset body.token row.userId newHash
          atOnce (.invalidate row.userId)

inductive Call where
  | resetPassword (body : ResetPasswordRequest)
  | clock (nanoseconds : Nat)

def Call.program : Call → Task Unit
  | resetPassword body => Reset.resetPassword body
  | clock nanoseconds => atOnce (.clock nanoseconds)

end Routes
end Echo.Auth.Reset
