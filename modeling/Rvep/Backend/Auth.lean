import Rvep.Backend.Api

/-!
# Login, refresh and logout

The handlers of `auth/login`, `auth/refresh` and `auth/logout`. A refresh token
carries the version its user had when it was signed, and every login, refresh
and logout bumps that version. At READ COMMITTED the two statements of the
refresh transaction are separate steps: others may commit between them.
-/

namespace Rvep.Backend

open Interleaving

-- ---------------------------------------------------------------------------
-- Tokens
-- ---------------------------------------------------------------------------

inductive Key | access | refresh
  deriving DecidableEq, Repr

/-- The payload of a token; `iat` and `exp` are in seconds. -/
structure Claims where
  sub : String
  role : Role
  ver : Option Int
  iat : Int
  exp : Int
  deriving DecidableEq, Repr

/-- The third-party functions the handlers call. `jwtVerify` returns the
token's own claims, unless it throws with a message. -/
structure Packages where
  sign : Key → Claims → String
  decode : String → Claims
  reject : Key → Time → String → Option String
  comparePassword : String → String → Bool
  isEmail : String → Bool

variable (pkg : Packages)

def accessTtlSeconds : Int := 60 * 60

def refreshTtlSeconds : Int := 14 * 24 * 3600

def refreshCookie (token : String) : Cookie := { value := token, maxAge := refreshTtlSeconds }

def signAccessToken (userId : String) (role : Role) : Handler (String × Time) := do
  let now := (← Handler.now) / 1000
  let exp := now + accessTtlSeconds
  return (pkg.sign .access { sub := userId, role := role, ver := none, iat := now, exp := exp },
    exp * 1000)

def signRefreshToken (userId : String) (role : Role) (version : Int) : Handler String := do
  let now := (← Handler.now) / 1000
  return pkg.sign .refresh
    { sub := userId, role := role, ver := some version, iat := now, exp := now + refreshTtlSeconds }

def verifyRefreshToken (token : String) : Handler (Except String Claims) := do
  let now ← Handler.now
  return (pkg.reject .refresh now token).elim (.ok (pkg.decode token)) .error

-- ---------------------------------------------------------------------------
-- Refresh
-- ---------------------------------------------------------------------------

def bump : UserUpdate := { refreshTokenVersionIncrement := 1 }

def Claims.version (payload : Claims) : Int := payload.ver.getD (-1)

def refreshInvalid (userId : Option String) (reason : String) : Handler Response := do
  audit
    { eventName := "refresh_token_invalid", vehicleId := none, sessionId := none, userId := userId,
      payload := some [("reason", .text reason)] }
  return fail "refresh_token_invalid" 401

def refreshIssue (user updated : User) : Handler Response := do
  let (accessToken, expiresAt) ← signAccessToken pkg user.id user.role
  let newRefresh ← signRefreshToken pkg user.id user.role updated.refreshTokenVersion
  audit
    { eventName := "token_refreshed", vehicleId := none, sessionId := none, userId := some user.id,
      payload := none }
  return { ok [("accessToken", .text accessToken), ("expiresAt", .instant expiresAt)] with
    refreshCookie := some (refreshCookie newRefresh) }

/-- Step 2 of `refresh`, for a token that was verified. -/
def refreshVerified (payload : Claims) : Handler Response := do
  let some user ← Handler.query (.userFindUnique payload.sub)
    | refreshInvalid (some payload.sub) "user_not_found"
  if payload.version != user.refreshTokenVersion then
    refreshInvalid (some payload.sub) "version_mismatch"
  else
    let updated ← Handler.query (.userUpdate user.id bump)
    refreshIssue pkg user updated

def namesExpiry (message : String) : Bool :=
  message.toLower.toList.tails.any ("expired".toList.isPrefixOf ·)

def refreshOutcome (verified : Except String Claims) : Handler Response :=
  match verified with
  | .ok payload => refreshVerified pkg payload
  | .error message => do
    let code := if namesExpiry message then "refresh_token_expired" else "refresh_token_invalid"
    audit
      { eventName := code, vehicleId := none, sessionId := none, userId := none,
        payload := some [("reason", .text message)] }
    return fail code 401

/-- `cookie` is the value of the refresh token cookie. -/
def refresh (cookie : Option String) : Prog Call Call.Reply Response := Handler.serve do
  match cookie.filter (· != "") with
  | none => refreshInvalid none "missing_cookie"
  | some refreshToken => refreshOutcome pkg (← verifyRefreshToken pkg refreshToken)

-- ---------------------------------------------------------------------------
-- Logout
-- ---------------------------------------------------------------------------

def logoutDone (userId : Option String) : Handler Response := do
  audit
    { eventName := "logout", vehicleId := none, sessionId := none, userId := userId, payload := none }
  return { ok [("ok", .flag true)] with refreshCookie := some { value := "", maxAge := 0 } }

def logout (caller : Caller) : Prog Call Call.Reply Response := Handler.serve do
  match caller with
  | some ctx =>
    let _ ← Handler.query (.userUpdate ctx.userId bump)
    logoutDone (some ctx.userId)
  | none => logoutDone none

-- ---------------------------------------------------------------------------
-- Login
-- ---------------------------------------------------------------------------

def maxFailedAttempts : Int := 5

def lockDurationMs : Int := 15 * 60 * 1000

structure LoginBody where
  email : String
  password : String
  deriving DecidableEq, Repr

def loginSchema (fields : List (String × Json)) : Except (List String) LoginBody :=
  match stringKey "email" (fun s => if pkg.isEmail s then [] else ["Invalid email address"]) fields,
    stringKey "password"
      (fun s => if utf16Length s < 8 then ["Password must be at least 8 characters"] else []) fields with
  | .ok email, .ok password => .ok ⟨email, password⟩
  | .ok _, .error issues => .error issues
  | .error issues, .ok _ => .error issues
  | .error issues₁, .error issues₂ => .error (issues₁ ++ issues₂)

/-- The update `recordLoginFailure` writes, by the clock readings of its
`new Date()` and its `Date.now()`. -/
def loginFailure (user : User) (checkedAt lockedAt : Time) : UserUpdate :=
  let wasLocked := user.lockedUntil.any fun t => decide (t ≤ checkedAt)
  let newFailCount := if wasLocked then 1 else user.failedLoginCount + 1
  let shouldLock := decide (maxFailedAttempts ≤ newFailCount)
  let lockedUntil := if shouldLock then some (lockedAt + lockDurationMs) else none
  { failedLoginCount := some newFailCount
    lockedUntil := if wasLocked then some lockedUntil else if shouldLock then some lockedUntil else none }

def recordLoginFailure (user : User) : Handler Unit := do
  let checkedAt ← Handler.now
  let lockedAt ← Handler.now
  let data := loginFailure user checkedAt lockedAt
  let newFailCount := data.failedLoginCount.getD 0
  let _ ← Handler.query (.userUpdate user.id data)
  if maxFailedAttempts ≤ newFailCount then
    audit
      { eventName := "account_locked", vehicleId := none, sessionId := none, userId := some user.id,
        payload := some [("failedAttempts", .number newFailCount),
          ("lockedUntil", .instant (lockedAt + lockDurationMs))] }
  audit
    { eventName := "login_failed", vehicleId := none, sessionId := none, userId := some user.id,
      payload := some [("failedAttempts", .number newFailCount)] }

/-- Steps 3 to 5 of `login`, for an account that is not locked. -/
def loginUnlocked (body : LoginBody) (user : User) : Handler Response := do
  if !pkg.comparePassword body.password user.passwordHash then
    recordLoginFailure user
    return fail "invalid_credentials" 401
  else
    let updated ← Handler.query (.userUpdate user.id
      { failedLoginCount := some 0, lockedUntil := some none, refreshTokenVersionIncrement := 1 })
    let (accessToken, expiresAt) ← signAccessToken pkg user.id user.role
    let refreshToken ← signRefreshToken pkg user.id user.role updated.refreshTokenVersion
    audit
      { eventName := "login_success", vehicleId := none, sessionId := none, userId := some user.id,
        payload := some [("email", .text body.email)] }
    return { ok [("accessToken", .text accessToken), ("expiresAt", .instant expiresAt),
        ("role", .text user.role.name)] with
      refreshCookie := some (refreshCookie refreshToken) }

def login (body : Option Json) : Prog Call Call.Reply Response := Handler.serve do
  let body ← orThrow (validateBody body (loginSchema pkg))
  let some user ← Handler.query (.userFindByEmail body.email)
    | return fail "invalid_credentials" 401
  let now ← Handler.now
  if user.lockedUntil.any fun t => decide (now < t) then
    audit
      { eventName := "account_locked", vehicleId := none, sessionId := none, userId := some user.id,
        payload := some [("reason", .text "login_attempt_while_locked"), ("email", .text body.email)] }
    return fail "account_locked" 423
  else loginUnlocked pkg body user

end Rvep.Backend
