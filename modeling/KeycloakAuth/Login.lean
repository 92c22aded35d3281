import Mathlib.Algebra.Group.Nat.Defs
import KeycloakAuth.Ports

namespace KeycloakAuth
open Async Service

/-- The characters matched by `\s` and removed by `trim`. -/
def isWhitespace (c : Char) : Bool :=
  (9 ≤ c.val ∧ c.val ≤ 13) ∨ c.val = 0x20 ∨ c.val = 0xA0 ∨ c.val = 0x1680 ∨
    (0x2000 ≤ c.val ∧ c.val ≤ 0x200A) ∨ c.val = 0x2028 ∨ c.val = 0x2029 ∨ c.val = 0x202F ∨
    c.val = 0x205F ∨ c.val = 0x3000 ∨ c.val = 0xFEFF

def trim (text : String) : String :=
  String.ofList (((text.toList.dropWhile isWhitespace).reverse.dropWhile isWhitespace).reverse)

/-- `text.trim().toLowerCase()`. -/
def normalize (platform : Platform) (text : String) : String := platform.toLowerCase (trim text)

/-- The values a counter can take on its way through `JSON.parse` and `+ 1`. -/
inductive JsValue
  | number (value : Nat)
  | nan
  | null
  | undefined
deriving DecidableEq, Repr

namespace JsValue

/-- In doubles, for the values that counting from zero gets to: it gets no further than 2⁵³. -/
def plusOne : JsValue → JsValue
  | .number value => .number (if value < 2 ^ 53 then value + 1 else value)
  | .null => .number 1
  | _ => .nan

def atLeast : JsValue → Nat → Bool
  | .number value, bound => bound ≤ value
  | .null, bound => bound = 0
  | _, _ => false

theorem plusOne_number {value : Nat} (small : value < 2 ^ 53) : plusOne (.number value) = .number (value + 1) := by
  rw [plusOne, if_pos small]

/-- The member written by `JSON.stringify`, where NaN becomes `null`. -/
def stringify : JsValue → Option Nat
  | .number value => some value
  | _ => none

end JsValue

/-- What `JSON.parse` makes of a counter entry. -/
inductive ParsedAttempts
  | attempts (count : JsValue) (updatedAt : Nat)
  | numeral
  | syntaxError
deriving DecidableEq, Repr

/-- A literal entry is a plain decimal numeral or no JSON at all. -/
def parseAttempts : Str → ParsedAttempts
  | .failedAttempts count updatedAt => .attempts (count.elim .null .number) updatedAt
  | .lit text => if text.toNat?.any (fun value => toString value = text) then .numeral else .syntaxError
  | _ => .syntaxError

/-- `Number(raw)` where it is finite, as far as decimal digits go. No use case writes such an entry. -/
def legacyNumber : Str → Option Nat
  | .lit text => if text.toList.all Char.isDigit then text.toNat? else none
  | _ => none

structure LoginUseCase where
  maxFailedAttempts : Nat := 5
  lockoutDurationMs : Nat := 15 * 60 * 1000
  refreshTokenTtlMs : Nat := 7 * 24 * 60 * 60 * 1000
  preAuthTokenTtlMs : Nat := 5 * 60 * 1000
deriving DecidableEq, Repr

structure PublicUser where
  id : String
  email : String
  username : String
deriving DecidableEq, Repr

structure SessionResponse where
  accessToken : Str
  refreshToken : Str
  expiresIn : Nat
deriving DecidableEq, Repr

inductive LoginResult
  | success (tokens : SessionResponse) (user : PublicUser)
  | twoFactorRequired (preAuthToken : Str) (expiresIn : Nat)
deriving DecidableEq, Repr

namespace LoginUseCase

def failedKey (email : String) : String := "login_failed:" ++ email

def lockKey (email : String) : String := "login_locked:" ++ email

/-- The failures a counter entry stands for at the clock reading `now`. -/
def attemptsIn (self : LoginUseCase) (entry : Option Str) (now : Nat) : JsValue :=
  match entry.filter Str.truthy with
  | none => .number 0
  | some raw =>
    match parseAttempts raw with
    -- stale counters expire after the lockout window
    | .attempts count updatedAt => if now - updatedAt > self.lockoutDurationMs then .number 0 else count
    | .numeral => .undefined
    | .syntaxError => .number ((legacyNumber raw).getD 0)

def readFailedAttempts (self : LoginUseCase) (failedKey : String) : Service JsValue := do
  let raw : Option Str ← tokenStore (.getUserData "system" failedKey)
  return self.attemptsIn raw (← Program.now)

def recordFailedAttempt (self : LoginUseCase) (failedKey lockKey : String) : Service Unit := do
  let attempts := (← self.readFailedAttempts failedKey).plusOne
  let updatedAt ← Program.now
  let _ ← tokenStore (.saveUserData "system" failedKey (.failedAttempts attempts.stringify updatedAt))
  if attempts.atLeast self.maxFailedAttempts then
    match (← dateIn self.lockoutDurationMs).toISOString with
    | none => throw .rangeError
    | some lockedUntil => tokenStore (.saveUserData "system" lockKey lockedUntil)
  else return ()

/-- `Date.now() < new Date(lockedUntilStr).getTime()`. -/
def lockedAt (lockedUntil : Str) (now : Nat) : Bool := (Date.parse lockedUntil).time.any (now < ·)

/-- The part of `execute` before the password is checked. -/
def checkLock (failedKey lockKey : String) : Service Unit := do
  let lockedUntilStr : Option Str ← tokenStore (.getUserData "system" lockKey)
  match lockedUntilStr.filter Str.truthy with
  | none => return ()
  | some text =>
    let now ← Program.now
    if lockedAt text now then
      throw (.domain .accountLocked "Account is temporarily locked due to too many failed attempts")
    else
      let _ ← tokenStore (.deleteUserData "system" lockKey)
      tokenStore (.deleteUserData "system" failedKey)

/-- The password check, with the bookkeeping of a rejected one. -/
def authenticate (self : LoginUseCase) (email password : String) : Service AuthenticateResponse := do
  try authProvider (.authenticate email password) catch err =>
    match err with
    | .domain .invalidCredentials _ => self.recordFailedAttempt (failedKey email) (lockKey email)
    | _ => pure ()
    throw err

/-- The part of `execute` after a password was accepted. -/
def issue (self : LoginUseCase) (email : String) (result : AuthenticateResponse) : Service LoginResult := do
  let _ ← tokenStore (.deleteUserData "system" (failedKey email))
  let _ ← tokenStore (.deleteUserData "system" (lockKey email))
  let totpSecret : Option Str ← tokenStore (.getUserData result.user.id "totpSecret")
  if totpSecret.any Str.truthy then
    let preAuthToken ← randomHex
    saveRecord result.user.id .preAuth2FA preAuthToken self.preAuthTokenTtlMs
    return .twoFactorRequired preAuthToken (self.preAuthTokenTtlMs / 1000)
  else
    saveRecord result.user.id .refreshToken result.refreshToken self.refreshTokenTtlMs
    return .success ⟨result.accessToken, result.refreshToken, result.expiresIn⟩
      ⟨result.user.id, result.user.email, result.user.username⟩

def execute (self : LoginUseCase) (platform : Platform) (dtoEmail password : String) :
    Service LoginResult := do
  let email := normalize platform dtoEmail
  checkLock (failedKey email) (lockKey email)
  let result ← self.authenticate email password
  self.issue email result

end LoginUseCase

end KeycloakAuth
