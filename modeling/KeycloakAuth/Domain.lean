import KeycloakAuth.Async.Program

namespace KeycloakAuth
open Async

/-- The claims of a token, including those that `sign` overwrites. -/
structure TokenPayload where
  sub : String
  email : String
  username : String
  typ : Option String
  iat : Option Nat
  exp : Option Nat
deriving DecidableEq, Repr

/-- A string the services hand around, by the way it is made. SHA-256 and HS256 are ideal, so a digest
keeps its preimage and a compact JWS its key and claims; strings made in different ways differ. -/
inductive Str
  | lit (text : String)
  | random (nonce : Nonce)
  | jwt (secret : String) (payload : TokenPayload)
  | sha256 (preimage : Str)
  /-- `JSON.stringify({ count, updatedAt })`; a NaN count is written as `null`. -/
  | failedAttempts (count : Option Nat) (updatedAt : Nat)
  /-- `toISOString()` of the date that many milliseconds after the epoch. -/
  | isoDate (time : Nat)
deriving DecidableEq, Repr

namespace Str

/-- Whether JavaScript takes the string for true. -/
def truthy (text : Str) : Bool := text ≠ .lit ""

def subject : Str → Option String
  | .jwt _ payload => some payload.sub
  | _ => none

/-- The second at which a token expires. -/
def expires : Str → Option Nat
  | .jwt _ payload => payload.exp
  | _ => none

end Str

/-- `new Date(ms)`: a time value, or none for an invalid date. -/
structure Date where
  time : Option Nat
deriving DecidableEq, Repr

namespace Date

/-- The largest time value of a date, in milliseconds. -/
def maxTime : Nat := 8640000000000000

def ofMs (ms : Nat) : Date := ⟨if ms ≤ maxTime then some ms else none⟩

/-- `date < new Date()` at the clock reading `now`. Nothing is before or after an invalid date. -/
def before (date : Date) (now : Nat) : Bool := date.time.any (· < now)

/-- `toISOString()` throws a `RangeError` on an invalid date. -/
def toISOString (date : Date) : Option Str := date.time.map .isoDate

/-- `new Date(text)`. Only the texts `toISOString` makes are dates. -/
def parse : Str → Date
  | .isoDate time => ofMs time
  | _ => ⟨none⟩

theorem lt_of_before_ofMs {ms now : Nat} (early : (ofMs ms).before now = true) : ms < now := by
  unfold ofMs before at early
  split at early <;> simp_all

end Date

/-- The classes of domain errors. -/
inductive DomainError
  | emailAlreadyExists
  | usernameAlreadyExists
  | invalidCredentials
  | emailNotVerified
  | tokenExpired
  | tokenInvalid
  | userNotFound
  | accountDisabled
  | twoFactorRequired
  | twoFactorInvalid
  | twoFactorAlreadyConfigured
  | rateLimit
  | magicLinkExpired
  | magicLinkAlreadyUsed
  | resetTokenExpired
  | weakPassword
  | tokenReuseDetected
  | accountLocked
  | healthCheckFailed
deriving DecidableEq, Repr

structure KcErrorResponse where
  error : Option String
  errorDescription : Option String
  errorMessage : Option String
deriving DecidableEq, Repr

structure HttpErrorResponse where
  status : Nat
  data : Option KcErrorResponse
deriving DecidableEq, Repr

/-- What a promise may be rejected with. An axios error carries a response unless the server was not
reached. -/
inductive Thrown
  | domain (kind : DomainError) (message : String)
  | error (message : String)
  | rangeError
  | axios (response : Option HttpErrorResponse)
deriving DecidableEq, Repr

structure User where
  id : String
  email : String
  username : String
  emailVerified : Bool
  enabled : Bool
  createdAt : Date
  attributes : Option (List (String × List String))
deriving DecidableEq, Repr

inductive TokenType
  | magicLink
  | resetPassword
  | verifyEmail
  | refreshToken
  | preAuth2FA
deriving DecidableEq, Repr

structure TokenRecord where
  id : Str
  userId : String
  type : TokenType
  token : Str
  expiresAt : Date
  consumedAt : Option Date
  createdAt : Date
deriving DecidableEq, Repr

structure RegisterRequest where
  email : String
  username : String
  password : String
  emailVerified : Option Bool
deriving DecidableEq, Repr

structure AuthenticateResponse where
  accessToken : Str
  refreshToken : Str
  expiresIn : Nat
  user : User
deriving DecidableEq, Repr

structure IssueTokensResponse where
  accessToken : Str
  refreshToken : Str
  expiresIn : Nat
  sub : String
deriving DecidableEq, Repr

structure Setup2FAResponse where
  secret : Str
  qrCodeUrl : String
deriving DecidableEq, Repr

structure RenderedEmail where
  html : String
  text : String
  subject : String
deriving DecidableEq, Repr

end KeycloakAuth
