import KeycloakAuth.Domain

namespace KeycloakAuth
open Async

/-- One half of the JWT configuration; `expiresIn` is in seconds, as `parseDurationSeconds` reads it. -/
structure TokenConfig where
  secret : String
  expiresIn : Nat
deriving DecidableEq, Repr

structure JwtConfig where
  accessToken : TokenConfig
  refreshToken : TokenConfig
deriving DecidableEq, Repr

/-- The two values of the `typ` claim. -/
inductive TokenUse
  | access
  | refresh
deriving DecidableEq, Repr

def TokenUse.claim : TokenUse → String
  | .access => "access"
  | .refresh => "refresh"

inductive JwtVerification
  | valid (payload : TokenPayload)
  | expired
  | invalid

/-- The signature check of `jwtVerify`, then its check of `exp` against the current second. -/
def jwtVerify (token : Str) (secret : String) (now : Nat) : JwtVerification :=
  match token with
  | .jwt key payload =>
    if key ≠ secret then .invalid else
    match payload.exp with
    | some exp => if exp ≤ now / 1000 then .expired else .valid payload
    | none => .valid payload
  | _ => .invalid

namespace JwtTokenService
variable {Call : Type} {Ans : Call → Type}

/-- The claims `sign` puts into a token at the clock reading `now`. -/
def claims (payload : TokenPayload) (type : TokenUse) (expiresIn now : Nat) : TokenPayload :=
  { payload with typ := some type.claim, iat := some (now / 1000), exp := some (now / 1000 + expiresIn) }

def sign (payload : TokenPayload) (type : TokenUse) (secret : String) (expiresIn : Nat) :
    Program Ans Thrown Str := do
  let now ← Program.now
  return .jwt secret (claims payload type expiresIn now)

def verify (token : Str) (type : TokenUse) (secret expiredMessage invalidMessage : String) :
    Program Ans Thrown TokenPayload := do
  match jwtVerify token secret (← Program.now) with
  | .expired => throw (.domain .tokenExpired expiredMessage)
  | .invalid => throw (.domain .tokenInvalid invalidMessage)
  | .valid payload =>
    if payload.typ ≠ some type.claim ∨ payload.sub = "" then
      throw (.domain .tokenInvalid invalidMessage)
    return payload

def signAccessToken (config : JwtConfig) (payload : TokenPayload) : Program Ans Thrown Str :=
  sign payload .access config.accessToken.secret config.accessToken.expiresIn

def signRefreshToken (config : JwtConfig) (payload : TokenPayload) : Program Ans Thrown Str :=
  sign payload .refresh config.refreshToken.secret config.refreshToken.expiresIn

def verifyAccessToken (config : JwtConfig) (token : Str) : Program Ans Thrown TokenPayload :=
  verify token .access config.accessToken.secret "Access token has expired" "Invalid access token"

def verifyRefreshToken (config : JwtConfig) (token : Str) : Program Ans Thrown TokenPayload :=
  verify token .refresh config.refreshToken.secret "Refresh token has expired" "Invalid refresh token"

def getAccessTokenExpiresIn (config : JwtConfig) : Nat := config.accessToken.expiresIn

end JwtTokenService

end KeycloakAuth
