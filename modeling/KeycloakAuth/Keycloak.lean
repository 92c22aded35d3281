import KeycloakAuth.Jwt
import KeycloakAuth.TokenStore

namespace KeycloakAuth
open Async

structure AdminTokenResponse where
  accessToken : String
  expiresIn : Nat
deriving DecidableEq, Repr

structure KcUserRepresentation where
  id : Option String
  username : Option String
  email : Option String
  enabled : Option Bool
  emailVerified : Option Bool
  createdTimestamp : Option Nat
  attributes : Option (List (String × List String))
deriving DecidableEq, Repr

/-- The body of `POST /users`, its password credential included. -/
structure NewUser where
  username : String
  email : String
  enabled : Bool
  emailVerified : Bool
  password : String
deriving DecidableEq, Repr

/-- The requests sent to the admin API. -/
inductive AdminRequest
  | createUser (user : NewUser)
  | usersByEmail (email : String)
  | userById (id : String)
  | resetPassword (id value : String)
  | sendVerifyEmail (id : String)
deriving DecidableEq, Repr

@[reducible] def AdminRequest.Ans : AdminRequest → Type
  | .usersByEmail _ => List KcUserRepresentation
  | .userById _ => KcUserRepresentation
  | _ => Unit

inductive HttpCall
  | clientCredentials
  | passwordGrant (username password : String)
  | logout (refreshToken : Str)
  | admin (token : String) (request : AdminRequest)
deriving DecidableEq, Repr

@[reducible] def HttpCall.Ans : HttpCall → Type
  | .clientCredentials => AdminTokenResponse
  | .admin _ request => request.Ans
  | _ => Unit

structure AdminTokenCache where
  accessToken : String
  expiresAt : Int
deriving DecidableEq, Repr

/-- What a method of the provider uses besides the clock and random values: HTTP exchanges, the token
store, the field `adminTokenCache` and the QR encoder. -/
inductive ProviderCall
  | http (call : HttpCall)
  | getUserData (userId key : String)
  | saveUserData (userId key : String) (value : Str)
  | deleteUserData (userId key : String)
  | readAdminTokenCache
  | writeAdminTokenCache (entry : AdminTokenCache)
  | toDataURL (secret : Str)

@[reducible] def ProviderCall.Ans : ProviderCall → Type
  | .http call => call.Ans
  | .getUserData _ _ => Option Str
  | .readAdminTokenCache => Option AdminTokenCache
  | .toDataURL _ => String
  | _ => Unit

/-- The parts of the platform that the provider's and the services' own code does not fix: JavaScript's
`toLowerCase` and the TOTP check at a clock reading. -/
structure Platform where
  toLowerCase : String → String
  totpVerify : Str → String → Nat → Bool

def includes (text part : String) : Bool := text.toList.tails.any part.toList.isPrefixOf

namespace KeycloakAuthProvider

abbrev Method (α : Type) := Program ProviderCall.Ans Thrown α

def perform (call : ProviderCall) : Method call.Ans := Program.perform call

def http (call : HttpCall) : Method call.Ans := perform (.http call)

/-- The part of `getAdminToken` that runs when no cached token is good any more. -/
def fetchAdminToken : Method String := do
  let response : AdminTokenResponse ← http .clientCredentials
  let now ← Program.now
  let _ ← perform (.writeAdminTokenCache
    ⟨response.accessToken, now + ((response.expiresIn : Int) - 30) * 1000⟩)
  return response.accessToken

def getAdminToken : Method String := do
  let cache : Option AdminTokenCache ← perform .readAdminTokenCache
  match cache with
  | none => fetchAdminToken
  | some entry =>
    let now ← Program.now
    if entry.expiresAt > now then return entry.accessToken else fetchAdminToken

def mapAdminError (platform : Platform) (status : Nat) (data : Option KcErrorResponse) : Thrown :=
  let message := ((data.bind (·.errorMessage)).or ((data.bind (·.errorDescription)).or
    (data.bind (·.error)))).getD "Keycloak admin error"
  let lower := platform.toLowerCase message
  if status = 409 ∧ includes lower "username" then .domain .usernameAlreadyExists message
  else if status = 409 ∧ (includes lower "email" ∨ includes lower "exist") then
    .domain .emailAlreadyExists message
  else if status = 404 then .domain .userNotFound message
  else .error message

def adminRequest (platform : Platform) (request : AdminRequest) : Method request.Ans := do
  let token ← getAdminToken
  try http (.admin token request) catch
    | .axios (some response) => throw (mapAdminError platform response.status response.data)
    | error => throw error

def mapOidcError (platform : Platform) (status : Nat) (data : Option KcErrorResponse) : Thrown :=
  let error := (data.bind (·.error)).getD ""
  let description := (data.bind (·.errorDescription)).getD "Authentication failed"
  if error = "invalid_grant" ∧ includes (platform.toLowerCase description) "account is not fully set up" then
    .domain .emailNotVerified
      "Email not verified. Check your inbox for a verification link, or contact support."
  else if status = 401 ∨ error = "invalid_grant" then .domain .invalidCredentials description
  else .error description

/-- `oidcTokenRequest` with `grant_type: "password"`, its only use. -/
def oidcTokenRequest (platform : Platform) (username password : String) : Method Unit := do
  try http (.passwordGrant username password) catch
    | .axios (some response) => throw (mapOidcError platform response.status response.data)
    | error => throw error

structure SignedTokens where
  accessToken : Str
  refreshToken : Str
  expiresIn : Nat

/-- The claims handed to the JWT service for a user. -/
def userPayload (user : User) : TokenPayload := ⟨user.id, user.email, user.username, none, none, none⟩

def signUserTokens (config : JwtConfig) (user : User) : Method SignedTokens := do
  let accessToken ← JwtTokenService.signAccessToken config (userPayload user)
  let refreshToken ← JwtTokenService.signRefreshToken config (userPayload user)
  return ⟨accessToken, refreshToken, JwtTokenService.getAccessTokenExpiresIn config⟩

def kcUserToUser (kc : KcUserRepresentation) (now : Nat) : User where
  id := kc.id.getD ""
  email := kc.email.getD ""
  username := kc.username.getD ""
  emailVerified := kc.emailVerified.getD false
  enabled := kc.enabled.getD true
  createdAt := .ofMs (kc.createdTimestamp.getD now)
  attributes := kc.attributes

def getUserById (platform : Platform) (id : String) : Method User := do
  let data : KcUserRepresentation ← adminRequest platform (.userById id)
  return kcUserToUser data (← Program.now)

def getUserByEmail (platform : Platform) (email : String) : Method User := do
  let users : List KcUserRepresentation ← adminRequest platform (.usersByEmail email)
  match users with
  | [] => throw (.domain .userNotFound ("User with email " ++ email ++ " not found"))
  | user :: _ => return kcUserToUser user (← Program.now)

def register (platform : Platform) (req : RegisterRequest) : Method User := do
  let _ ← adminRequest platform (.createUser {
    username := req.username
    email := req.email
    enabled := true
    emailVerified := req.emailVerified.getD true
    password := req.password })
  getUserByEmail platform req.email

def authenticate (platform : Platform) (config : JwtConfig) (email password : String) :
    Method AuthenticateResponse := do
  oidcTokenRequest platform email password
  let user ← getUserByEmail platform email
  let tokens ← signUserTokens config user
  return ⟨tokens.accessToken, tokens.refreshToken, tokens.expiresIn, user⟩

def refreshToken (platform : Platform) (config : JwtConfig) (token : Str) : Method IssueTokensResponse := do
  let payload ← JwtTokenService.verifyRefreshToken config token
  let user ← getUserById platform payload.sub
  let tokens ← signUserTokens config user
  return ⟨tokens.accessToken, tokens.refreshToken, tokens.expiresIn, user.id⟩

/-- Best effort: a failure of the exchange is swallowed. -/
def logout (token : Str) : Method Unit := do
  try http (.logout token) catch _ => pure ()

def completePasswordReset (platform : Platform) (userId newPassword : String) : Method Unit :=
  adminRequest platform (.resetPassword userId newPassword)

def setup2FA (userId : String) : Method Setup2FAResponse := do
  let existing : Option Str ← perform (.getUserData userId "totpSecret")
  if existing.any Str.truthy then
    throw (.domain .twoFactorAlreadyConfigured
      "2FA is already configured for this account — disable it before setting it up again")
  let secret := Str.random (← Program.random)
  let _ ← perform (.saveUserData userId "totpSecret" secret)
  let qrCodeUrl : String ← perform (.toDataURL secret)
  return ⟨secret, qrCodeUrl⟩

def verify2FA (platform : Platform) (userId code : String) : Method Bool := do
  let storedSecret : Option Str ← perform (.getUserData userId "totpSecret")
  match storedSecret.filter Str.truthy with
  | none => return false
  | some secret => return platform.totpVerify secret code (← Program.now)

def disable2FA (userId : String) : Method Unit := perform (.deleteUserData userId "totpSecret")

def sendVerifyEmail (platform : Platform) (userId : String) : Method Unit := do
  try adminRequest platform (.sendVerifyEmail userId) catch _ => pure ()

def issueTokens (platform : Platform) (config : JwtConfig) (userId : String) : Method IssueTokensResponse := do
  let user ← getUserById platform userId
  let tokens ← signUserTokens config user
  return ⟨tokens.accessToken, tokens.refreshToken, tokens.expiresIn, user.id⟩

end KeycloakAuthProvider

end KeycloakAuth
