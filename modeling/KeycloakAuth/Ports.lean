import KeycloakAuth.Keycloak

namespace KeycloakAuth
open Async

/-- The methods of `ITokenStore`. -/
inductive StoreCall
  | save (record : TokenRecord)
  | findByToken (token : Str) (type : TokenType)
  | markConsumed (id : Str)
  | deleteExpired
  | deleteAllForUser (userId : String)
  | saveUserData (userId key : String) (value : Str)
  | getUserData (userId key : String)
  | deleteUserData (userId key : String)
deriving DecidableEq, Repr

@[reducible] def StoreCall.Ans : StoreCall → Type
  | .findByToken _ _ => Option TokenRecord
  | .markConsumed _ => Bool
  | .getUserData _ _ => Option Str
  | _ => Unit

/-- The methods of `IAuthProvider` that the use cases call. -/
inductive AuthCall
  | register (req : RegisterRequest)
  | authenticate (email password : String)
  | refreshToken (refreshToken : Str)
  | logout (refreshToken : Str)
  | completePasswordReset (userId newPassword : String)
  | getUserById (id : String)
  | getUserByEmail (email : String)
  | setup2FA (userId : String)
  | verify2FA (userId code : String)
  | sendVerifyEmail (userId : String)
  | issueTokens (userId : String)
deriving DecidableEq, Repr

@[reducible] def AuthCall.Ans : AuthCall → Type
  | .register _ => User
  | .authenticate _ _ => AuthenticateResponse
  | .refreshToken _ => IssueTokensResponse
  | .getUserById _ => User
  | .getUserByEmail _ => User
  | .setup2FA _ => Setup2FAResponse
  | .verify2FA _ _ => Bool
  | .issueTokens _ => IssueTokensResponse
  | _ => Unit

inductive EmailTemplate
  | forgotPassword
  | magicLink
deriving DecidableEq, Repr

/-- A link sent by mail: the address of the page, and the token that is its query. -/
structure EmailLink where
  page : String
  token : Str
deriving DecidableEq, Repr

structure SendEmailRequest where
  recipient : String
  subject : String
  html : String
  text : String
deriving DecidableEq, Repr

/-- Everything a use case awaits. -/
inductive Call
  | store (call : StoreCall)
  | auth (call : AuthCall)
  | render (template : EmailTemplate) (link : EmailLink)
  | send (req : SendEmailRequest)
deriving DecidableEq, Repr

@[reducible] def Call.Ans : Call → Type
  | .store call => call.Ans
  | .auth call => call.Ans
  | .render _ _ => RenderedEmail
  | .send _ => Unit

abbrev Service (α : Type) := Program Call.Ans Thrown α

namespace Service

def tokenStore (call : StoreCall) : Service call.Ans := Program.perform (Call.store call)

def authProvider (call : AuthCall) : Service call.Ans := Program.perform (Call.auth call)

def randomHex : Service Str := do return .random (← Program.random)

def newDate : Service Date := do return .ofMs (← Program.now)

/-- `new Date(Date.now() + ms)`. -/
def dateIn (ms : Nat) : Service Date := do return .ofMs ((← Program.now) + ms)

end Service

/-- The argument of `tokenStore.save` in the use cases: a fresh id and an unconsumed record. -/
def saveRecord (userId : String) (type : TokenType) (token : Str) (ttlMs : Nat) : Service Unit := do
  let id ← Service.randomHex
  let expiresAt ← Service.dateIn ttlMs
  let createdAt ← Service.newDate
  Service.tokenStore (.save ⟨id, userId, type, token, expiresAt, none, createdAt⟩)

end KeycloakAuth
