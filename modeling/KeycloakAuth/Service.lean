import KeycloakAuth.UseCases
import KeycloakAuth.Async.Interleaving

namespace KeycloakAuth
open Async

/-- Keycloak as far as the provider's requests see it. It is not part of the repository, so what it
answers is a parameter; the account of `GET /users/{id}` is the one with that id, and every account that
`GET /users` lists has an id. -/
structure KeycloakServer (κ : Type) where
  clientCredentials : κ → Except HttpErrorResponse AdminTokenResponse
  passwordGrant : κ → (username password : String) → Except HttpErrorResponse Unit
  usersByEmail : κ → (email : String) → Except HttpErrorResponse (List KcUserRepresentation)
  userById : κ → (id : String) → Except HttpErrorResponse KcUserRepresentation
  createUser : κ → NewUser → Except HttpErrorResponse κ
  resetPassword : κ → (id value : String) → Except HttpErrorResponse κ
  sendVerifyEmail : κ → (id : String) → Except HttpErrorResponse Unit
  logout : κ → (refreshToken : Str) → Except HttpErrorResponse κ
  userById_id : ∀ state id user, userById state id = .ok user → user.id = some id
  usersByEmail_id : ∀ state email users, usersByEmail state email = .ok users →
    ∀ user ∈ users, ∃ id, user.id = some id ∧ id ≠ ""

/-- What the surroundings decide about one awaited call: HTTP exchanges that fail, with or without a
response, and what the encoder, the renderer and the mailer do. -/
structure Plan where
  http : HttpCall → Option (Option HttpErrorResponse)
  toDataURL : Except Thrown String
  render : Except Thrown RenderedEmail
  send : Except Thrown Unit

/-- Everything works. -/
def Plan.good : Plan := ⟨fun _ => none, .ok "data:image/png;base64,", .ok ⟨"", "", ""⟩, .ok ()⟩

structure World (κ : Type) where
  store : InMemoryTokenStore
  keycloak : κ
  adminTokenCache : Option AdminTokenCache

/-- What happens to the world apart from requests: the directory changes, or the expired records are
purged. -/
inductive Disturbance (κ : Type)
  | keycloak (state : κ)
  | deleteExpired

/-- The options of `AuthModule` that the use cases get to see. -/
structure Deployment where
  jwt : JwtConfig
  maxAttempts : Option Nat
  duration : Option Nat
  baseUrl : String
  requireEmailVerification : Bool

/-- `refreshTokenTtlMs(opts)`. -/
def Deployment.refreshTokenTtlMs (options : Deployment) : Nat := options.jwt.refreshToken.expiresIn * 1000

def Deployment.loginUseCase (options : Deployment) : LoginUseCase where
  maxFailedAttempts := options.maxAttempts.getD 5
  lockoutDurationMs := options.duration.getD (15 * 60 * 1000)
  refreshTokenTtlMs := options.refreshTokenTtlMs

inductive Request
  | register (email username password : String)
  | login (email password : String)
  | complete2FA (preAuthToken : Str) (code : String)
  | refresh (refreshToken : Str)
  | forgotPassword (email : String)
  | resetPassword (token : Str) (newPassword : String)
  | sendMagicLink (email : String)
  | verifyMagicLink (token : Str)
  | setup2FA (userId : String)
  | verify2FA (userId code : String)
  | logout (refreshToken : Str)
deriving DecidableEq, Repr

inductive Response
  | registered (user : User) (message : String)
  | login (result : LoginResult)
  | complete2FA (tokens : SessionResponse) (user : PublicUser)
  | refresh (tokens : SessionResponse)
  | linkSent (message : String) (userId : Option String)
  | passwordReset (message userId : String)
  | verifyMagicLink (tokens : SessionResponse)
  | setup2FA (setup : Setup2FAResponse)
  | verified
  | loggedOut
deriving DecidableEq, Repr

def IssueTokensResponse.session (tokens : IssueTokensResponse) : SessionResponse :=
  ⟨tokens.accessToken, tokens.refreshToken, tokens.expiresIn⟩

/-- The session that a response hands out. -/
def Response.session : Response → Option SessionResponse
  | .login (.success tokens _) => some tokens
  | .complete2FA tokens _ => some tokens
  | .refresh tokens => some tokens
  | .verifyMagicLink tokens => some tokens
  | _ => none

section
variable {κ : Type} (server : KeycloakServer κ) (platform : Platform) (options : Deployment)

def serveAdmin (state : κ) : (request : AdminRequest) → Except HttpErrorResponse (request.Ans × κ)
  | .createUser user => (server.createUser state user).map fun changed => ((), changed)
  | .usersByEmail email => (server.usersByEmail state email).map fun users => (users, state)
  | .userById id => (server.userById state id).map fun user => (user, state)
  | .resetPassword id value => (server.resetPassword state id value).map fun changed => ((), changed)
  | .sendVerifyEmail id => (server.sendVerifyEmail state id).map fun _ => ((), state)

def serveHttp (state : κ) : (call : HttpCall) → Except HttpErrorResponse (call.Ans × κ)
  | .clientCredentials => (server.clientCredentials state).map fun token => (token, state)
  | .passwordGrant username password => (server.passwordGrant state username password).map fun _ => ((), state)
  | .logout token => (server.logout state token).map fun changed => ((), changed)
  | .admin _ request => serveAdmin server state request

/-- An exchange either fails without effect or is served. -/
def answerHttp (plan : Plan) (call : HttpCall) (world : World κ) : Except Thrown call.Ans × World κ :=
  match plan.http call with
  | some response => (.error (.axios response), world)
  | none =>
    match serveHttp server world.keycloak call with
    | .error response => (.error (.axios (some response)), world)
    | .ok (answer, state) => (.ok answer, { world with keycloak := state })

def answerProvider (plan : Plan) : (call : ProviderCall) → World κ → Except Thrown call.Ans × World κ
  | .http call, world => answerHttp server plan call world
  | .getUserData userId key, world => (.ok (world.store.getUserData userId key), world)
  | .saveUserData userId key value, world =>
    (.ok (), { world with store := world.store.saveUserData userId key value })
  | .deleteUserData userId key, world =>
    (.ok (), { world with store := world.store.deleteUserData userId key })
  | .readAdminTokenCache, world => (.ok world.adminTokenCache, world)
  | .writeAdminTokenCache entry, world => (.ok (), { world with adminTokenCache := some entry })
  | .toDataURL _, world => (plan.toDataURL, world)

/-- A method of the provider as one atomic step. -/
def evalMethod {α : Type} (plan : Plan) (now request : Nat) (method : KeycloakAuthProvider.Method α)
    (world : World κ) : Except Thrown α × World κ :=
  let outcome := method.eval (answerProvider server plan) now request 0 world
  (outcome.result, outcome.state)

def answerAuth (plan : Plan) (now request : Nat) : (call : AuthCall) → World κ →
    Except Thrown call.Ans × World κ
  | .register req => evalMethod server plan now request (KeycloakAuthProvider.register platform req)
  | .authenticate email password =>
    evalMethod server plan now request (KeycloakAuthProvider.authenticate platform options.jwt email password)
  | .refreshToken token =>
    evalMethod server plan now request (KeycloakAuthProvider.refreshToken platform options.jwt token)
  | .logout token => evalMethod server plan now request (KeycloakAuthProvider.logout token)
  | .completePasswordReset userId newPassword =>
    evalMethod server plan now request (KeycloakAuthProvider.completePasswordReset platform userId newPassword)
  | .getUserById id => evalMethod server plan now request (KeycloakAuthProvider.getUserById platform id)
  | .getUserByEmail email =>
    evalMethod server plan now request (KeycloakAuthProvider.getUserByEmail platform email)
  | .setup2FA userId => evalMethod server plan now request (KeycloakAuthProvider.setup2FA userId)
  | .verify2FA userId code =>
    evalMethod server plan now request (KeycloakAuthProvider.verify2FA platform userId code)
  | .sendVerifyEmail userId =>
    evalMethod server plan now request (KeycloakAuthProvider.sendVerifyEmail platform userId)
  | .issueTokens userId =>
    evalMethod server plan now request (KeycloakAuthProvider.issueTokens platform options.jwt userId)

/-- The methods of `InMemoryTokenStore` never reject. -/
def answerStore (now : Nat) : (call : StoreCall) → InMemoryTokenStore → call.Ans × InMemoryTokenStore
  | .save record, store => ((), store.save record)
  | .findByToken token type, store => (store.findByToken token type, store)
  | .markConsumed id, store => store.markConsumed id now
  | .deleteExpired, store => ((), store.deleteExpired now)
  | .deleteAllForUser userId, store => ((), store.deleteAllForUser userId)
  | .saveUserData userId key value, store => ((), store.saveUserData userId key value)
  | .getUserData userId key, store => (store.getUserData userId key, store)
  | .deleteUserData userId key, store => ((), store.deleteUserData userId key)

def answerCall (plan : Plan) (now request : Nat) : (call : Call) → World κ → Except Thrown call.Ans × World κ
  | .store call, world =>
    let answered := answerStore now call world.store
    (.ok answered.1, { world with store := answered.2 })
  | .auth call, world => answerAuth server platform options plan now request call world
  | .render _ _, world => (plan.render, world)
  | .send _, world => (plan.send, world)

def Request.body : Request → Service Response
  | .register email username password => do
    let registered ← RegisterUseCase.execute platform options.requireEmailVerification email username password
    return .registered registered.1 registered.2
  | .login email password => do return .login (← options.loginUseCase.execute platform email password)
  | .complete2FA preAuthToken code => do
    let session ← Complete2FALoginUseCase.execute options.refreshTokenTtlMs preAuthToken code
    return .complete2FA session.1 session.2
  | .refresh refreshToken => do
    return .refresh (← RefreshTokenUseCase.execute options.refreshTokenTtlMs refreshToken)
  | .forgotPassword email => do
    let sent ← ForgotPasswordUseCase.execute options.baseUrl email
    return .linkSent sent.1 sent.2
  | .resetPassword token newPassword => do
    let reset ← ResetPasswordUseCase.execute token newPassword
    return .passwordReset reset.1 reset.2
  | .sendMagicLink email => do
    let sent ← SendMagicLinkUseCase.execute options.baseUrl email
    return .linkSent sent.1 sent.2
  | .verifyMagicLink token => do
    return .verifyMagicLink (← VerifyMagicLinkUseCase.execute options.refreshTokenTtlMs token)
  | .setup2FA userId => do return .setup2FA (← Setup2FAUseCase.execute userId)
  | .verify2FA userId code => do
    Verify2FAUseCase.execute userId code
    return .verified
  | .logout refreshToken => do
    LogoutUseCase.execute refreshToken
    return .loggedOut

/-- The module as a system of concurrent requests over one store and one Keycloak. -/
def authSystem : System Call.Ans Thrown Request Response (World κ) Plan (Disturbance κ) where
  body := Request.body platform options
  perform := answerCall server platform options
  disturb
    | .keycloak state, _, world => { world with keycloak := state }
    | .deleteExpired, now, world => { world with store := world.store.deleteExpired now }

end

abbrev AuthConfig (κ : Type) := Config Call.Ans Thrown Request Response (World κ)

abbrev AuthEvent (κ : Type) := Event Request Plan (Disturbance κ)

abbrev LogEntry := Entry Call.Ans Thrown

/-- A module that has just started: an empty store in front of a running Keycloak. -/
def World.fresh {κ : Type} (keycloak : κ) : World κ := ⟨.empty, keycloak, none⟩

end KeycloakAuth
