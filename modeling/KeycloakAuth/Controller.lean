import KeycloakAuth.Http.Cookies
import KeycloakAuth.Service

namespace KeycloakAuth
open Async Http

/-- The events that the controller emits. -/
inductive EmittedEvent
  | userRegistered (keycloakId email username : String)
  | userLoggedIn (userId email : String)
  | userLoggedOut (userId : String)
  | magicLinkSent (userId email : String)
  | passwordReset (userId : String)
  | twoFactorEnabled (userId : String)
deriving DecidableEq, Repr

namespace DomainError

def code : DomainError → String
  | .emailAlreadyExists => "EMAIL_EXISTS"
  | .usernameAlreadyExists => "USERNAME_EXISTS"
  | .invalidCredentials => "INVALID_CREDENTIALS"
  | .emailNotVerified => "EMAIL_NOT_VERIFIED"
  | .tokenExpired => "TOKEN_EXPIRED"
  | .tokenInvalid => "TOKEN_INVALID"
  | .userNotFound => "USER_NOT_FOUND"
  | .accountDisabled => "ACCOUNT_DISABLED"
  | .twoFactorRequired => "2FA_REQUIRED"
  | .twoFactorInvalid => "2FA_INVALID"
  | .twoFactorAlreadyConfigured => "2FA_ALREADY_CONFIGURED"
  | .rateLimit => "RATE_LIMIT"
  | .magicLinkExpired => "MAGIC_LINK_EXPIRED"
  | .magicLinkAlreadyUsed => "MAGIC_LINK_USED"
  | .resetTokenExpired => "RESET_TOKEN_EXPIRED"
  | .weakPassword => "WEAK_PASSWORD"
  | .tokenReuseDetected => "TOKEN_REUSE_DETECTED"
  | .accountLocked => "ACCOUNT_LOCKED"
  | .healthCheckFailed => "HEALTH_CHECK_FAILED"

def status : DomainError → Nat
  | .emailAlreadyExists | .usernameAlreadyExists | .twoFactorAlreadyConfigured => 409
  | .invalidCredentials | .tokenExpired | .tokenInvalid | .twoFactorInvalid | .tokenReuseDetected => 401
  | .emailNotVerified | .accountDisabled | .twoFactorRequired => 403
  | .userNotFound => 404
  | .rateLimit => 429
  | .magicLinkExpired | .magicLinkAlreadyUsed | .resetTokenExpired => 410
  | .weakPassword => 422
  | .accountLocked => 423
  | .healthCheckFailed => 503

end DomainError

/-- The bodies of responses. -/
inductive Body
  | error (error message : String) (statusCode timestamp : Nat)
  | httpException (message : String) (error : Option String) (statusCode : Nat)
  | registered (user : User) (message : String)
  | twoFactorRequired (preAuthToken : Str) (expiresIn : Nat)
  | session (accessToken : Str) (expiresIn : Nat) (user : Option PublicUser)
  | message (text : String)
  | setup2FA (setup : Setup2FAResponse)
  | empty
deriving DecidableEq, Repr

structure HttpResponse where
  status : Nat
  body : Body
  cookies : List (SetCookie Str)
deriving DecidableEq, Repr

def HttpResponse.ok (response : HttpResponse) : Bool := 200 ≤ response.status && response.status < 300

/-- `AuthExceptionFilter`, and Nest's own filter for what that one does not catch. A domain error carries the
time at which it was made. -/
def rejected (thrown : Thrown) (timestamp : Nat) (cookies : List (SetCookie Str)) : HttpResponse :=
  match thrown with
  | .domain kind message => ⟨kind.status, .error kind.code message kind.status timestamp, cookies⟩
  | _ => ⟨500, .httpException "Internal server error" none 500, cookies⟩

def unauthorized (message : String) : HttpResponse := ⟨401, .httpException message (some "Unauthorized") 401, []⟩

structure CookieOptions where
  httpOnly : Bool
  secure : Bool
  sameSite : String
  path : String
  domain : Option String
  /-- In milliseconds. -/
  maxAge : Option Nat
deriving DecidableEq, Repr

/-- Express' `res.cookie`. -/
def setCookie (name : String) (value : Str) (options : CookieOptions) : SetCookie Str where
  name := name
  value := value
  domain := options.domain
  path := some options.path
  maxAge := options.maxAge.map (· / 1000)
  expires := none
  secure := options.secure

/-- Express' `res.clearCookie`, which sets an empty value that expired in the first second of the epoch. -/
def clearCookie (name : String) (options : CookieOptions) : SetCookie Str where
  name := name
  value := .lit ""
  domain := options.domain
  path := some options.path
  maxAge := none
  expires := some 0
  secure := options.secure

/-- What a handler does after its use case: the response it makes and the event it emits first. -/
structure Handled where
  status : Nat := 200
  cookies : List (SetCookie Str) := []
  event : Option EmittedEvent := none
  body : Body
deriving DecidableEq, Repr

/-- The subscribers of the event are awaited. When one of them rejects, so does the handler, but the cookies
are set already. -/
def Handled.finish (handled : Handled) (subscribers : EmittedEvent → Except Thrown Unit) (timestamp : Nat) :
    HttpResponse :=
  match handled.event.elim (.ok ()) subscribers with
  | .ok _ => ⟨handled.status, handled.body, handled.cookies⟩
  | .error thrown => rejected thrown timestamp handled.cookies

namespace JwtAuthGuard

/-- The guard of a route that is not public, given the token of the `Authorization` header. -/
def canActivate (config : JwtConfig) (bearer : Option Str) (now : Nat) : Except HttpResponse TokenPayload :=
  match bearer with
  | none => .error (unauthorized "Missing authorization header")
  | some token =>
    let verify : Program (fun none : Empty => none.elim) Thrown TokenPayload :=
      JwtTokenService.verifyAccessToken config token
    match (verify.settle now 0 0).1 with
    | .returned payload => .ok payload
    | .threw (.domain .tokenExpired _) => .error (unauthorized "Access token has expired")
    | .threw (.domain .tokenInvalid _) => .error (unauthorized "Invalid access token")
    | .threw _ => .error (unauthorized "Authentication failed")

end JwtAuthGuard

def isDomainLabel (label : List Char) : Bool :=
  label.length ≤ 63 && label.all (fun char => char.isAlphanum || char = '-') && label.head?.any Char.isAlphanum &&
    label.getLast?.any Char.isAlphanum

/-- The domains that Express' `cookie` package writes out. It throws at others. -/
def domainValueRegExp (text : String) : Bool :=
  let chars := text.toList
  ((if chars.head? = some '.' then chars.tail else chars).splitOn '.').all isDomainLabel

structure CookieDomain where
  text : String
  writable : text = "" ∨ domainValueRegExp text = true

/-- The options of `AuthModule`, those of the cookies included. -/
structure AuthController where
  options : Deployment
  cookieSecure : Option Bool
  /-- `NODE_ENV` is `production`. -/
  production : Bool
  cookieDomain : Option CookieDomain

/-- A request to one of the routes, without its cookies. -/
inductive Action
  | register (email username password : String)
  | login (email password : String)
  | complete2FA (preAuthToken : Str) (code : String)
  | refresh
  | logout
  | forgotPassword (email : String)
  | resetPassword (token : Str) (newPassword : String)
  | sendMagicLink (email : String)
  | verifyMagicLink (token : Str)
  | setup2FA
  | verify2FA (code : String)
deriving DecidableEq, Repr

/-- `@Controller("auth")` and the paths of the handlers. -/
def Action.path : Action → String
  | .register _ _ _ => "/auth/register"
  | .login _ _ => "/auth/login"
  | .complete2FA _ _ => "/auth/2fa/complete"
  | .refresh => "/auth/refresh"
  | .logout => "/auth/logout"
  | .forgotPassword _ => "/auth/forgot-password"
  | .resetPassword _ _ => "/auth/reset-password"
  | .sendMagicLink _ => "/auth/magic-link"
  | .verifyMagicLink _ => "/auth/magic-link/verify"
  | .setup2FA => "/auth/2fa/setup"
  | .verify2FA _ => "/auth/2fa/verify"

structure HttpRequest where
  action : Action
  bearer : Option Str
  cookies : List (String × Str)
deriving DecidableEq, Repr

/-- Where a request gets to: a handler that is done without a use case, or a use case and the subject of the
access token. -/
inductive Dispatched
  | done (handled : Handled)
  | useCase (request : Request) (sub : String)
deriving DecidableEq, Repr

namespace AuthController
variable (self : AuthController)

def baseCookieOptions : CookieOptions where
  httpOnly := true
  secure := self.cookieSecure.getD self.production
  sameSite := "strict"
  path := "/auth/refresh"
  domain := (self.cookieDomain.map (·.text)).filter (· ≠ "")
  maxAge := none

def refreshCookieOptions : CookieOptions :=
  { self.baseCookieOptions with maxAge := some (self.options.jwt.refreshToken.expiresIn * 1000) }

def setRefreshCookie (refreshToken : Str) : SetCookie Str :=
  setCookie "refreshToken" refreshToken self.refreshCookieOptions

def register (user : User) (message : String) : Handled where
  status := 201
  event := some (.userRegistered user.id user.email user.username)
  body := .registered user message

/-- `login`, `complete2FALogin`: the response of a session for a user. -/
def loggedIn (tokens : SessionResponse) (user : PublicUser) : Handled where
  cookies := [self.setRefreshCookie tokens.refreshToken]
  event := some (.userLoggedIn user.id user.email)
  body := .session tokens.accessToken tokens.expiresIn (some user)

def login : LoginResult → Handled
  | .twoFactorRequired preAuthToken expiresIn => { body := .twoFactorRequired preAuthToken expiresIn }
  | .success tokens user => self.loggedIn tokens user

def complete2FALogin (tokens : SessionResponse) (user : PublicUser) : Handled := self.loggedIn tokens user

def refresh (tokens : SessionResponse) : Handled where
  cookies := [self.setRefreshCookie tokens.refreshToken]
  body := .session tokens.accessToken tokens.expiresIn none

def logout (sub : String) : Handled where
  cookies := [clearCookie "refreshToken" self.baseCookieOptions]
  event := some (.userLoggedOut sub)
  body := .message "Logged out successfully"

def forgotPassword : Handled where
  body := .message "If the email exists, a reset link has been sent"

def resetPassword (userId : String) : Handled where
  event := some (.passwordReset userId)
  body := .message "Password has been reset successfully"

def sendMagicLink (email : String) (userId : Option String) : Handled where
  event := (userId.filter (· ≠ "")).map fun userId => .magicLinkSent userId email
  body := .message "If the email exists, a magic link has been sent"

def verifyMagicLink (tokens : SessionResponse) : Handled where
  cookies := [self.setRefreshCookie tokens.refreshToken]
  body := .session tokens.accessToken tokens.expiresIn none

def setup2FA (setup : Setup2FAResponse) : Handled where
  body := .setup2FA setup

def verify2FA (sub : String) : Handled where
  event := some (.twoFactorEnabled sub)
  body := .empty

/-- The handler of a request up to its use case. -/
def dispatch (http : HttpRequest) (now : Nat) : Except HttpResponse Dispatched :=
  let refreshToken := (http.cookies.lookup "refreshToken").filter Str.truthy
  match http.action with
  | .register email username password => .ok (.useCase (.register email username password) "")
  | .login email password => .ok (.useCase (.login email password) "")
  | .complete2FA preAuthToken code => .ok (.useCase (.complete2FA preAuthToken code) "")
  | .refresh =>
    match refreshToken with
    | none => .error (unauthorized "Missing refresh token")
    | some token => .ok (.useCase (.refresh token) "")
  | .logout => do
    let user ← JwtAuthGuard.canActivate self.options.jwt http.bearer now
    match refreshToken with
    | none => return .done (self.logout user.sub)
    | some token => return .useCase (.logout token) user.sub
  | .forgotPassword email => .ok (.useCase (.forgotPassword email) "")
  | .resetPassword token newPassword => .ok (.useCase (.resetPassword token newPassword) "")
  | .sendMagicLink email => .ok (.useCase (.sendMagicLink email) "")
  | .verifyMagicLink token => .ok (.useCase (.verifyMagicLink token) "")
  | .setup2FA => do
    let user ← JwtAuthGuard.canActivate self.options.jwt http.bearer now
    return .useCase (.setup2FA user.sub) user.sub
  | .verify2FA code => do
    let user ← JwtAuthGuard.canActivate self.options.jwt http.bearer now
    return .useCase (.verify2FA user.sub code) user.sub

/-- The rest of the handler, once its use case has answered. -/
def respond (request : Request) (sub : String) : Response → Handled
  | .registered user message => register user message
  | .login result => self.login result
  | .complete2FA tokens user => self.complete2FALogin tokens user
  | .refresh tokens => self.refresh tokens
  | .linkSent _ userId =>
    match request with
    | .sendMagicLink email => sendMagicLink email userId
    | _ => forgotPassword
  | .passwordReset _ userId => resetPassword userId
  | .verifyMagicLink tokens => self.verifyMagicLink tokens
  | .setup2FA setup => setup2FA setup
  | .verified => verify2FA sub
  | .loggedOut => self.logout sub

end AuthController

theorem rejected_ok (thrown : Thrown) (timestamp : Nat) (cookies : List (SetCookie Str)) :
    (rejected thrown timestamp cookies).ok = false := by
  cases thrown with
  | domain kind message => cases kind <;> rfl
  | error message => rfl
  | rangeError => rfl
  | axios response => rfl

theorem rejected_cookies (thrown : Thrown) (timestamp : Nat) (cookies : List (SetCookie Str)) :
    (rejected thrown timestamp cookies).cookies = cookies := by
  unfold rejected
  split <;> rfl

theorem Handled.finish_of_resolves (handled : Handled) {subscribers : EmittedEvent → Except Thrown Unit}
    (resolves : ∀ event, handled.event = some event → subscribers event = .ok ()) (timestamp : Nat) :
    handled.finish subscribers timestamp = ⟨handled.status, handled.body, handled.cookies⟩ := by
  unfold finish
  cases emitted : handled.event with
  | none => rfl
  | some event => simp [resolves event emitted]

/-- Whatever becomes of the event, the cookies that the handler has set are sent. -/
theorem Handled.finish_cookies (handled : Handled) (subscribers : EmittedEvent → Except Thrown Unit)
    (timestamp : Nat) : (handled.finish subscribers timestamp).cookies = handled.cookies := by
  unfold finish
  split
  · rfl
  · exact rejected_cookies ..

namespace AuthController
variable {self : AuthController}

theorem canActivate_cases (config : JwtConfig) (bearer : Option Str) (now : Nat) :
    (∃ message, JwtAuthGuard.canActivate config bearer now = .error (unauthorized message)) ∨
      ∃ user, JwtAuthGuard.canActivate config bearer now = .ok user := by
  unfold JwtAuthGuard.canActivate
  split
  · exact .inl ⟨_, rfl⟩
  · simp only
    split
    · exact .inr ⟨_, rfl⟩
    · exact .inl ⟨_, rfl⟩
    · exact .inl ⟨_, rfl⟩
    · exact .inl ⟨_, rfl⟩

/-- Nobody is admitted without a subject. -/
theorem canActivate_sub {config : JwtConfig} {bearer : Option Str} {now : Nat} {user : TokenPayload}
    (admitted : JwtAuthGuard.canActivate config bearer now = .ok user) : user.sub ≠ "" := by
  unfold JwtAuthGuard.canActivate at admitted
  split at admitted
  · cases admitted
  rename_i token
  simp only [JwtTokenService.verifyAccessToken, JwtTokenService.verify, Program.bind_eq, Program.now_bind,
    Program.settle] at admitted
  cases verified : jwtVerify token config.accessToken.secret now with
  | expired => simp [verified, Program.settle] at admitted
  | invalid => simp [verified, Program.settle] at admitted
  | valid payload =>
    by_cases refused : payload.typ ≠ some TokenUse.access.claim ∨ payload.sub = ""
    · simp [verified, refused, Program.settle] at admitted
    · simp only [verified, if_neg refused, Program.pure_eq, Program.settle] at admitted
      cases admitted
      exact fun no => refused (.inr no)

/-- A token that has just been signed is let through. -/
theorem canActivate_signed (config : JwtConfig) (payload : TokenPayload) (named : payload.sub ≠ "")
    (lives : 0 < config.accessToken.expiresIn) (now : Nat) :
    JwtAuthGuard.canActivate config (some (.jwt config.accessToken.secret
      (JwtTokenService.claims payload .access config.accessToken.expiresIn now))) now =
        .ok (JwtTokenService.claims payload .access config.accessToken.expiresIn now) := by
  have fresh : ¬ now / 1000 + config.accessToken.expiresIn ≤ now / 1000 := by omega
  have verified : jwtVerify (.jwt config.accessToken.secret
      (JwtTokenService.claims payload .access config.accessToken.expiresIn now)) config.accessToken.secret now =
        .valid (JwtTokenService.claims payload .access config.accessToken.expiresIn now) := by
    simp [jwtVerify, JwtTokenService.claims, fresh]
  have fine : ¬ ((JwtTokenService.claims payload .access config.accessToken.expiresIn now).typ ≠
        some TokenUse.access.claim ∨
      (JwtTokenService.claims payload .access config.accessToken.expiresIn now).sub = "") := by
    simp [JwtTokenService.claims, named]
  simp only [JwtAuthGuard.canActivate, JwtTokenService.verifyAccessToken, JwtTokenService.verify, Program.bind_eq,
    Program.now_bind, Program.settle, verified, if_neg fine, Program.pure_eq]

/-- What a request that gets past the guards does: it runs a use case, or it is a logout without a cookie. -/
inductive Dispatches (self : AuthController) (http : HttpRequest)
    (now : Nat) : Except HttpResponse Dispatched → Prop
  | refused {message} : Dispatches self http now (.error (unauthorized message))
  | noCookie {user} (logout : http.action = .logout)
      (absent : (http.cookies.lookup "refreshToken").filter Str.truthy = none)
      (admitted : JwtAuthGuard.canActivate self.options.jwt http.bearer now = .ok user) :
      Dispatches self http now (.ok (.done (self.logout user.sub)))
  | logout {token user} (logout : http.action = .logout)
      (present : (http.cookies.lookup "refreshToken").filter Str.truthy = some token)
      (admitted : JwtAuthGuard.canActivate self.options.jwt http.bearer now = .ok user) :
      Dispatches self http now (.ok (.useCase (.logout token) user.sub))
  | other {request sub} (notLogout : http.action ≠ .logout) (runs : ∀ token, request ≠ .logout token) :
      Dispatches self http now (.ok (.useCase request sub))

theorem dispatches (http : HttpRequest) (now : Nat) : Dispatches self http now (self.dispatch http now) := by
  have guard := canActivate_cases self.options.jwt http.bearer now
  unfold dispatch
  cases action : http.action with
  | logout =>
    rcases guard with ⟨message, refused⟩ | ⟨user, admitted⟩
    · rw [refused]
      exact .refused
    rw [admitted]
    cases present : (http.cookies.lookup "refreshToken").filter Str.truthy with
    | none => exact .noCookie action present admitted
    | some token => exact .logout action present admitted
  | refresh =>
    cases (http.cookies.lookup "refreshToken").filter Str.truthy with
    | none => exact .refused
    | some token => exact .other (by simp [action]) (by simp)
  | setup2FA =>
    rcases guard with ⟨message, refused⟩ | ⟨user, admitted⟩
    · rw [refused]
      exact .refused
    · rw [admitted]
      exact .other (by simp [action]) (by simp)
  | verify2FA code =>
    rcases guard with ⟨message, refused⟩ | ⟨user, admitted⟩
    · rw [refused]
      exact .refused
    · rw [admitted]
      exact .other (by simp [action]) (by simp)
  | register email username password => exact .other (by simp [action]) (by simp)
  | login email password => exact .other (by simp [action]) (by simp)
  | complete2FA token code => exact .other (by simp [action]) (by simp)
  | forgotPassword email => exact .other (by simp [action]) (by simp)
  | resetPassword token newPassword => exact .other (by simp [action]) (by simp)
  | sendMagicLink email => exact .other (by simp [action]) (by simp)
  | verifyMagicLink token => exact .other (by simp [action]) (by simp)

theorem dispatch_logout {bearer : Option Str} {now : Nat} {user : TokenPayload}
    (admitted : JwtAuthGuard.canActivate self.options.jwt bearer now = .ok user) (cookies : List (String × Str)) :
    self.dispatch ⟨.logout, bearer, cookies⟩ now = .ok (.done (self.logout user.sub)) ∨
      ∃ token, self.dispatch ⟨.logout, bearer, cookies⟩ now = .ok (.useCase (.logout token) user.sub) := by
  simp only [dispatch, admitted]
  cases (cookies.lookup "refreshToken").filter Str.truthy with
  | none => exact .inl rfl
  | some token => exact .inr ⟨token, rfl⟩

/-- A response with a session sets its refresh token as the cookie, a logout clears the cookie, and nothing else
touches it. -/
theorem respond_cookies (request : Request) (sub : String) (response : Response) :
    (∃ tokens, response.session = some tokens ∧
      (self.respond request sub response).cookies = [self.setRefreshCookie tokens.refreshToken]) ∨
    response.session = none ∧ (response ≠ .loggedOut ∧ (self.respond request sub response).cookies = [] ∨
      response = .loggedOut ∧
        (self.respond request sub response).cookies = [clearCookie "refreshToken" self.baseCookieOptions]) := by
  cases response with
  | login result => cases result <;> simp [Response.session, respond, login, loggedIn]
  | linkSent message userId => cases request <;> simp [Response.session, respond, sendMagicLink, forgotPassword]
  | complete2FA tokens user => exact .inl ⟨tokens, rfl, rfl⟩
  | refresh tokens => exact .inl ⟨tokens, rfl, rfl⟩
  | verifyMagicLink tokens => exact .inl ⟨tokens, rfl, rfl⟩
  | loggedOut => exact .inr ⟨rfl, .inr ⟨rfl, rfl⟩⟩
  | registered user message => exact .inr ⟨rfl, .inl ⟨by simp, rfl⟩⟩
  | passwordReset message userId => exact .inr ⟨rfl, .inl ⟨by simp, rfl⟩⟩
  | setup2FA setup => exact .inr ⟨rfl, .inl ⟨by simp, rfl⟩⟩
  | verified => exact .inr ⟨rfl, .inl ⟨by simp, rfl⟩⟩

/-- The header has the attributes that all cookies of the controller have. -/
def Writes (self : AuthController) (header : SetCookie Str) : Prop :=
  header.name = "refreshToken" ∧ header.path = some "/auth/refresh" ∧
    header.domain = self.baseCookieOptions.domain ∧
    header.secure = self.baseCookieOptions.secure

theorem writes_setRefreshCookie (refreshToken : Str) : self.Writes (self.setRefreshCookie refreshToken) :=
  ⟨rfl, rfl, rfl, rfl⟩

theorem writes_clearCookie : self.Writes (clearCookie "refreshToken" self.baseCookieOptions) := ⟨rfl, rfl, rfl, rfl⟩

theorem writes_respond {request : Request} {sub : String} {response : Response} {header : SetCookie Str}
    (member : header ∈ (self.respond request sub response).cookies) : self.Writes header := by
  rcases self.respond_cookies request sub response with ⟨_, _, set⟩ | ⟨_, ⟨_, set⟩ | ⟨_, set⟩⟩
  · rw [set] at member
    exact List.mem_singleton.mp member ▸ writes_setRefreshCookie _
  · rw [set] at member
    cases member
  · rw [set] at member
    exact List.mem_singleton.mp member ▸ writes_clearCookie

theorem respond_status (request : Request) (sub : String) (response : Response) :
    (self.respond request sub response).status = 200 ∨ (self.respond request sub response).status = 201 := by
  cases response with
  | registered user message => exact .inr rfl
  | login result => cases result <;> exact .inl rfl
  | linkSent message userId => cases request <;> exact .inl rfl
  | _ => exact .inl rfl

end AuthController

def addLeadingSlash (path : String) : String :=
  if path = "" ∨ path.toList.head? = some '/' then path else "/" ++ path

def stripEndSlash (path : String) : String :=
  if path.toList.getLast? = some '/' then String.ofList path.toList.dropLast else path

/-- The path of a route under `app.setGlobalPrefix(globalPrefix)`, for a prefix without parameters. -/
def mounted (globalPrefix path : String) : String := addLeadingSlash (stripEndSlash globalPrefix ++ path)

end KeycloakAuth
