import KeycloakAuth.Controller
import KeycloakAuth.FreshTokens

namespace KeycloakAuth
open Async Http

section
variable {κ : Type} (server : KeycloakServer κ) (platform : Platform) (self : AuthController)
  (subscribers : EmittedEvent → Except Thrown Unit) (site : Site) (globalPrefix : String)

/-- A request that has been answered: the response, and the session that the use case has handed out. -/
structure Answered (κ : Type) where
  cfg : AuthConfig κ
  response : HttpResponse
  issued : Option SessionResponse

/-- Serves one HTTP request. `timestamp` is the time at which an error was made, if there was one. -/
def AuthController.answer (cfg : AuthConfig κ) (schedule : Schedule Plan) (timestamp : Nat) (http : HttpRequest) :
    Answered κ :=
  match self.dispatch http cfg.clock with
  | .error response => ⟨cfg, response, none⟩
  | .ok (.done handled) => ⟨cfg, handled.finish subscribers timestamp, none⟩
  | .ok (.useCase request sub) =>
    let next := (authSystem server platform self.options).serve cfg schedule request
    match (authSystem server platform self.options).result cfg schedule request with
    | .error thrown => ⟨next, rejected thrown timestamp [], none⟩
    | .ok response => ⟨next, (self.respond request sub response).finish subscribers timestamp, response.session⟩

/-- A browser beside the module. `latest` is the refresh token of the most recent successful response that
opened or rotated a session, and none after a successful logout. -/
structure Browser (κ : Type) where
  cfg : AuthConfig κ
  cookies : CookieStore Str
  latest : Option Str

namespace Browser

def exchange (browser : Browser κ) (schedule : Schedule Plan) (timestamp : Nat) (action : Action)
    (bearer : Option Str) : Answered κ :=
  self.answer server platform subscribers browser.cfg schedule timestamp
    ⟨action, bearer, browser.cookies.header site browser.cfg.clock (mounted globalPrefix action.path)⟩

/-- The browser sends a request with the cookies that belong to its path, and stores those of the response. -/
def send (browser : Browser κ) (schedule : Schedule Plan) (timestamp : Nat)
    (action : Action) (bearer : Option Str) :
    Browser κ :=
  let answered := browser.exchange server platform self subscribers site globalPrefix
    schedule timestamp action bearer
  { cfg := answered.cfg
    cookies := browser.cookies.receive site answered.cfg.clock (mounted globalPrefix action.path)
      answered.response.cookies
    latest :=
      if !answered.response.ok then browser.latest
      else if action = .logout then none
      else (answered.issued.map (·.refreshToken)).or browser.latest }

/-- A request of the browser, or something beside it: another client's request, for one. -/
inductive Step (κ : Type)
  | tick (delay : Nat)
  | disturb (change : Disturbance κ)
  | others (schedule : Schedule Plan) (request : Request)
  | send (schedule : Schedule Plan) (timestamp : Nat) (action : Action) (bearer : Option Str)

def next (browser : Browser κ) : Step κ → Browser κ
  | .tick delay => { browser with cfg := { browser.cfg with clock := browser.cfg.clock + delay } }
  | .disturb change =>
    { browser with cfg := { browser.cfg with
        shared := (authSystem server platform self.options).disturb change browser.cfg.clock browser.cfg.shared } }
  | .others schedule request =>
    { browser with cfg := (authSystem server platform self.options).serve browser.cfg schedule request }
  | .send schedule timestamp action bearer =>
    browser.send server platform self subscribers site globalPrefix schedule timestamp action bearer

/-- Where a browser that starts without cookies can get to by permitted steps. -/
inductive Reach (permitted : Browser κ → Step κ → Prop) (start : AuthConfig κ) : Browser κ → Prop
  | start : Reach permitted start ⟨start, [], none⟩
  | next {browser} (step : Step κ) (allowed : permitted browser step) : Reach permitted start browser →
      Reach permitted start (browser.next server platform self subscribers site globalPrefix step)

def anyStep (_ : Browser κ) (_ : Step κ) : Prop := True

/-- The refresh token that the browser holds. -/
def held (browser : Browser κ) : Option Str :=
  ((browser.cookies.find? fun cookie => cookie.name = "refreshToken" && cookie.alive browser.cfg.clock).map
    (·.value)).filter Str.truthy

end Browser

/-- Some later refresh with the token, as the next request, is accepted. -/
def Accepted (options : Deployment) (cfg : AuthConfig κ) (t : Str) : Prop :=
  ∃ ready schedule tokens, (authSystem server platform options).Reach onlyWaits cfg ready ∧
    (authSystem server platform options).result ready schedule (.refresh t) = .ok (.refresh tokens)

/-- In every run of a browser under no prefix: after a logout that was answered successfully, the token that the
browser held before is not accepted. -/
def BrowserLogoutRevokes (clock : Nat) (keycloak : κ) : Prop :=
  ∀ browser schedule timestamp bearer t,
    Browser.Reach server platform self subscribers site "" Browser.anyStep
      (.start clock (.fresh keycloak)) browser →
    browser.held = some t →
    (browser.exchange server platform self subscribers site "" schedule timestamp
      .logout bearer).response.ok = true →
    ¬ Accepted server platform self.options
      (browser.send server platform self subscribers site "" schedule timestamp .logout bearer).cfg t

end

/-- Each use case has responses of its own. -/
inductive Request.AnsweredBy : Request → Response → Prop
  | register {email username password user message} :
      (Request.register email username password).AnsweredBy (.registered user message)
  | login {email password result} : (Request.login email password).AnsweredBy (.login result)
  | complete2FA {token code tokens user} : (Request.complete2FA token code).AnsweredBy (.complete2FA tokens user)
  | refresh {token tokens} : (Request.refresh token).AnsweredBy (.refresh tokens)
  | forgotPassword {email message userId} : (Request.forgotPassword email).AnsweredBy (.linkSent message userId)
  | resetPassword {token newPassword message userId} :
      (Request.resetPassword token newPassword).AnsweredBy (.passwordReset message userId)
  | sendMagicLink {email message userId} : (Request.sendMagicLink email).AnsweredBy (.linkSent message userId)
  | verifyMagicLink {token tokens} : (Request.verifyMagicLink token).AnsweredBy (.verifyMagicLink tokens)
  | setup2FA {userId setup} : (Request.setup2FA userId).AnsweredBy (.setup2FA setup)
  | verify2FA {userId code} : (Request.verify2FA userId code).AnsweredBy .verified
  | logout {token} : (Request.logout token).AnsweredBy .loggedOut

section
variable {κ : Type} {server : KeycloakServer κ} {platform : Platform} {options : Deployment} {clock : Nat}
  {keycloak : κ} {cfg : AuthConfig κ} {schedule : Schedule Plan} {request : Request} {response : Response}

theorem result_answers
    (answered : (authSystem server platform options).result cfg schedule request = .ok response) :
    request.AnsweredBy response := by
  have ends {β : Type} {useCase : Service β} {last : β → Response}
      (same : request.body platform options = useCase.bind fun value => .done (last value)) :
      ∃ value, response = last value := by
    have ensured : (request.body platform options).Ensures (answerCall server platform options) (fun _ => True)
        cfg.threads.length (Returns fun response _ _ => ∃ value, response = last value) cfg.clock 0 cfg.shared
        cfg.log := by
      rw [same]
      exact .done_last
    exact served server platform options ensured (fun _ => trivial) response answered
  cases request with
  | register email username password =>
    obtain ⟨_, rfl⟩ := ends rfl
    exact .register
  | login email password =>
    obtain ⟨_, rfl⟩ := ends rfl
    exact .login
  | complete2FA token code =>
    obtain ⟨_, rfl⟩ := ends rfl
    exact .complete2FA
  | refresh token =>
    obtain ⟨_, rfl⟩ := ends rfl
    exact .refresh
  | forgotPassword email =>
    obtain ⟨_, rfl⟩ := ends rfl
    exact .forgotPassword
  | resetPassword token newPassword =>
    obtain ⟨_, rfl⟩ := ends rfl
    exact .resetPassword
  | sendMagicLink email =>
    obtain ⟨_, rfl⟩ := ends rfl
    exact .sendMagicLink
  | verifyMagicLink token =>
    obtain ⟨_, rfl⟩ := ends rfl
    exact .verifyMagicLink
  | setup2FA userId =>
    obtain ⟨_, rfl⟩ := ends rfl
    exact .setup2FA
  | verify2FA userId code =>
    obtain ⟨_, rfl⟩ := ends rfl
    exact .verify2FA
  | logout token =>
    obtain ⟨_, rfl⟩ := ends rfl
    exact .logout

/-- Logouts are answered as such, and nothing else is. -/
theorem result_loggedOut
    (answered : (authSystem server platform options).result cfg schedule request = .ok response) :
    response = .loggedOut ↔ ∃ token, request = .logout token := by
  cases result_answers answered with
  | logout => simp
  | _ => simp

end

section
variable {κ : Type} (server : KeycloakServer κ) (platform : Platform) (self : AuthController)
  (subscribers : EmittedEvent → Except Thrown Unit) (cfg : AuthConfig κ)
    (schedule : Schedule Plan) (timestamp : Nat)
  (http : HttpRequest)

/-- How an HTTP request can be answered. A logout is answered as one even if it runs no use case. -/
inductive Answers : Answered κ → Prop
  | refused {response} (failed : response.ok = false) (plain : response.cookies = []) :
      Answers ⟨cfg, response, none⟩
  | cleared {user} (logout : http.action = .logout) (named : user ≠ "") :
      Answers ⟨cfg, (self.logout user).finish subscribers timestamp, none⟩
  | rejected {request sub thrown} (dispatched : self.dispatch http cfg.clock = .ok (.useCase request sub))
      (failed : (authSystem server platform self.options).result cfg schedule request = .error thrown) :
      Answers ⟨(authSystem server platform self.options).serve cfg schedule request,
        KeycloakAuth.rejected thrown timestamp [], none⟩
  | responded {request response sub} (dispatched : self.dispatch http cfg.clock = .ok (.useCase request sub))
      (named : response = .loggedOut → sub ≠ "")
      (logout : http.action = .logout ↔ response = .loggedOut)
      (answered : (authSystem server platform self.options).result cfg schedule request = .ok response) :
      Answers ⟨(authSystem server platform self.options).serve cfg schedule request,
        (self.respond request sub response).finish subscribers timestamp, response.session⟩

theorem answers : Answers server platform self subscribers cfg schedule timestamp http
    (self.answer server platform subscribers cfg schedule timestamp http) := by
  have served {request : Request} {sub : String} (named : (∃ token, request = .logout token) → sub ≠ "")
      (logout : http.action = .logout ↔ ∃ token, request = .logout token)
      (dispatched : self.dispatch http cfg.clock = .ok (.useCase request sub)) :
      Answers server platform self subscribers cfg schedule timestamp http
        (self.answer server platform subscribers cfg schedule timestamp http) := by
    simp only [AuthController.answer, dispatched]
    cases answered : (authSystem server platform self.options).result cfg schedule request with
    | error thrown => exact .rejected dispatched answered
    | ok response =>
      have kind := result_loggedOut answered
      exact .responded dispatched (fun out => named (kind.mp out)) (logout.trans kind.symm) answered
  have dispatches := @AuthController.dispatches self http cfg.clock
  generalize dispatched : self.dispatch http cfg.clock = answer at dispatches
  cases dispatches with
  | refused =>
    simp only [AuthController.answer, dispatched]
    exact .refused rfl rfl
  | noCookie logout _ admitted =>
    simp only [AuthController.answer, dispatched]
    exact .cleared logout (AuthController.canActivate_sub admitted)
  | logout logout _ admitted =>
    exact served (fun _ => AuthController.canActivate_sub admitted) (by simp [logout]) dispatched
  | other notLogout runs =>
    have none : ¬ ∃ token, _ := fun ⟨token, same⟩ => runs token same
    exact served (fun some => absurd some none) ⟨fun no => absurd no notLogout,
      fun some => absurd some none⟩ dispatched

end

namespace Browser
variable {κ : Type} {server : KeycloakServer κ} {platform : Platform} {self : AuthController}
  {subscribers : EmittedEvent → Except Thrown Unit} {site : Site} {globalPrefix : String}
  {permitted : Browser κ → Step κ → Prop} {clock : Nat} {keycloak : κ} {browser : Browser κ}

variable (server platform self subscribers site globalPrefix) in
theorem exchange_answers (browser : Browser κ) (schedule : Schedule Plan) (timestamp : Nat) (action : Action)
    (bearer : Option Str) : Answers server platform self subscribers browser.cfg schedule timestamp
      ⟨action, bearer, browser.cookies.header site browser.cfg.clock (mounted globalPrefix action.path)⟩
      (browser.exchange server platform self subscribers site globalPrefix schedule timestamp action bearer) :=
  answers ..

theorem Reach.run (reach : Reach server platform self subscribers site globalPrefix permitted
      (.start clock (.fresh keycloak)) browser) :
    (authSystem server platform self.options).Reach anyEvent (.start clock (.fresh keycloak)) browser.cfg := by
  induction reach with
  | start => exact .start
  | @next browser step _ _ ih =>
    cases step with
    | tick delay => exact ih.next trivial (show System.advance _ _ (.tick delay) = some _ from rfl)
    | disturb change => exact ih.next trivial (show System.advance _ _ (.disturb change) = some _ from rfl)
    | others schedule request => exact ih.trans (System.serve_reach _ schedule request)
    | send schedule timestamp action bearer =>
      have answers := browser.exchange_answers server platform self subscribers site globalPrefix schedule timestamp
        action bearer
      simp only [Browser.next, Browser.send]
      generalize browser.exchange server platform self subscribers site globalPrefix
        schedule timestamp action bearer =
        answered at answers
      cases answers with
      | refused => exact ih
      | cleared => exact ih
      | rejected => exact ih.trans (System.serve_reach ..)
      | responded => exact ih.trans (System.serve_reach ..)

theorem Reach.mono {start : AuthConfig κ} {wide : Browser κ → Step κ → Prop}
    (reach : Reach server platform self subscribers site globalPrefix permitted start browser)
    (wider : ∀ browser step, permitted browser step → wide browser step) :
    Reach server platform self subscribers site globalPrefix wide start browser := by
  induction reach with
  | start => exact .start
  | next step allowed _ ih => exact ih.next step (wider _ _ allowed)

/-- All cookies in the store are the controller's. -/
theorem Reach.cookies (reach : Reach server platform self subscribers site globalPrefix permitted
      (.start clock (.fresh keycloak)) browser) :
    ∀ cookie ∈ browser.cookies, ∃ header now uriPath, self.Writes header ∧
      SetCookie.cookie header site now uriPath = some cookie := by
  induction reach with
  | start => simp
  | @next browser step _ _ ih =>
    cases step with
    | tick delay => exact ih
    | disturb change => exact ih
    | others schedule request => exact ih
    | send schedule timestamp action bearer =>
      have answers := browser.exchange_answers server platform self subscribers site globalPrefix schedule timestamp
        action bearer
      simp only [Browser.next, Browser.send]
      generalize browser.exchange server platform self subscribers site globalPrefix schedule timestamp action
        bearer = answered at answers
      have stored (now : Nat) {headers : List (SetCookie Str)} (writes : ∀ header ∈ headers, self.Writes header)
          (cookie : Cookie Str)
          (member : cookie ∈ browser.cookies.receive site now (mounted globalPrefix action.path) headers) :
          ∃ header now uriPath, self.Writes header ∧ SetCookie.cookie header site now uriPath = some cookie := by
        rcases CookieStore.mem_receive member with old | ⟨header, sent, set⟩
        · exact ih cookie old
        · exact ⟨header, now, _, writes header sent, set⟩
      cases answers with
      | refused failed plain => exact stored _ (by simp [plain])
      | cleared =>
        refine stored _ fun header sent => ?_
        rw [Handled.finish_cookies] at sent
        exact List.mem_singleton.mp sent ▸ AuthController.writes_clearCookie
      | rejected => exact stored _ (by simp [rejected_cookies])
      | responded =>
        refine stored _ fun header sent => ?_
        rw [Handled.finish_cookies] at sent
        exact AuthController.writes_respond sent

theorem Reach.cookie_path (reach : Reach server platform self subscribers site globalPrefix permitted
      (.start clock (.fresh keycloak)) browser) :
    ∀ cookie ∈ browser.cookies, cookie.path = "/auth/refresh" := by
  intro cookie member
  obtain ⟨header, now, uriPath, ⟨-, path, -⟩, set⟩ := reach.cookies cookie member
  obtain ⟨scope, -, rfl⟩ := Option.map_eq_some_iff.mp set
  simp only [SetCookie.cookiePath, path]
  rfl

/-- No cookie is sent to the logout route, so a logout gets no token to revoke. -/
theorem Reach.logout_keeps (reach : Reach server platform self subscribers site "" permitted
      (.start clock (.fresh keycloak)) browser) (schedule : Schedule Plan) (timestamp : Nat) (bearer : Option Str) :
    (browser.send server platform self subscribers site "" schedule timestamp .logout
      bearer).cfg = browser.cfg := by
  have outside : pathMatches (mounted "" Action.logout.path) "/auth/refresh" = false := by decide
  have bare : browser.cookies.header site browser.cfg.clock (mounted "" Action.logout.path) = [] :=
    CookieStore.header_eq_nil fun cookie member _ => by rw [reach.cookie_path cookie member, outside]
  simp only [Browser.send, exchange, bare, AuthController.answer, AuthController.dispatch]
  rcases AuthController.canActivate_cases self.options.jwt bearer browser.cfg.clock with ⟨_,
    refused⟩ | ⟨_, admitted⟩
  · rw [refused]
    rfl
  · rw [admitted]
    rfl

/-- A logout from a browser revokes the session only where there was nothing left to revoke. -/
theorem browser_logout_revokes_iff (reach : Reach server platform self subscribers site "" permitted
      (.start clock (.fresh keycloak)) browser) (schedule : Schedule Plan) (timestamp : Nat) (bearer : Option Str)
    (t : Str) :
    ¬ Accepted server platform self.options
        (browser.send server platform self subscribers site "" schedule timestamp .logout bearer).cfg t ↔
      ¬ Accepted server platform self.options browser.cfg t := by
  rw [reach.logout_keeps]

end Browser

namespace Sample

def controller : AuthController := ⟨options, none, false, none⟩

def site : Site := ⟨.name "app.example", true, fun domain => domain = "example"⟩

def noSubscribers (_ : EmittedEvent) : Except Thrown Unit := .ok ()

def newBrowser : Browser Realm := ⟨start, [], none⟩

/-- Ann has logged in. -/
def annsBrowser : Browser Realm :=
  newBrowser.send Realm.server platform controller noSubscribers site "" promptly 0
    (.login "ann@mail" "ann password") none

theorem annsBrowser_reach :
    Browser.Reach Realm.server platform controller noSubscribers site "" Browser.anyStep start annsBrowser :=
  .next (.send promptly 0 (.login "ann@mail" "ann password") none) trivial .start

/-- The access token that the login has returned. -/
def annsBearer : Str :=
  .jwt options.jwt.accessToken.secret (JwtTokenService.claims (KeycloakAuthProvider.userPayload
    (KeycloakAuthProvider.kcUserToUser ann.representation 1000)) .access options.jwt.accessToken.expiresIn 1000)

theorem browser_logout_revokes_iff_anns :
    ¬ Accepted Realm.server platform options (annsBrowser.send Realm.server platform
      controller noSubscribers site ""
        promptly 0 .logout (some annsBearer)).cfg (session ann 1000) ↔
      ¬ Accepted Realm.server platform options annsBrowser.cfg (session ann 1000) :=
  Browser.browser_logout_revokes_iff annsBrowser_reach promptly 0 (some annsBearer) (session ann 1000)

/-- Her session survives her logout. -/
theorem browser_logout_not_revokes :
    ¬ BrowserLogoutRevokes Realm.server platform controller noSubscribers site 1000 realm := by
  intro revokes
  refine revokes annsBrowser promptly 0 (some annsBearer) (session ann 1000) annsBrowser_reach rfl rfl ?_
  exact ⟨_, promptly, _, .start, rfl⟩

end Sample

end KeycloakAuth
