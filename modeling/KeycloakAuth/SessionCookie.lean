import KeycloakAuth.Browser
import KeycloakAuth.Lookup

namespace KeycloakAuth
open Async Http InMemoryTokenStore

/-- The token has expired. -/
def Lapsed (t : Str) (now : Nat) : Prop := ∃ exp, t.expires = some exp ∧ exp ≤ now / 1000

theorem Lapsed.later {t : Str} {now later : Nat} (lapsed : Lapsed t now)
    (order : now ≤ later) : Lapsed t later := by
  obtain ⟨exp, expires, past⟩ := lapsed
  exact ⟨exp, expires, Nat.le_trans past (Nat.div_le_div_right order)⟩

/-- The domain for which the controller's cookies are stored that come from the site. -/
def AuthController.scope (self : AuthController) (site : Site) : Option (String × Bool) :=
  site.scope (clearCookie "refreshToken" self.baseCookieOptions).domainAttribute

/-- The user agent sends the controller's cookies to the refresh route. -/
structure AuthController.Delivers (controller : AuthController) (site : Site) (globalPrefix : String) : Prop where
  under : pathMatches (mounted globalPrefix Action.refresh.path) "/auth/refresh" = true
  accepted : (controller.scope site).isSome = true
  secure : controller.baseCookieOptions.secure = true → site.secure = true

/-- The same cookies under other options. -/
def AuthController.deployed (self : AuthController) (options : Deployment) : AuthController :=
  { self with options := options }

/-- The refresh cookie as a user agent stores it. -/
def AuthController.storedCookie (self : AuthController) (scope : String × Bool)
    (value : Str) (expiry : Option Nat) :
    Cookie Str :=
  ⟨"refreshToken", value, scope.1, scope.2, "/auth/refresh", expiry, self.baseCookieOptions.secure⟩

namespace Browser
variable {κ : Type} (server : KeycloakServer κ) (platform : Platform) (self : AuthController)
  (subscribers : EmittedEvent → Except Thrown Unit) (site : Site) (globalPrefix : String)

/-- The refresh token that a request to the refresh route would carry. -/
def carried (browser : Browser κ) : Option Str :=
  ((browser.cookies.header site browser.cfg.clock (mounted globalPrefix Action.refresh.path)).lookup
    "refreshToken").filter Str.truthy

/-- A request to the refresh route carries the latest token, unless that has expired. -/
def Carries (browser : Browser κ) : Prop :=
  browser.carried site globalPrefix = browser.latest ∨ browser.carried site globalPrefix = none ∧
    ∃ t, browser.latest = some t ∧ Lapsed t browser.cfg.clock

/-- The browser can refresh while its session is on file and unexpired, and Keycloak works. -/
def CanRefresh (browser : Browser κ) : Prop :=
  ∀ t schedule timestamp bearer, browser.latest = some t →
    (browser.cfg.shared.store.findByToken t .refreshToken).isSome = true →
    (∀ id, t.subject = some id → ∀ index, Reaches server browser.cfg.shared.keycloak id (schedule index).2) →
    (∀ exp, t.expires = some exp →
      ((authSystem server platform self.options).serve browser.cfg schedule (.refresh t)).clock / 1000 < exp) →
    (browser.exchange server platform self subscribers site globalPrefix schedule timestamp .refresh
      bearer).response.ok = true

/-- The cookie store tracks the session in every run of permitted steps. -/
def Tracks (permitted : Browser κ → Step κ → Prop) (clock : Nat) (keycloak : κ) : Prop :=
  ∀ browser,
    Reach server platform self subscribers site globalPrefix permitted (.start clock (.fresh keycloak)) browser →
    browser.Carries site globalPrefix ∧ browser.CanRefresh server platform self subscribers site globalPrefix

/-- No session of the browser gets a token of which a consumed record is on file, Keycloak works whenever the
browser refreshes, and nobody else presents the browser's latest token. -/
def orderly (browser : Browser κ) : Step κ → Prop
  | .others _ request => ∀ t, browser.latest = some t → ¬ request.Presents t
  | .send schedule timestamp action bearer => ∀ request sub,
      self.dispatch ⟨action, bearer, browser.cookies.header site browser.cfg.clock
        (mounted globalPrefix action.path)⟩ browser.cfg.clock = .ok (.useCase request sub) →
      (∀ tokens, (browser.exchange server platform self subscribers site globalPrefix schedule timestamp action
        bearer).issued = some tokens → ¬ Reissued browser.cfg.shared.store request tokens.refreshToken) ∧
      ∀ t id, request = .refresh t → t.subject = some id → ∀ index,
        Reaches server browser.cfg.shared.keycloak id (schedule index).2
  | _ => True

variable {server platform self subscribers site globalPrefix} in
theorem Tracks.mono {narrow wide : Browser κ → Step κ → Prop} {clock : Nat} {keycloak : κ}
    (tracks : Tracks server platform self subscribers site globalPrefix wide clock keycloak)
    (wider : ∀ browser step, narrow browser step → wide browser step) :
    Tracks server platform self subscribers site globalPrefix narrow clock keycloak :=
  fun browser reach => tracks browser (reach.mono wider)

end Browser

/-- Whatever the deployment, the browser's refresh cookie tracks its session in every run of orderly steps. -/
def TracksSession (self : AuthController) (subscribers : EmittedEvent → Except Thrown Unit) (site : Site)
    (globalPrefix : String) : Prop :=
  ∀ (κ : Type) (server : KeycloakServer κ) (platform : Platform) (options : Deployment) (clock : Nat)
    (keycloak : κ),
    Browser.Tracks server platform (self.deployed options) subscribers site globalPrefix
      (Browser.orderly server platform (self.deployed options) subscribers site globalPrefix) clock keycloak

/-- The subscribers of logins and logouts resolve, whoever the user is. -/
structure Resolves (subscribers : EmittedEvent → Except Thrown Unit) : Prop where
  loggedIn : ∀ id email, id ≠ "" → subscribers (.userLoggedIn id email) = .ok ()
  loggedOut : ∀ id, id ≠ "" → subscribers (.userLoggedOut id) = .ok ()

/-- The user that a response tells about. -/
def Response.user : Response → Option PublicUser
  | .login (.success _ user) => some user
  | .complete2FA _ user => some user
  | _ => none

/-- The event that goes with a session names the user of the response. -/
theorem AuthController.respond_event {self : AuthController} {request : Request}
    {sub : String} {response : Response}
    {tokens : SessionResponse} {event : EmittedEvent} (session : response.session = some tokens)
    (emitted : (self.respond request sub response).event = some event) :
    ∃ user, response.user = some user ∧ event = .userLoggedIn user.id user.email := by
  cases response with
  | login result =>
    cases result with
    | success tokens user => exact ⟨user, rfl, (Option.some.inj emitted).symm⟩
    | twoFactorRequired => cases session
  | complete2FA tokens user => exact ⟨user, rfl, (Option.some.inj emitted).symm⟩
  | refresh tokens => cases emitted
  | verifyMagicLink tokens => cases emitted
  | _ => cases session

theorem Response.session_of_user {response : Response} {user : PublicUser} (told : response.user = some user) :
    response.session ≠ none := by
  cases response with
  | login result => cases result <;> simp_all [Response.user, Response.session]
  | complete2FA tokens user => simp [Response.session]
  | _ => cases told

/-- A user that a response tells about is the one for whom its session was filed. -/
theorem Phase.returned_user {platform : Platform} {options : Deployment} {p : Nat} {request : Request}
    {history : List LogEntry} {response : Response} {user : PublicUser}
    (phase : Phase platform options p request history (.returned response)) (told : response.user = some user) :
    ∃ record saved, ⟨p, .store (.save record), .ok (), saved⟩ ∈ history ∧ (user.id = record.userId ∨
      ∃ account t, ⟨p, .auth (.getUserById record.userId), .ok account, t⟩ ∈ history ∧ user.id = account.id) := by
  have plainly (plain : PlainPhase p history (.returned response)) : False := by
    cases plain with
    | returned plain => exact Response.session_of_user told plain
  cases request with
  | login email password =>
    cases phase with
    | challenged => cases told
    | @returned before result t t' t'' secret now saved passed notEnrolled =>
      cases told
      exact ⟨freshRecord ⟨p, 0⟩ result.user.id .refreshToken result.refreshToken
        options.loginUseCase.refreshTokenTtlMs now, saved, by simp, .inl rfl⟩
  | complete2FA token code =>
    cases phase with
    | @returned record account issued t t' t'' t''' now saved =>
      cases told
      exact ⟨freshRecord ⟨p, 0⟩ record.userId .refreshToken issued.refreshToken
        options.refreshTokenTtlMs now, saved,
        by simp, .inr ⟨account, t''', by simp [freshRecord], rfl⟩⟩
  | verifyMagicLink token => cases phase with | returned => cases told
  | refresh token => cases phase with | returned => cases told
  | forgotPassword email => cases phase with | returned => cases told
  | sendMagicLink email => cases phase with | returned => cases told
  | resetPassword token newPassword => cases phase with | returned => cases told
  | logout token => cases phase with | returned => cases told
  | register email username password => exact (plainly phase).elim
  | setup2FA userId => exact (plainly phase).elim
  | verify2FA userId code => exact (plainly phase).elim

section
variable {κ : Type} {server : KeycloakServer κ} {platform : Platform} {options : Deployment} {clock : Nat}
  {keycloak : κ} {cfg : AuthConfig κ} {schedule : Schedule Plan} {request : Request} {response : Response}

/-- What a request was answered with stands on the log. -/
theorem result_phase
    (reach : (authSystem server platform options).Reach anyEvent (.start clock (.fresh keycloak)) cfg)
    (answered : (authSystem server platform options).result cfg schedule request = .ok response) :
    Phase platform options cfg.threads.length request
      (((authSystem server platform options).serve cfg schedule request).history cfg.threads.length)
      (.returned response) := by
  have served := reach.trans (System.serve_reach cfg schedule request)
  have phase := reach_phase served (List.getElem?_concat_length ..)
  have ended := answered
  simp only [System.result] at ended
  simpa only [Driven.state, ended, Suspended.view] using phase

/-- A session that is handed out has been signed before. -/
theorem result_session {tokens : SessionResponse}
    (reach : (authSystem server platform options).Reach anyEvent (.start clock (.fresh keycloak)) cfg)
    (answered : (authSystem server platform options).result cfg schedule request = .ok response)
    (session : response.session = some tokens) :
    ∃ user issuedAt, tokens.refreshToken = (issued options issuedAt user).refreshToken ∧
      issuedAt ≤ ((authSystem server platform options).serve cfg schedule request).clock := by
  obtain ⟨front, record, saved, history, before⟩ := (result_phase reach answered).returned_session session
  have filed : Saved ((authSystem server platform options).serve cfg schedule request).log record := by
    have own := history ▸ List.mem_concat_self
    exact ⟨_, (System.mem_history.mp own).1, rfl⟩
  rw [← before.token]
  exact reach_signed (reach.trans (System.serve_reach cfg schedule request)) filed before.typed

/-- The users that responses tell about have ids. -/
theorem result_user {user : PublicUser}
    (reach : (authSystem server platform options).Reach anyEvent (.start clock (.fresh keycloak)) cfg)
    (answered : (authSystem server platform options).result cfg schedule request = .ok response)
    (told : response.user = some user) : user.id ≠ "" := by
  obtain ⟨record, saved, filed, same⟩ := (result_phase reach answered).returned_user told
  have served := reach.trans (System.serve_reach cfg schedule request)
  have named : record.userId ≠ "" := reach_owner served ⟨_, (System.mem_history.mp filed).1, rfl⟩
  rcases same with same | ⟨account, t, looked, same⟩
  · exact same ▸ named
  · obtain ⟨plan, world, answer⟩ := reach_answered served (System.mem_history.mp looked).1
    obtain ⟨-, -, found⟩ := answerAuth_getUserById server platform options plan t _ world record.userId
    exact same ▸ (found account answer).1 ▸ named

end

/-- The cookies of a browser beside the latest token. -/
inductive InStep (self : AuthController) (scope : String × Bool) (now : Nat) : CookieStore Str → Option Str → Prop
  | empty : InStep self scope now [] none
  | cleared {expiry} : InStep self scope now [self.storedCookie scope (.lit "") expiry] none
  /-- The cookie lives as long as its token. -/
  | held {t exp expiry} (token : t.truthy = true) (expires : t.expires = some exp)
      (covers : ∀ later, now ≤ later → later / 1000 < exp → later ≤ expiry) :
      InStep self scope now [self.storedCookie scope t (some expiry)] (some t)

section
variable {self : AuthController} {site : Site} {scope : String × Bool} {now : Nat} {cookies : CookieStore Str}
  {latest : Option Str} {uriPath : String}

theorem InStep.later {later : Nat} (order : now ≤ later) (inStep : InStep self scope now cookies latest) :
    InStep self scope later cookies latest := by
  cases inStep with
  | empty => exact .empty
  | cleared => exact .cleared
  | held token expires covers => exact .held token expires fun time after => covers time (Nat.le_trans order after)

theorem AuthController.Writes.cookie {header : SetCookie Str} (writes : self.Writes header) :
    header.cookie site now uriPath =
      (self.scope site).map fun scope => self.storedCookie scope header.value (header.expiryTime now) := by
  obtain ⟨name, path, domain, secure⟩ := writes
  have named : header.domainAttribute = (clearCookie "refreshToken" self.baseCookieOptions).domainAttribute := by
    rw [SetCookie.domainAttribute, domain]
    rfl
  simp only [SetCookie.cookie, named, AuthController.scope, AuthController.storedCookie, SetCookie.cookiePath, name,
    path, secure]
  rfl

/-- A cookie that the controller sets replaces the one that is there. -/
theorem receive_own {header : SetCookie Str} {later : Nat} (accepted : self.scope site = some scope)
    (own : cookies = [] ∨ ∃ value expiry, cookies = [self.storedCookie scope value expiry])
    (writes : self.Writes header) :
    cookies.receive site later uriPath [header] = [self.storedCookie scope header.value
      (header.expiryTime later)] := by
  rw [CookieStore.receive, List.foldl_cons, List.foldl_nil, writes.cookie, accepted]
  rcases own with rfl | ⟨value, expiry, rfl⟩
  · rfl
  · exact CookieStore.add_of_sameKey (by simp [Cookie.sameKey, AuthController.storedCookie])

theorem InStep.own (inStep : InStep self scope now cookies latest) :
    cookies = [] ∨ ∃ value expiry, cookies = [self.storedCookie scope value expiry] := by
  cases inStep with
  | empty => exact .inl rfl
  | cleared => exact .inr ⟨_, _, rfl⟩
  | held => exact .inr ⟨_, _, rfl⟩

/-- A session that was just signed is covered by the cookie that it is put into. -/
theorem InStep.set (self : AuthController) (scope : String × Bool) {user : User} {issuedAt now : Nat}
    (order : issuedAt ≤ now) :
    ∃ expiry,
      (self.setRefreshCookie (issued self.options issuedAt user).refreshToken).expiryTime now = some expiry ∧
      InStep self scope now [self.storedCookie scope (issued self.options issuedAt user).refreshToken (some expiry)]
        (some (issued self.options issuedAt user).refreshToken) := by
  have age : (self.setRefreshCookie (issued self.options issuedAt user).refreshToken).maxAge =
      some self.options.jwt.refreshToken.expiresIn := by
    simp [AuthController.setRefreshCookie, setCookie, AuthController.refreshCookieOptions]
  simp only [SetCookie.expiryTime, age]
  refine ⟨_, rfl, .held rfl rfl fun later after unexpired => ?_⟩
  split <;> omega

end

section
variable {κ : Type} {server : KeycloakServer κ} {platform : Platform} {options : Deployment} {clock : Nat}
  {keycloak : κ} {cfg : AuthConfig κ} {schedule : Schedule Plan} {request : Request} {response : Response} {t : Str}

/-- A request that is served alone consumes no record of a token that it does not present. -/
theorem Rotated.before_serve
    (reach : (authSystem server platform options).Reach anyEvent (.start clock (.fresh keycloak)) cfg)
    (other : ¬ request.Presents t)
    (rotated : Rotated t ((authSystem server platform options).serve cfg schedule request).shared.store) :
    Rotated t cfg.shared.store := by
  refine rotated.before reach (System.serve_reach cfg schedule request) fun entry member thread found => ?_
  obtain ⟨history, logged, own⟩ := System.serve_log (S := authSystem server platform options) cfg schedule request
  rw [logged, List.drop_left] at member
  rw [own entry member] at found
  cases Option.some.inj ((List.getElem?_concat_length ..).symm.trans found)
  exact other

/-- A refresh that fails while Keycloak works has consumed a record only of a token that has expired. -/
theorem Rotated.before_refused {error : Thrown}
    (reach : (authSystem server platform options).Reach anyEvent (.start clock (.fresh keycloak)) cfg)
    (works : ∀ id, t.subject = some id → ∀ index, Reaches server cfg.shared.keycloak id (schedule index).2)
    (failed : (authSystem server platform options).result cfg schedule (.refresh t) = .error error)
    (rotated : Rotated t ((authSystem server platform options).serve cfg schedule (.refresh t)).shared.store) :
    Rotated t cfg.shared.store ∨
      Lapsed t ((authSystem server platform options).serve cfg schedule (.refresh t)).clock := by
  have ran := (serve_refresh server platform options
    (fun plan => ∀ id, t.subject = some id → Reaches server cfg.shared.keycloak id plan) t cfg schedule
    fun index id subject => works id subject index).1
  rw [failed] at ran
  generalize ((authSystem server platform options).serve cfg schedule (.refresh t)).clock = now at ran ⊢
  generalize ((authSystem server platform options).serve cfg schedule (.refresh t)).shared.store =
    after at ran rotated
  generalize ended : (Except.error error : Except Thrown Response) = result at ran
  cases ran with
  | unknown absent => exact .inl rotated
  | reused =>
    refine .inl (rotated.of_subset ?_)
    rw [deleteAllForUser_records]
    exact List.filter_subset_self _
  | expired => exact .inl rotated
  | @failed record _ _ marked asked plan world found unused fine same order refused =>
    obtain ⟨user, issuedAt, rfl, -, named, -⟩ := reach_found_session reach found
    refine .inr ⟨_, rfl, ?_⟩
    by_contra unexpired
    obtain ⟨tokens, accepted⟩ := answerAuth_refreshToken_works platform cfg.threads.length (same ▸ fine user.id rfl)
      named (show asked / 1000 < issuedAt / 1000 + options.jwt.refreshToken.expiresIn by omega)
    cases refused.symm.trans accepted
  | rotated => cases ended

/-- A refresh or a logout does not go without an end of the session or a new one. -/
theorem Request.Presents.renews (presents : request.Presents t)
    (answered : (authSystem server platform options).result cfg schedule request = .ok response) :
    response.session.isSome = true ∨ response = .loggedOut := by
  have kind := result_answers answered
  rcases presents with rfl | rfl
  · cases kind
    exact .inl rfl
  · cases kind
    exact .inr rfl

end

namespace Browser
variable {κ : Type} {server : KeycloakServer κ} {platform : Platform} {self : AuthController}
  {subscribers : EmittedEvent → Except Thrown Unit} {site : Site} {globalPrefix : String}
  {permitted : Browser κ → Step κ → Prop} {clock : Nat} {keycloak : κ} {browser : Browser κ}

section
variable (server platform self site globalPrefix) (browser : Browser κ) (schedule : Schedule Plan) (action : Action)
  (bearer : Option Str)

/-- What a request of the browser comes to where the subscribers of logins and logouts resolve: the session that it
gets, and the browser after it. -/
inductive Sends : Option SessionResponse → Browser κ → Prop
  | idle : Sends none browser
  | loggedOut {cfg} (order : browser.cfg.clock ≤ cfg.clock) :
      Sends none ⟨cfg, browser.cookies.receive site cfg.clock (mounted globalPrefix action.path)
        [clearCookie "refreshToken" self.baseCookieOptions], none⟩
  | served {request sub}
      (dispatched : self.dispatch ⟨action, bearer, browser.cookies.header site browser.cfg.clock
        (mounted globalPrefix action.path)⟩ browser.cfg.clock = .ok (.useCase request sub))
      (closed : ∀ response, (authSystem server platform self.options).result browser.cfg schedule request =
        .ok response → response.session = none ∧ response ≠ .loggedOut) :
      Sends none ⟨(authSystem server platform self.options).serve browser.cfg schedule request, browser.cookies,
        browser.latest⟩
  | opened {request sub response tokens}
      (dispatched : self.dispatch ⟨action, bearer, browser.cookies.header site browser.cfg.clock
        (mounted globalPrefix action.path)⟩ browser.cfg.clock = .ok (.useCase request sub))
      (answered : (authSystem server platform self.options).result browser.cfg schedule request = .ok response)
      (session : response.session = some tokens) :
      Sends (some tokens) ⟨(authSystem server platform self.options).serve browser.cfg schedule request,
        browser.cookies.receive site
          ((authSystem server platform self.options).serve browser.cfg schedule request).clock
          (mounted globalPrefix action.path) [self.setRefreshCookie tokens.refreshToken], some tokens.refreshToken⟩

variable {server platform self browser} in
theorem sends (resolves : Resolves subscribers)
    (run : (authSystem server platform self.options).Reach anyEvent (.start clock (.fresh keycloak)) browser.cfg)
    (timestamp : Nat) :
    Sends server platform self site globalPrefix browser schedule action bearer
      (browser.exchange server platform self subscribers site globalPrefix schedule timestamp action bearer).issued
      (browser.send server platform self subscribers site globalPrefix schedule timestamp action bearer) := by
  have answers := browser.exchange_answers server platform self subscribers site globalPrefix schedule timestamp
    action bearer
  have out (user : String) (named : user ≠ "") : (self.logout user).finish subscribers timestamp =
      ⟨200, .message "Logged out successfully", [clearCookie "refreshToken" self.baseCookieOptions]⟩ := by
    refine Handled.finish_of_resolves _ ?_ timestamp
    rintro _ ⟨⟩
    exact resolves.loggedOut _ named
  unfold Browser.send
  generalize browser.exchange server platform self subscribers site globalPrefix schedule timestamp action bearer =
    answered at answers
  cases answers with
  | refused failed plain =>
    simp only [failed, plain]
    exact .idle
  | @cleared user logout named =>
    cases (show action = .logout from logout)
    rw [out user named]
    exact .loggedOut (Nat.le_refl _)
  | @rejected request sub thrown dispatched failed =>
    simp only [rejected_ok, rejected_cookies]
    exact .served dispatched fun response answered => by cases failed.symm.trans answered
  | @responded request response sub dispatched named logout answered =>
    by_cases closes : response = .loggedOut
    · subst closes
      cases (show action = .logout from logout.mpr rfl)
      rw [AuthController.respond, out sub (named rfl)]
      exact .loggedOut (System.serve_reach (S := authSystem server platform self.options) browser.cfg schedule
        request).clock_le
    have other : action ≠ .logout := fun same => closes (logout.mp same)
    simp only [other, if_false, Handled.finish_cookies]
    rcases self.respond_cookies request sub response with
      ⟨tokens, session, cookies⟩ | ⟨none, ⟨_, cookies⟩ | ⟨no, _⟩⟩
    · have logsIn (event : EmittedEvent) (emitted : (self.respond request sub response).event = some event) :
          subscribers event = .ok () := by
        obtain ⟨user, told, rfl⟩ := AuthController.respond_event session emitted
        exact resolves.loggedIn _ _ (result_user run answered told)
      have ok : HttpResponse.ok ⟨(self.respond request sub response).status,
          (self.respond request sub response).body, (self.respond request sub response).cookies⟩ = true := by
        rcases self.respond_status request sub response with status | status <;> simp [HttpResponse.ok, status]
      rw [Handled.finish_of_resolves _ logsIn, ok, cookies, session]
      exact .opened dispatched answered session
    · simp only [none, cookies]
      have closed (again : Response) (same : (authSystem server platform self.options).result browser.cfg schedule
          request = .ok again) : again.session = Option.none ∧ again ≠ .loggedOut := by
        cases answered.symm.trans same
        exact ⟨none, closes⟩
      simpa using Sends.served dispatched closed
    · exact absurd no closes

end

/-- In step with the server, as long as the subscribers of logins and logouts resolve. -/
theorem Reach.inStep {scope : String × Bool} (accepted : self.scope site = some scope)
    (resolves : Resolves subscribers)
    (reach : Reach server platform self subscribers site globalPrefix permitted (.start clock (.fresh keycloak))
      browser) : InStep self scope browser.cfg.clock browser.cookies browser.latest := by
  induction reach with
  | start => exact .empty
  | @next browser step _ reach ih =>
    cases step with
    | tick delay => exact ih.later (Nat.le_add_right ..)
    | disturb change => exact ih
    | others schedule request => exact ih.later (System.serve_reach _ schedule request).clock_le
    | send schedule timestamp action bearer =>
      have sends := sends site globalPrefix schedule action bearer resolves reach.run timestamp
      rw [Browser.next]
      generalize (browser.exchange server platform self subscribers site globalPrefix schedule timestamp action
        bearer).issued = issued at sends
      generalize browser.send server platform self subscribers site globalPrefix schedule timestamp action bearer =
        after at sends
      cases sends with
      | idle => exact ih
      | loggedOut order =>
        rw [receive_own accepted ih.own AuthController.writes_clearCookie]
        exact .cleared
      | served => exact ih.later (System.serve_reach (S := authSystem server platform self.options) ..).clock_le
      | opened dispatched answered session =>
        obtain ⟨user, issuedAt, token, order⟩ := result_session reach.run answered session
        obtain ⟨expiry, lives, inStep⟩ := InStep.set self scope order
        rw [receive_own accepted ih.own (AuthController.writes_setRefreshCookie _), token, lives]
        exact inStep

/-- By induction on the run: where nobody but the browser presents its latest token, no record of the token is
consumed before it expires. -/
theorem Reach.unused (resolves : Resolves subscribers)
    (reach : Reach server platform self subscribers site globalPrefix
      (orderly server platform self subscribers site globalPrefix) (.start clock (.fresh keycloak)) browser) :
    ∀ t, browser.latest = some t → Rotated t browser.cfg.shared.store → Lapsed t browser.cfg.clock := by
  induction reach with
  | start => exact fun _ no => by cases no
  | @next browser step allowed reach ih =>
    cases step with
    | tick delay => exact fun t latest rotated => (ih t latest rotated).later (Nat.le_add_right ..)
    | disturb change =>
      exact fun t latest rotated => ih t latest (rotated.of_subset fun _ member =>
        disturb_records server platform self.options member)
    | others schedule request =>
      intro t latest rotated
      exact (ih t latest (rotated.before_serve reach.run (allowed t latest))).later
        (System.serve_reach (S := authSystem server platform self.options) ..).clock_le
    | send schedule timestamp action bearer =>
      have sends := sends site globalPrefix schedule action bearer resolves reach.run timestamp
      have orderly := allowed
      simp only [Browser.orderly] at orderly
      rw [Browser.next]
      generalize (browser.exchange server platform self subscribers site globalPrefix schedule timestamp action
        bearer).issued = issued at sends orderly
      generalize browser.send server platform self subscribers site globalPrefix schedule timestamp action bearer =
        after at sends
      cases sends with
      | idle => exact ih
      | loggedOut => exact fun _ no => by cases no
      | @served request sub dispatched closed =>
        intro t latest rotated
        have later : browser.cfg.clock ≤ _ :=
          (System.serve_reach (S := authSystem server platform self.options) browser.cfg schedule request).clock_le
        by_cases presents : request.Presents t
        swap
        · exact (ih t latest (rotated.before_serve reach.run presents)).later later
        cases answered : (authSystem server platform self.options).result browser.cfg schedule request with
        | ok response =>
          obtain ⟨none, still⟩ := closed response answered
          rcases presents.renews answered with renewed | out
          · simp [none] at renewed
          · exact absurd out still
        | error thrown =>
          rcases presents with rfl | rfl
          · rcases rotated.before_refused reach.run (fun id => (orderly _ _ dispatched).2 t id rfl) answered with
              before | lapsed
            · exact (ih t latest before).later later
            · exact lapsed
          · cases (serve_logout server platform self.options browser.cfg schedule t).1.symm.trans answered
      | @opened request sub response tokens dispatched answered session =>
        rintro _ ⟨⟩ ⟨record, member, hashed, typed, used⟩
        have served := reach.run.trans (System.serve_reach browser.cfg schedule request)
        obtain ⟨first, found, consumed⟩ := reach_first_consumed served member hashed used
        obtain ⟨issued, stands, reissued⟩ := (serve_issues answered session).found fun _ member =>
          reach_unused_id reach.run member
        rw [typed, stands] at found
        cases found
        exact absurd (reissued.mp consumed) ((orderly _ _ dispatched).1 tokens rfl)

/-- What is sent to the refresh route, as long as it has not expired. -/
theorem header_storedCookie {scope : String × Bool} (delivers : self.Delivers site globalPrefix)
    (accepted : self.scope site = some scope) (value : Str) (expiry : Option Nat) (now : Nat) :
    CookieStore.header [self.storedCookie scope value expiry] site now (mounted globalPrefix Action.refresh.path) =
      if expiry.all (now ≤ ·) then [("refreshToken", value)] else [] := by
  have belongs : (self.storedCookie scope value expiry).belongsTo site = true := by
    rw [CookieStore.belongsTo_of_scope accepted rfl rfl, AuthController.storedCookie]
    cases flag : self.baseCookieOptions.secure with
    | false => rfl
    | true => exact delivers.secure flag
  rw [CookieStore.header_singleton, belongs, Bool.true_and]
  simp only [AuthController.storedCookie, delivers.under, Bool.and_true, Cookie.alive]

/-- Where the user agent withholds the controller's cookies, the refresh route gets none. -/
theorem Reach.carried_none (withheld : ¬ self.Delivers site globalPrefix)
    (reach : Reach server platform self subscribers site globalPrefix permitted (.start clock (.fresh keycloak))
      browser) : browser.carried site globalPrefix = none := by
  have bare : browser.cookies.header site browser.cfg.clock (mounted globalPrefix Action.refresh.path) = [] := by
    refine CookieStore.header_eq_nil fun cookie member belongs => ?_
    obtain ⟨header, now, uriPath, writes, set⟩ := reach.cookies cookie member
    rw [writes.cookie] at set
    obtain ⟨scope, accepted, rfl⟩ := Option.map_eq_some_iff.mp set
    rw [CookieStore.belongsTo_of_scope accepted rfl rfl] at belongs
    refine Bool.eq_false_iff.mpr fun under => withheld ⟨under, by rw [accepted]; rfl, fun secure => ?_⟩
    simpa [AuthController.storedCookie, secure] using belongs
  rw [carried, bare]
  rfl

variable (server platform self subscribers site globalPrefix)

/-- A logout is orderly. -/
theorem orderly_logout (schedule : Schedule Plan) (timestamp : Nat) (bearer : Option Str) :
    orderly server platform self subscribers site globalPrefix browser
      (.send schedule timestamp .logout bearer) := by
  intro request sub dispatched
  have answers := browser.exchange_answers server platform self subscribers site globalPrefix schedule timestamp
    .logout bearer
  generalize browser.exchange server platform self subscribers site globalPrefix schedule timestamp .logout bearer =
    answered at answers
  constructor
  · intro tokens issued
    cases answers with
    | refused => cases issued
    | cleared => cases issued
    | rejected => cases issued
    | responded _ _ logout =>
      obtain rfl := logout.mp rfl
      cases issued
  · rintro t id rfl
    have dispatches := @AuthController.dispatches self ⟨.logout, bearer,
      browser.cookies.header site browser.cfg.clock (mounted globalPrefix Action.logout.path)⟩ browser.cfg.clock
    rw [dispatched] at dispatches
    cases dispatches with
    | other notLogout => exact absurd rfl notLogout

/-- So is another request than a refresh as long as no session is on file. -/
theorem orderly_first {schedule : Schedule Plan} {timestamp : Nat} {action : Action} {bearer : Option Str}
    {request : Request} {sub : String}
    (dispatched : self.dispatch ⟨action, bearer, browser.cookies.header site browser.cfg.clock
      (mounted globalPrefix action.path)⟩ browser.cfg.clock = .ok (.useCase request sub))
    (other : ∀ t, request ≠ .refresh t)
    (first : ∀ record ∈ browser.cfg.shared.store.records, record.type ≠ .refreshToken) :
    orderly server platform self subscribers site globalPrefix browser
      (.send schedule timestamp action bearer) := by
  intro _ _ again
  cases dispatched.symm.trans again
  refine ⟨fun tokens _ => ?_, fun t _ same => absurd same (other t)⟩
  rintro (same | ⟨record, found, -⟩)
  · exact other _ same
  · obtain ⟨member, -, typed⟩ := findByToken_spec found
    exact first record member typed

/-- What a response with a session does to a browser. -/
theorem send_session {schedule : Schedule Plan} (timestamp : Nat) (browser : Browser κ) (action : Action)
    (bearer : Option Str) {request : Request} {sub : String} {response : Response} {tokens : SessionResponse}
    (dispatched : self.dispatch ⟨action, bearer, browser.cookies.header site browser.cfg.clock
      (mounted globalPrefix action.path)⟩ browser.cfg.clock = .ok (.useCase request sub))
    (answered : (authSystem server platform self.options).result browser.cfg schedule request = .ok response)
    (session : response.session = some tokens) (other : action ≠ .logout) :
    let after := browser.send server platform self subscribers site globalPrefix schedule timestamp action bearer
    after.cfg = (authSystem server platform self.options).serve browser.cfg schedule request ∧
      after.cookies = browser.cookies.receive site
        ((authSystem server platform self.options).serve browser.cfg schedule request).clock
        (mounted globalPrefix action.path) [self.setRefreshCookie tokens.refreshToken] ∧
      after.latest = if ((self.respond request sub response).finish subscribers timestamp).ok
        then some tokens.refreshToken else browser.latest := by
  have cookies : (self.respond request sub response).cookies = [self.setRefreshCookie tokens.refreshToken] := by
    rcases self.respond_cookies request sub response with ⟨_, same, set⟩ | ⟨none, _⟩
    · cases session.symm.trans same
      exact set
    · cases none.symm.trans session
  simp only [send, exchange, AuthController.answer, dispatched, answered, Handled.finish_cookies, cookies, other,
    if_false, session]
  refine ⟨trivial, trivial, ?_⟩
  cases ((self.respond request sub response).finish subscribers timestamp).ok <;> rfl

/-- A logout that no subscriber lets through clears the cookie all the same. -/
theorem send_logout_rejected {schedule : Schedule Plan} (timestamp : Nat) {browser : Browser κ}
    (bearer : Option Str) {user : TokenPayload} {thrown : Thrown} {scope : String × Bool} {value : Str} {expiry : Option Nat}
    (accepted : self.scope site = some scope) (instant : ∀ index, (schedule index).1 = 0)
    (admitted : JwtAuthGuard.canActivate self.options.jwt bearer browser.cfg.clock = .ok user)
    (rejects : subscribers (.userLoggedOut user.sub) = .error thrown)
    (one : browser.cookies = [self.storedCookie scope value expiry]) :
    let after := browser.send server platform self subscribers site globalPrefix schedule timestamp .logout bearer
    after.cfg.clock = browser.cfg.clock ∧ after.latest = browser.latest ∧
      after.cookies = [self.storedCookie scope (.lit "") (some 0)] := by
  have failed : ((self.logout user.sub).finish subscribers timestamp).ok = false := by
    simp [AuthController.logout, Handled.finish, rejects, rejected_ok]
  have cleared (later : Nat) : browser.cookies.receive site later (mounted globalPrefix Action.logout.path)
      ((self.logout user.sub).finish subscribers timestamp).cookies =
        [self.storedCookie scope (.lit "") (some 0)] := by
    rw [Handled.finish_cookies]
    exact receive_own accepted (.inr ⟨_, _, one⟩) AuthController.writes_clearCookie
  rcases AuthController.dispatch_logout admitted (browser.cookies.header site browser.cfg.clock
    (mounted globalPrefix Action.logout.path)) with dispatched | ⟨token, dispatched⟩
  · simp only [send, exchange, AuthController.answer, dispatched, failed]
    exact ⟨trivial, rfl, cleared _⟩
  · have answered := (serve_logout server platform self.options browser.cfg schedule token).1
    simp only [send, exchange, AuthController.answer, dispatched, answered, AuthController.respond, failed]
    exact ⟨System.serve_clock _ instant _, rfl, cleared _⟩

variable {server platform self subscribers site globalPrefix} in
theorem not_carries_of_lost {t : Str} {exp : Nat} (lost : browser.carried site globalPrefix = none)
    (latest : browser.latest = some t) (expires : t.expires = some exp)
    (unexpired : browser.cfg.clock / 1000 < exp) :
    ¬ browser.Carries site globalPrefix := by
  rintro (same | ⟨-, t', latest', exp', expires', past⟩)
  · rw [lost, latest] at same
    cases same
  · cases latest.symm.trans latest'
    cases expires.symm.trans expires'
    exact absurd unexpired (Nat.not_lt.mpr past)

end Browser

namespace Sample

theorem promptly_instant (index : Nat) : (promptly index).1 = 0 := rfl

/-- Ann has been sent a magic link. -/
def lured : Browser Realm := ⟨system.serve start promptly (.sendMagicLink "ann@mail"), [], none⟩

/-- A Keycloak with one account, which is let in with any password. -/
def lone (id email : String) (named : id ≠ "") : KeycloakServer Unit where
  clientCredentials _ := .ok ⟨"admin", 60⟩
  passwordGrant _ _ _ := .ok ()
  usersByEmail _ _ := .ok [⟨some id, none, some email, none, none, none, none⟩]
  userById _ id := .ok ⟨some id, none, some email, none, none, none, none⟩
  createUser _ _ := .ok ()
  resetPassword _ _ _ := .ok ()
  sendVerifyEmail _ _ := .ok ()
  logout _ _ := .ok ()
  userById_id := by
    rintro _ id _ ⟨⟩
    rfl
  usersByEmail_id := by
    rintro _ _ _ ⟨⟩ user member
    cases List.mem_singleton.mp member
    exact ⟨id, rfl, named⟩

/-- What its user is issued at the very beginning. -/
def loneTokens (id email : String) : SessionResponse :=
  (issued options 0
    (KeycloakAuthProvider.kcUserToUser ⟨some id, none, some email, none, none, none, none⟩ 0)).session

def newcomer : Browser Unit := ⟨.start 0 (.fresh ()), [], none⟩

theorem lone_login {id email : String} (named : id ≠ "") :
    (authSystem (lone id email named) platform options).result newcomer.cfg promptly (.login email "") =
      .ok (.login (.success (loneTokens id email) ⟨id, email, ""⟩)) := by
  rfl

section
variable (self : AuthController) (subscribers : EmittedEvent → Except Thrown Unit)
  (site : Site) (globalPrefix : String)
  {id : String} (email : String) (named : id ≠ "")

def loneBearer (id : String) : Str :=
  .jwt options.jwt.accessToken.secret (JwtTokenService.claims ⟨id, "", "", none, none, none⟩ .access
    options.jwt.accessToken.expiresIn 0)

/-- The user has logged in. -/
def loneBrowser : Browser Unit :=
  newcomer.send (lone id email named) platform (self.deployed options) subscribers site globalPrefix promptly 0
    (.login email "") none

theorem lone_dispatch : (self.deployed options).dispatch ⟨.login email "", none, newcomer.cookies.header site
    newcomer.cfg.clock (mounted globalPrefix (Action.login email "").path)⟩ newcomer.cfg.clock =
      .ok (.useCase (.login email "") "") := rfl

theorem loneBrowser_reach :
    Browser.Reach (lone id email named) platform (self.deployed options) subscribers site globalPrefix
      (Browser.orderly (lone id email named) platform (self.deployed options) subscribers site globalPrefix)
      (.start 0 (.fresh ())) (loneBrowser self subscribers site globalPrefix email named) :=
  .next (.send promptly 0 (.login email "") none) (Browser.orderly_first _ _ _ _ _ _
    (lone_dispatch self site globalPrefix email) (by simp) (by simp [newcomer, Config.start, World.fresh])) .start

theorem loneBrowser_fields {scope : String × Bool} (accepted : self.scope site = some scope) :
    let browser := loneBrowser self subscribers site globalPrefix email named
    browser.cfg.clock = 0 ∧
      (∃ expiry, browser.cookies = [(self.deployed options).storedCookie scope (loneTokens id email).refreshToken
        expiry]) ∧
      browser.latest = if (subscribers (.userLoggedIn id email)).isOk then some (loneTokens id email).refreshToken
        else none := by
  obtain ⟨cfg, cookies, latest⟩ := Browser.send_session (lone id email named) platform (self.deployed options)
    subscribers site globalPrefix 0 newcomer (.login email "") none (lone_dispatch self site globalPrefix email)
    (lone_login named) rfl (by simp)
  have clock : ((authSystem (lone id email named) platform options).serve newcomer.cfg promptly
      (.login email "")).clock = 0 := System.serve_clock _ promptly_instant _
  have own : newcomer.cookies.receive site 0 (mounted globalPrefix (Action.login email "").path)
      [(self.deployed options).setRefreshCookie (loneTokens id email).refreshToken] =
        [(self.deployed options).storedCookie scope (loneTokens id email).refreshToken
          (((self.deployed options).setRefreshCookie (loneTokens id email).refreshToken).expiryTime 0)] :=
    receive_own accepted (.inl rfl) (AuthController.writes_setRefreshCookie _)
  change _ = (authSystem (lone id email named) platform options).serve newcomer.cfg promptly (.login email "") at cfg
  change _ = newcomer.cookies.receive site ((authSystem (lone id email named) platform options).serve newcomer.cfg
    promptly (.login email "")).clock _ _ at cookies
  rw [clock] at cookies
  refine ⟨(congrArg Config.clock cfg).trans clock, ⟨_, cookies.trans own⟩, latest.trans ?_⟩
  have event : ((self.deployed options).loggedIn (loneTokens id email) ⟨id, email, ""⟩).event =
      some (.userLoggedIn id email) := rfl
  cases answer : subscribers (.userLoggedIn id email) with
  | ok =>
    simp only [AuthController.respond, AuthController.login, Handled.finish, event, Option.elim, answer]
    rfl
  | error thrown =>
    simp only [AuthController.respond, AuthController.login, Handled.finish, event, Option.elim, answer,
      rejected_ok]
    rfl

end

/-- A session that was opened by a magic link is carried only where the user agent sends the cookie to the refresh
route. -/
theorem not_tracks_withheld (self : AuthController) (subscribers : EmittedEvent → Except Thrown Unit) {site : Site}
    {globalPrefix : String} (withheld : ¬ (self.deployed options).Delivers site globalPrefix) :
    ¬ Browser.Tracks Realm.server platform (self.deployed options) subscribers site globalPrefix
      (Browser.orderly Realm.server platform (self.deployed options) subscribers site globalPrefix) 1000 realm := by
  intro tracks
  have answered : system.result lured.cfg promptly (.verifyMagicLink (.random ⟨0, 0⟩)) =
      .ok (.verifyMagicLink (tokens ann 1000)) := rfl
  have links : ∀ record ∈ lured.cfg.shared.store.records, record.type ≠ .refreshToken := by decide +kernel
  have reach : Browser.Reach Realm.server platform (self.deployed options) subscribers site globalPrefix
      (Browser.orderly Realm.server platform (self.deployed options) subscribers site globalPrefix) start
      (lured.send Realm.server platform (self.deployed options) subscribers site globalPrefix promptly 0
        (.verifyMagicLink (.random ⟨0, 0⟩)) none) :=
    .next (.send promptly 0 (.verifyMagicLink (.random ⟨0, 0⟩)) none)
      (Browser.orderly_first _ _ _ _ _ _ rfl (by simp) links)
      (.next (.others promptly (.sendMagicLink "ann@mail")) (fun _ no => by cases no) .start)
  obtain ⟨carries, -⟩ := tracks _ reach
  have lost := reach.carried_none withheld
  obtain ⟨cfg, -, latest⟩ := Browser.send_session Realm.server platform (self.deployed options) subscribers site
    globalPrefix 0 lured (.verifyMagicLink (.random ⟨0, 0⟩)) none rfl answered rfl (by decide)
  have clock : (system.serve lured.cfg promptly (.verifyMagicLink (.random ⟨0, 0⟩))).clock = lured.cfg.clock :=
    System.serve_clock _ promptly_instant _
  have unexpired : (lured.send Realm.server platform (self.deployed options) subscribers site globalPrefix
      promptly 0 (.verifyMagicLink (.random ⟨0, 0⟩)) none).cfg.clock / 1000 < 604801 := by
    have start : lured.cfg.clock = 1000 := System.serve_clock _ promptly_instant _
    rw [cfg]
    exact (clock.trans start) ▸ (by decide : 1000 / 1000 < 604801)
  exact Browser.not_carries_of_lost lost latest rfl unexpired carries

end Sample

namespace TracksSession
open Sample
variable {self : AuthController} {subscribers : EmittedEvent → Except Thrown Unit}
  {site : Site} {globalPrefix : String}

theorem delivers (tracks : TracksSession self subscribers site globalPrefix) :
    (self.deployed options).Delivers site globalPrefix := by
  by_contra withheld
  exact not_tracks_withheld self subscribers withheld (tracks Realm Realm.server platform options 1000 realm)

theorem loggedIn (tracks : TracksSession self subscribers site globalPrefix) {id email : String} (named : id ≠ "") :
    subscribers (.userLoggedIn id email) = .ok () := by
  cases rejects : subscribers (.userLoggedIn id email) with
  | ok => rfl
  | error thrown =>
    obtain ⟨scope, accepted⟩ := Option.isSome_iff_exists.mp tracks.delivers.accepted
    obtain ⟨clock, ⟨expiry, cookies⟩, latest⟩ :=
      loneBrowser_fields self subscribers site globalPrefix email named accepted
    obtain ⟨carries, -⟩ := tracks _ _ _ _ _ _ _ (loneBrowser_reach self subscribers site globalPrefix email named)
    rw [rejects] at latest
    have carried : (loneBrowser self subscribers site globalPrefix email named).carried site globalPrefix =
        some (loneTokens id email).refreshToken := by
      have alive : expiry.all (0 ≤ ·) = true := by cases expiry <;> simp
      rw [Browser.carried, cookies, clock, Browser.header_storedCookie tracks.delivers accepted, alive]
      rfl
    rcases carries with same | ⟨none, _⟩
    · cases carried.symm.trans (same.trans latest)
    · cases carried.symm.trans none

theorem loggedOut (tracks : TracksSession self subscribers site globalPrefix) {id : String} (named : id ≠ "") :
    subscribers (.userLoggedOut id) = .ok () := by
  cases rejects : subscribers (.userLoggedOut id) with
  | ok => rfl
  | error thrown =>
    obtain ⟨scope, accepted⟩ := Option.isSome_iff_exists.mp tracks.delivers.accepted
    obtain ⟨clock, ⟨expiry, cookies⟩, latest⟩ :=
      loneBrowser_fields self subscribers site globalPrefix "" named accepted
    rw [tracks.loggedIn named] at latest
    have reach := loneBrowser_reach self subscribers site globalPrefix "" named
    generalize loneBrowser self subscribers site globalPrefix "" named = browser at clock cookies latest reach
    have admitted : JwtAuthGuard.canActivate options.jwt (some (loneBearer id)) 0 = .ok _ :=
      AuthController.canActivate_signed options.jwt ⟨id, "", "", none, none, none⟩ named (by decide) 0
    obtain ⟨later, same, cleared⟩ := Browser.send_logout_rejected (lone id "" named) platform
      (self.deployed options) subscribers site globalPrefix 0 (some (loneBearer id)) accepted promptly_instant
      (clock.symm ▸ admitted) rejects cookies
    obtain ⟨carries, -⟩ := tracks _ _ _ _ _ _ _ (reach.next (.send promptly 0 .logout (some (loneBearer id)))
      (Browser.orderly_logout _ _ _ _ _ _ promptly 0 (some (loneBearer id))))
    refine (Browser.not_carries_of_lost ?_ (same.trans latest) rfl ?_ carries).elim
    · rw [Browser.carried, cleared, Browser.header_storedCookie tracks.delivers accepted]
      split <;> rfl
    · rw [later, clock]
      decide

end TracksSession

namespace Sample

end Sample

end KeycloakAuth
