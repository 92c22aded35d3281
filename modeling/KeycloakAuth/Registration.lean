import KeycloakAuth.Rotation
import KeycloakAuth.Controller
import KeycloakAuth.Async.Inline

namespace KeycloakAuth
open Async KeycloakAuthProvider

/-- The method of the provider behind a call. -/
def AuthCall.method (platform : Platform) (options : Deployment) : (call : AuthCall) → Method call.Ans
  | .register req => KeycloakAuthProvider.register platform req
  | .authenticate email password => KeycloakAuthProvider.authenticate platform options.jwt email password
  | .refreshToken token => KeycloakAuthProvider.refreshToken platform options.jwt token
  | .logout token => KeycloakAuthProvider.logout token
  | .completePasswordReset userId newPassword =>
    KeycloakAuthProvider.completePasswordReset platform userId newPassword
  | .getUserById id => KeycloakAuthProvider.getUserById platform id
  | .getUserByEmail email => KeycloakAuthProvider.getUserByEmail platform email
  | .setup2FA userId => KeycloakAuthProvider.setup2FA userId
  | .verify2FA userId code => KeycloakAuthProvider.verify2FA platform userId code
  | .sendVerifyEmail userId => KeycloakAuthProvider.sendVerifyEmail platform userId
  | .issueTokens userId => KeycloakAuthProvider.issueTokens platform options.jwt userId

/-- In one step a call does what its method does in one instant. -/
theorem answerAuth_eq_method {κ : Type} (server : KeycloakServer κ) (platform : Platform) (options : Deployment)
    (plan : Plan) (now request : Nat) (call : AuthCall) (world : World κ) :
    answerAuth server platform options plan now request call world =
      evalMethod server plan now request (call.method platform options) world := by
  cases call <;> rfl

/-- The calls of a use case carried out by the provider's own calls. The other services are not called by a
registration, so what they do is left open. -/
def carriedOut (platform : Platform) (options : Deployment) (others : (call : Call) → Method call.Ans) :
    (call : Call) → Method call.Ans
  | .auth call => call.method platform options
  | call => others call

/-- `RegisterUseCase.execute` down to the provider's own calls. -/
def registration (platform : Platform) (options : Deployment) (others : (call : Call) → Method call.Ans)
    (email username password : String) : Method (User × String) :=
  (RegisterUseCase.execute platform options.requireEmailVerification email username password).inline
    (carriedOut platform options others)

/-- How an exchange goes: it is served, or it fails with a response or without one. -/
abbrev Fate := Option (Option HttpErrorResponse)

section
variable {κ : Type} (server : KeycloakServer κ)

/-- An exchange fails without effect or is served, each on its own. -/
def answerExchange (fate : Fate) (_ _ : Nat) (call : ProviderCall) (world : World κ) :
    Except Thrown call.Ans × World κ :=
  answerProvider server { Plan.good with http := fun _ => fate } call world

/-- A moment between two calls: what the clock shows, how the calls to come go, and the cached admin token. -/
structure Moment where
  clock : Nat
  schedule : Schedule Fate
  cache : Option AdminTokenCache

namespace Moment

/-- The moment after the next call. -/
def next (moment : Moment) : Moment :=
  ⟨moment.clock + (moment.schedule 0).1, fun index => moment.schedule (index + 1), moment.cache⟩

/-- The next call does not fail. -/
def served (moment : Moment) : Prop := (moment.schedule 0).2 = none

/-- The moment after a new admin token has been cached. -/
def store (moment : Moment) (response : AdminTokenResponse) : Moment :=
  { moment.next with
    cache := some ⟨response.accessToken, moment.clock + ((response.expiresIn : Int) - 30) * 1000⟩ }

end Moment

/-- An admin request that is made at the first moment has a token, cached or fetched, and reaches Keycloak,
which answers at the second moment. -/
inductive Admitted (state : κ) : Moment → Moment → Prop
  | cached {moment : Moment} {entry : AdminTokenCache} (has : moment.cache = some entry)
      (fresh : entry.expiresAt > moment.next.clock) (served : moment.next.served) :
      Admitted state moment moment.next.next
  | fetched {moment : Moment} {response : AdminTokenResponse}
      (stale : ∀ entry, moment.cache = some entry → entry.expiresAt ≤ moment.next.clock)
      (reached : moment.next.served) (granted : server.clientCredentials state = .ok response)
      (served : (moment.next.next.store response).served) :
      Admitted state moment (moment.next.next.store response).next

/-- Serving a program alone from a moment on. -/
def driveFrom {α : Type} (body : Method α) (request drawn : Nat) (moment : Moment) (store : InMemoryTokenStore)
    (state : κ) (log : List (Entry ProviderCall.Ans Thrown)) : Driven ProviderCall.Ans Thrown α (World κ) :=
  body.drive (answerExchange server) request moment.schedule moment.clock drawn ⟨store, state, moment.cache⟩ log

variable {server} {α : Type} {platform : Platform} {request drawn : Nat}
  {moment : Moment} {store : InMemoryTokenStore}
  {state : κ} {log : List (Entry ProviderCall.Ans Thrown)}

/-- The end of `fetchAdminToken`. -/
def cacheAdminToken (response : AdminTokenResponse) : Method String :=
  Program.now.bind fun now => (perform (.writeAdminTokenCache
    ⟨response.accessToken, now + ((response.expiresIn : Int) - 30) * 1000⟩)).bind fun _ =>
      .done response.accessToken

/-- The end of `getAdminToken`. -/
def useCachedToken : Option AdminTokenCache → Method String
  | none => fetchAdminToken
  | some entry =>
    Program.now.bind fun now => if entry.expiresAt > now then .done entry.accessToken else fetchAdminToken

/-- What an admin request fails with. -/
def rethrow {β : Type} (platform : Platform) : Thrown → Method β
  | .axios (some response) => .fail (mapAdminError platform response.status response.data)
  | error => .fail error

/-- The rest of an admin request, once there is a token. -/
def send (platform : Platform) (req : AdminRequest) (token : String) : Method req.Ans :=
  (http (.admin token req)).attempt (rethrow platform)

theorem adminRequest_eq (req : AdminRequest) : adminRequest platform req =
    getAdminToken.bind (send platform req) := rfl

/-- The program has failed, and Keycloak is as it was. -/
def Stopped (state : κ) (driven : Driven ProviderCall.Ans Thrown α (World κ)) : Prop :=
  (∃ error, driven.result = .error error) ∧ driven.shared.keycloak = state

theorem driveFrom_await {call : ProviderCall} {rest : Except Thrown call.Ans → Method α}
    {answer : Except Thrown call.Ans}
    {store' : InMemoryTokenStore} {state' : κ} {cache : Option AdminTokenCache} (answered : answerExchange server
      (moment.schedule 0).2 moment.next.clock request call ⟨store, state, moment.cache⟩ =
        (answer, ⟨store', state', cache⟩)) :
    driveFrom server (.await call rest) request drawn moment store state log =
      driveFrom server (rest answer) request drawn { moment.next with cache := cache } store' state'
        (log ++ [⟨request, call, answer, moment.next.clock⟩]) := by
  have after := congrArg (fun answered => (rest answered.1).drive
    (answerExchange server) request moment.next.schedule
    moment.next.clock drawn answered.2 (log ++ [⟨request, call, answered.1, moment.next.clock⟩])) answered
  exact after

/-- The request reaches Keycloak and is granted, or nothing has happened there. -/
theorem driveFrom_send (req : AdminRequest) (token : String) (next : req.Ans → Method α) :
    let driven := driveFrom server ((send platform req token).bind next) request drawn moment store state log
    (∃ answer changed log', moment.served ∧ serveAdmin server state req = .ok (answer, changed) ∧
      driven = driveFrom server (next answer) request drawn moment.next store changed log') ∨
    ((∀ answer changed, moment.served → serveAdmin server state req ≠ .ok (answer, changed)) ∧
      Stopped state driven) := by
  intro driven
  have ran (answer : Except Thrown req.Ans) (changed : κ) (answered : answerExchange server (moment.schedule 0).2
      moment.next.clock request (.http (.admin token req)) ⟨store, state, moment.cache⟩ =
        (answer, ⟨store, changed, moment.cache⟩)) : ∃ log',
          driven = driveFrom server (((Program.ofExcept answer).attempt
          (rethrow platform)).bind next) request drawn moment.next store changed log' :=
    ⟨_, driveFrom_await answered⟩
  cases going : (moment.schedule 0).2 with
  | some response =>
    obtain ⟨log', ends⟩ := ran (.error (.axios response)) state (by rw [going]; rfl)
    refine .inr ⟨fun _ _ served => absurd (going.symm.trans served) (by simp), ?_⟩
    rw [ends]
    cases response <;> exact ⟨⟨_, rfl⟩, rfl⟩
  | none =>
    cases granted : serveAdmin server state req with
    | error response =>
      obtain ⟨log', ends⟩ := ran (.error (.axios (some response))) state
        (by rw [going]; simp only [answerExchange, answerProvider, answerHttp, serveHttp, granted])
      rw [ends]
      exact .inr ⟨fun _ _ _ => by simp, ⟨_, rfl⟩, rfl⟩
    | ok answered =>
      obtain ⟨log', ends⟩ := ran (.ok answered.1) answered.2
        (by rw [going]; simp only [answerExchange, answerProvider, answerHttp, serveHttp, granted])
      exact .inl ⟨answered.1, answered.2, log', going, rfl, ends⟩

theorem driveFrom_cache (response : AdminTokenResponse) (next : String → Method α) :
    ∃ log', driveFrom server ((cacheAdminToken response).bind next) request drawn moment store state log =
      driveFrom server (next response.accessToken) request drawn
        (moment.store response) store state log' := ⟨_, rfl⟩

theorem driveFrom_getAdminToken (next : String → Method α) :
    ∃ log', driveFrom server (getAdminToken.bind next) request drawn moment store state log =
      driveFrom server ((useCachedToken moment.cache).bind next) request drawn
        moment.next store state log' := ⟨_, rfl⟩

/-- A new token is fetched and cached, or nothing has happened in Keycloak. -/
theorem driveFrom_fetch (next : String → Method α) :
    let driven := driveFrom server (fetchAdminToken.bind next) request drawn moment store state log
    (∃ response log', moment.served ∧ server.clientCredentials state = .ok response ∧ driven = driveFrom server
      (next response.accessToken) request drawn (moment.next.store response) store state log') ∨
    ((∀ response, moment.served → server.clientCredentials state ≠ .ok response) ∧ Stopped state driven) := by
  intro driven
  have ran (answer : Except Thrown AdminTokenResponse) (answered : answerExchange server (moment.schedule 0).2
      moment.next.clock request (.http .clientCredentials) ⟨store, state, moment.cache⟩ =
        (answer, ⟨store, state, moment.cache⟩)) : ∃ log', driven = driveFrom server
          (((Program.ofExcept answer).bind cacheAdminToken).bind next) request drawn moment.next store state log' :=
    ⟨_, driveFrom_await answered⟩
  cases going : (moment.schedule 0).2 with
  | some response =>
    obtain ⟨log', ends⟩ := ran (.error (.axios response)) (by rw [going]; rfl)
    refine .inr ⟨fun _ served => absurd (going.symm.trans served) (by simp), ?_⟩
    rw [ends]
    exact ⟨⟨_, rfl⟩, rfl⟩
  | none =>
    cases granted : server.clientCredentials state with
    | error response =>
      obtain ⟨log', ends⟩ := ran (.error (.axios (some response)))
        (by rw [going]; simp only [answerExchange, answerProvider, answerHttp, serveHttp, granted, Except.map])
      rw [ends]
      exact .inr ⟨fun _ _ => by simp, ⟨_, rfl⟩, rfl⟩
    | ok response =>
      obtain ⟨log', ends⟩ := ran (.ok response)
        (by rw [going]; simp only [answerExchange, answerProvider, answerHttp, serveHttp, granted, Except.map])
      obtain ⟨log'', cached⟩ := driveFrom_cache response next
      exact .inl ⟨response, log'', going, rfl, ends.trans cached⟩

/-- The request gets through and the program goes on with the answer, or nothing has happened in Keycloak. -/
def GetsThrough (server : KeycloakServer κ) (request drawn : Nat) (moment : Moment)
    (store : InMemoryTokenStore) (state : κ)
    (req : AdminRequest) (next : req.Ans → Method α) (driven : Driven ProviderCall.Ans Thrown α (World κ)) : Prop :=
  (∃ later answer changed log', Admitted server state moment later ∧
    serveAdmin server state req = .ok (answer, changed) ∧
    driven = driveFrom server (next answer) request drawn later store changed log') ∨
  ((∀ later answer changed, Admitted server state moment later →
    serveAdmin server state req ≠ .ok (answer, changed)) ∧
    Stopped state driven)

theorem driveFrom_cached {entry : AdminTokenCache} (has : moment.cache = some entry)
    (fresh : entry.expiresAt > moment.next.clock) (req : AdminRequest) (next : req.Ans → Method α) :
    GetsThrough server request drawn moment store state req next
      (driveFrom server ((send platform req entry.accessToken).bind next) request drawn
        moment.next store state log) := by
  rcases driveFrom_send req entry.accessToken next with
    ⟨answer, changed, log', served, accepted, ends⟩ | ⟨refused, stopped⟩
  · exact .inl ⟨_, answer, changed, log', .cached has fresh served, accepted, ends⟩
  · refine .inr ⟨fun later answer changed admitted => ?_, stopped⟩
    cases admitted with
    | cached _ _ served => exact refused answer changed served
    | fetched stale => exact absurd fresh (not_lt.mpr (stale _ has))

theorem driveFrom_fetched (stale : ∀ entry, moment.cache = some entry → entry.expiresAt ≤ moment.next.clock)
    (req : AdminRequest) (next : req.Ans → Method α) :
    GetsThrough server request drawn moment store state req next
      (driveFrom server (fetchAdminToken.bind fun token =>
        (send platform req token).bind next) request drawn moment.next
        store state log) := by
  rcases driveFrom_fetch (fun token => (send platform req token).bind next) with
    ⟨response, log', reached, granted, fetched⟩ | ⟨refused, stopped⟩
  · rw [fetched]
    rcases driveFrom_send req response.accessToken next with
      ⟨answer, changed, log', served, accepted, ends⟩ | ⟨refused, stopped⟩
    · exact .inl ⟨_, answer, changed, log', .fetched stale reached granted served, accepted, ends⟩
    · refine .inr ⟨fun later answer changed admitted => ?_, stopped⟩
      cases admitted with
      | cached has fresh => exact absurd fresh (not_lt.mpr (stale _ has))
      | fetched _ _ granted' served =>
        obtain rfl := Except.ok.inj (granted.symm.trans granted')
        exact refused answer changed served
  · refine .inr ⟨fun later answer changed admitted => ?_, stopped⟩
    cases admitted with
    | cached has fresh => exact absurd fresh (not_lt.mpr (stale _ has))
    | fetched _ reached granted => exact absurd granted (refused _ reached)

theorem driveFrom_adminRequest (req : AdminRequest) (next : req.Ans → Method α) :
    GetsThrough server request drawn moment store state req next
      (driveFrom server ((adminRequest platform req).bind next) request drawn moment store state log) := by
  obtain ⟨log', ran⟩ := driveFrom_getAdminToken fun token => (send platform req token).bind next
  rw [adminRequest_eq, Program.bind_assoc, ran]
  cases cache : moment.cache with
  | none => exact driveFrom_fetched (fun entry no => by cases cache.symm.trans no) req next
  | some entry =>
    -- the clock is read where the cached token is looked at
    change GetsThrough server request drawn moment store state req next (driveFrom server ((if entry.expiresAt >
      moment.next.clock then .done entry.accessToken else fetchAdminToken).bind fun token =>
        (send platform req token).bind next) request drawn moment.next store state log')
    by_cases fresh : entry.expiresAt > moment.next.clock
    · rw [if_pos fresh, Program.done_bind]
      exact driveFrom_cached cache fresh req next
    · rw [if_neg fresh]
      refine driveFrom_fetched (fun other has => ?_) req next
      obtain rfl := Option.some.inj (cache.symm.trans has)
      exact not_lt.mp fresh

theorem Admitted.unique {first second : Moment} (one : Admitted server state moment first)
    (two : Admitted server state moment second) : first = second := by
  cases one with
  | cached has fresh =>
    cases two with
    | cached => rfl
    | fetched stale => exact absurd fresh (not_lt.mpr (stale _ has))
  | fetched stale _ granted =>
    cases two with
    | cached has fresh => exact absurd fresh (not_lt.mpr (stale _ has))
    | fetched _ _ granted' =>
      obtain rfl := Except.ok.inj (granted.symm.trans granted')
      rfl

/-- The calls that change nothing in Keycloak. -/
def ProviderCall.leavesKeycloak : ProviderCall → Prop
  | .http (.admin _ (.createUser _)) => False
  | .http (.admin _ (.resetPassword _ _)) => False
  | .http (.logout _) => False
  | _ => True

theorem answerExchange_keycloak {fate : Fate} {now : Nat} {call : ProviderCall} {world : World κ}
    (leaves : call.leavesKeycloak) : (answerExchange server fate now request call world).2.keycloak =
      world.keycloak := by
  cases call with
  | http call =>
    cases fate with
    | some response => rfl
    | none =>
      cases call with
      | clientCredentials =>
        simp only [answerExchange, answerProvider, answerHttp, serveHttp]
        cases server.clientCredentials world.keycloak <;> rfl
      | passwordGrant username password =>
        simp only [answerExchange, answerProvider, answerHttp, serveHttp]
        cases server.passwordGrant world.keycloak username password <;> rfl
      | logout token => exact leaves.elim
      | admin token req =>
        cases req with
        | createUser user => exact leaves.elim
        | resetPassword id value => exact leaves.elim
        | usersByEmail email =>
          simp only [answerExchange, answerProvider, answerHttp, serveHttp, serveAdmin]
          cases server.usersByEmail world.keycloak email <;> rfl
        | userById id =>
          simp only [answerExchange, answerProvider, answerHttp, serveHttp, serveAdmin]
          cases server.userById world.keycloak id <;> rfl
        | sendVerifyEmail id =>
          simp only [answerExchange, answerProvider, answerHttp, serveHttp, serveAdmin]
          cases server.sendVerifyEmail world.keycloak id <;> rfl
  | _ => rfl

/-- The end of a registration, once the account has been read back. -/
def finish (platform : Platform) (options : Deployment) (user : User) : Method (User × String) :=
  if options.requireEmailVerification then (sendVerifyEmail platform user.id).bind fun _ =>
    .done (user, "Registration successful. Check your inbox to verify your email.")
  else .done (user, "Registration successful.")

/-- The account that a registration asks for. -/
def newUser (options : Deployment) (email username password : String) : NewUser where
  username := username
  email := email
  enabled := true
  emailVerified := !options.requireEmailVerification
  password := password

variable {options : Deployment} {others : (call : Call) → Method call.Ans} {email username password : String}

/-- The mail is a best effort, and changes nothing in Keycloak. -/
theorem driveFrom_finish (user : User) :
    let driven := driveFrom server (finish platform options user) request drawn moment store state log
    (∃ message, driven.result = .ok (user, message)) ∧ driven.shared.keycloak = state := by
  have ensured : (finish platform options user).Ensures (answerExchange server) (fun _ => True) request
      (fun result _ shared _ => (∃ message, result = .ok (user, message)) ∧
        shared.keycloak = state) moment.clock drawn
      ⟨store, state, moment.cache⟩ log := by
    unfold finish
    split
    · have only : (adminRequest platform (.sendVerifyEmail user.id)).Only ProviderCall.leavesKeycloak :=
        adminRequest_only platform trivial trivial (fun _ => trivial) fun _ => trivial
      have tried : (adminRequest platform (.sendVerifyEmail user.id)).Ensures
        (answerExchange server) (fun _ => True)
          request (fun _ _ shared _ => shared.keycloak = state) moment.clock drawn
            ⟨store, state, moment.cache⟩ log :=
        only.ensures (fun _ _ _ _ leaves same => (answerExchange_keycloak leaves).trans same) rfl
      have sent : (sendVerifyEmail platform user.id).Ensures (answerExchange server) (fun _ => True) request
          (fun result _ shared _ => result = .ok () ∧ shared.keycloak = state) moment.clock drawn
          ⟨store, state, moment.cache⟩ log :=
      tried.attempt (fun _ _ _ _ same => ⟨rfl, same⟩) fun _ _ _ _ _ same => ⟨rfl, same⟩
      refine sent.bind (fun _ _ _ _ _ sent => ⟨⟨_, rfl⟩, sent.2⟩) fun _ _ _ _ no => ?_
      cases no.1
    · exact ⟨⟨_, rfl⟩, rfl⟩
  exact ensured.drive fun _ => trivial

/-- After the account has been read back, the use case ends as `finish` does. -/
theorem inline_finish (user : User) :
    (if options.requireEmailVerification then (Program.perform (Call.auth (.sendVerifyEmail user.id))).bind fun _ =>
        .done (user, "Registration successful. Check your inbox to verify your email.")
      else .done (user, "Registration successful.") : Service (User × String)).inline
      (carriedOut platform options others) = finish platform options user := by
  unfold finish
  split
  · exact Program.inline_perform_bind ..
  · rfl

theorem registration_eq {mail word : String} (valid : Email.create platform email = .ok mail)
    (strong : Password.create password = .ok word) : registration platform options others email username password =
      (adminRequest platform (.createUser (newUser options email username password))).bind fun _ =>
        (adminRequest platform (.usersByEmail email)).bind fun users => match users with
          | [] => .fail (.domain .userNotFound ("User with email " ++ email ++ " not found"))
          | user :: _ => Program.now.bind fun now => finish platform options (kcUserToUser user now) := by
  simp only [registration, RegisterUseCase.execute, valid, strong, Program.ofExcept_ok, Program.bind_eq,
    Program.done_bind, Service.authProvider, Program.inline_perform_bind, Program.pure_eq]
  simp only [carriedOut, AuthCall.method, KeycloakAuthProvider.register, getUserByEmail,
    Program.bind_eq, Program.bind_assoc]
  refine congrArg (Program.bind _) (funext fun _ => congrArg (Program.bind _) (funext fun users => ?_))
  cases users with
  | nil => rfl
  | cons user others => exact congrArg Program.clock (funext fun now => inline_finish _)

variable (server platform options) in
/-- If the creation takes effect, the account is read back: there is an admin token again, the directory is
asked, and it lists an account. -/
def ReadsBack (email username password : String) (moment : Moment) (state : κ) : Prop :=
  ∀ mail word later changed, Email.create platform email = .ok mail → Password.create password = .ok word →
    Admitted server state moment later →
    server.createUser state (newUser options email username password) = .ok changed → changed ≠ state →
    ∃ last user users, Admitted server changed later last ∧ server.usersByEmail changed email = .ok (user :: users)

variable (server) in
/-- A registration that rejects has left the directory as it was, so that it can be tried again; and if there is
an account more, the event is emitted. -/
structure AllOrNothing (new : NewUser) (state : κ)
    (driven : Driven ProviderCall.Ans Thrown (User × String) (World κ)) : Prop where
  directory : ∀ error, driven.result = .error error → driven.shared.keycloak = state
  again : ∀ error, driven.result = .error error →
    server.createUser driven.shared.keycloak new = server.createUser state new
  event : driven.shared.keycloak ≠ state → ∃ user message, driven.result = .ok (user, message) ∧
    (AuthController.register user message).event = some (.userRegistered user.id user.email user.username)

theorem serveAdmin_createUser {new : NewUser} {changed : κ} :
    serveAdmin server state (.createUser new) = .ok ((), changed) ↔ server.createUser state new = .ok changed := by
  simp only [serveAdmin]
  cases server.createUser state new <;> simp [Except.map]

theorem serveAdmin_usersByEmail {users : List KcUserRepresentation} {after : κ} :
    serveAdmin server state (.usersByEmail email) = .ok (users, after) ↔
      server.usersByEmail state email = .ok users ∧ after = state := by
  simp only [serveAdmin]
  cases server.usersByEmail state email <;> simp [Except.map, eq_comm]

section
variable {new : NewUser} {driven : Driven ProviderCall.Ans Thrown (User × String) (World κ)}

theorem allOrNothing_of_same (same : driven.shared.keycloak = state) : AllOrNothing server new state driven :=
  ⟨fun _ _ => same, fun _ _ => by rw [same], fun other => absurd same other⟩

theorem allOrNothing_of_ok {user : User} {message : String} (ended : driven.result = .ok (user, message)) :
    AllOrNothing server new state driven :=
  ⟨fun _ failed => absurd (ended.symm.trans failed) (by simp), fun _ failed =>
    absurd (ended.symm.trans failed) (by simp),
    fun _ => ⟨user, message, ended, rfl⟩⟩

theorem allOrNothing_of_error {error : Thrown} (ended : driven.result = .error error) :
    AllOrNothing server new state driven ↔ driven.shared.keycloak = state :=
  ⟨fun all => all.directory error ended, allOrNothing_of_same⟩

end

/-- Where the creation has taken effect and the account is not read back, all depends on what has changed. -/
theorem readsBack_of_created (platform : Platform) {mail word : String} {later : Moment} {changed : κ}
    (valid : Email.create platform email = .ok mail) (strong : Password.create password = .ok word)
    (admitted : Admitted server state moment later)
    (created : server.createUser state (newUser options email username password) = .ok changed)
    (lost : ∀ last user users, Admitted server changed later last →
      server.usersByEmail changed email ≠ .ok (user :: users)) :
    ReadsBack server platform options email username password moment state ↔ changed = state := by
  constructor
  · intro reads
    by_contra differs
    obtain ⟨last, user, users, admitted, listed⟩ := reads mail word later changed valid
      strong admitted created differs
    exact lost last user users admitted listed
  · intro same mail word later changed' valid strong admitted created' differs
    obtain rfl := Except.ok.inj (created.symm.trans created')
    exact absurd same differs

theorem registration_allOrNothing_iff :
    AllOrNothing server (newUser options email username password) state
      (driveFrom server (registration platform options others email username password)
        request drawn moment store state log) ↔
    ReadsBack server platform options email username password moment state := by
  cases valid : Email.create platform email with
  | error error =>
    have ends : registration platform options others email username password = .fail error := by
      simp only [registration, RegisterUseCase.execute, valid, Program.ofExcept_error,
        Program.bind_eq, Program.fail_bind,
        Program.inline]
    refine iff_of_true (allOrNothing_of_same (by rw [ends]; rfl)) fun mail word later changed valid' => ?_
    cases valid.symm.trans valid'
  | ok mail =>
  cases strong : Password.create password with
  | error error =>
    have ends : registration platform options others email username password = .fail error := by
      simp only [registration, RegisterUseCase.execute, valid, strong, Program.ofExcept_ok, Program.ofExcept_error,
        Program.bind_eq, Program.done_bind, Program.fail_bind, Program.inline]
    refine iff_of_true (allOrNothing_of_same (by rw [ends]; rfl)) fun mail word later changed _ strong' => ?_
    cases strong.symm.trans strong'
  | ok word =>
  rw [registration_eq valid strong]
  rcases driveFrom_adminRequest (.createUser (newUser options email username password)) _ with
    ⟨later, answer, changed, log', admitted, created, ran⟩ | ⟨refused, ⟨error, failed⟩, same⟩
  · have created := serveAdmin_createUser.mp created
    have readsBack_iff := readsBack_of_created platform valid strong admitted created
    rw [ran]
    rcases driveFrom_adminRequest (.usersByEmail email) _ with
      ⟨last, users, after, log', admitted', listed, ran⟩ | ⟨refused, ⟨error, failed⟩, same⟩
    · obtain ⟨lists, rfl⟩ := serveAdmin_usersByEmail.mp listed
      rw [ran]
      cases users with
      | nil =>
        refine (allOrNothing_of_error rfl).trans (readsBack_iff fun last user users _ again => ?_).symm
        cases lists.symm.trans again
      | cons user users =>
        obtain ⟨message, ended⟩ : ∃ message, (driveFrom server
          (finish platform options (kcUserToUser user last.clock))
            request drawn last store changed log').result = .ok (kcUserToUser user last.clock, message) :=
          (driveFrom_finish _).1
        refine iff_of_true (allOrNothing_of_ok ended) fun mail word other changed _ _ again created' _ => ?_
        obtain rfl := Except.ok.inj (created.symm.trans created')
        obtain rfl := admitted.unique again
        exact ⟨last, user, users, admitted', lists⟩
    · rw [allOrNothing_of_error failed, same]
      exact (readsBack_iff fun last user users admitted listed =>
        refused last _ _ admitted (serveAdmin_usersByEmail.mpr ⟨listed, rfl⟩)).symm
  · refine iff_of_true (allOrNothing_of_same same) fun _ _ later changed _ _ admitted created => ?_
    exact refused later () changed admitted (serveAdmin_createUser.mpr created) |>.elim

end

namespace Sample

/-- Everything is served but the sixth call, which reads the new account back. -/
def readBackFails : Moment := ⟨1000, fun index => (0, if index = 5 then some none else none), none⟩

/-- The account is there, and the registration has failed. -/
theorem registration_not_allOrNothing : ¬ ∀ (κ : Type) (server : KeycloakServer κ) platform options others email
    username password request drawn moment store state log, AllOrNothing server
      (newUser options email username password) state
      (driveFrom server (registration platform options others email username password)
        request drawn moment store state log) := by
  intro always
  have all := always Realm Realm.server platform options (fun _ =>
    .fail (.error "")) "bob@mail.com" "bob" "Secret word 1!" 0 0 readBackFails .empty realm []
  have accounts := congrArg (fun realm : Realm => realm.accounts.length) (all.directory _ rfl)
  exact absurd accounts (by decide)

end Sample

end KeycloakAuth
