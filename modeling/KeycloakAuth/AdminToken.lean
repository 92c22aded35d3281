import KeycloakAuth.Realm
import KeycloakAuth.Async.Contract

namespace KeycloakAuth
open Async KeycloakAuthProvider

/-- A token that Keycloak has granted the client, and the time from which it is refused. -/
structure AdminGrant where
  accessToken : String
  expires : Nat
deriving DecidableEq, Repr

/-- What the surroundings decide about one call, and how long before its answer a token was granted. -/
structure HttpExchange where
  plan : Plan
  lag : Nat

def granted (lag now : Nat) : (call : ProviderCall) → Except Thrown call.Ans → List AdminGrant
  | .http .clientCredentials, .ok response => [⟨response.accessToken, now - lag + response.expiresIn * 1000⟩]
  | _, _ => []

/-- The world of the provider, and the tokens that the client has been granted. -/
structure Granting (κ : Type) where
  world : World κ
  grants : List AdminGrant

section
variable {κ : Type} (server : KeycloakServer κ) (platform : Platform) (options : Deployment)

def providerMethod : (call : AuthCall) → Method call.Ans
  | .register req => register platform req
  | .authenticate email password => authenticate platform options.jwt email password
  | .refreshToken token => refreshToken platform options.jwt token
  | .logout token => logout token
  | .completePasswordReset userId newPassword => completePasswordReset platform userId newPassword
  | .getUserById id => getUserById platform id
  | .getUserByEmail email => getUserByEmail platform email
  | .setup2FA userId => setup2FA userId
  | .verify2FA userId code => verify2FA platform userId code
  | .sendVerifyEmail userId => sendVerifyEmail platform userId
  | .issueTokens userId => issueTokens platform options.jwt userId

/-- Calls of the provider that are served at the same time. -/
def providerSystem : System ProviderCall.Ans Thrown AuthCall (Σ call : AuthCall, call.Ans) (Granting κ) HttpExchange
    (Disturbance κ) where
  body call := (providerMethod platform options call).bind fun value => .done ⟨call, value⟩
  perform exchange now _ call state :=
    let answered := answerProvider server exchange.plan call state.world
    (answered.1, ⟨answered.2, state.grants ++ granted exchange.lag now call answered.1⟩)
  disturb
    | .keycloak keycloak, _, state => { state with world := { state.world with keycloak } }
    | .deleteExpired, now, state =>
      { state with world := { state.world with store := state.world.store.deleteExpired now } }

end

/-- The bounds under which the provider works: an admin request reaches Keycloak at most `latency` after its
token was chosen, and a token is answered at most `lag` after it was granted. -/
structure Delays where
  lag : Nat
  latency : Nat
  margin : lag + latency ≤ 30000

section
variable (delays : Delays)

/-- A token that will still be good when a request under it arrives. -/
def Granting.Lasts {κ : Type} (state : Granting κ) (token : String) (now : Nat) : Prop :=
  ∃ grant ∈ state.grants, grant.accessToken = token ∧ now + delays.latency < grant.expires

/-- An entry of the cache that may be used until it expires. -/
def Granting.Backs {κ : Type} (state : Granting κ) (entry : AdminTokenCache) : Prop :=
  ∃ grant ∈ state.grants, grant.accessToken = entry.accessToken ∧ entry.expiresAt + delays.latency ≤ grant.expires

/-- The cache is written as soon as the token has come. -/
def Delays.InTime : ProviderCall → (made now : Nat) → Prop
  | .http (.admin _ _), made, now => now ≤ made + delays.latency
  | .writeAdminTokenCache _, made, now => now = made
  | _, _, _ => True

/-- What the provider promises of its exchanges. -/
def adminContract (κ : Type) : Contract ProviderCall.Ans Thrown (Granting κ) where
  fine now state call :=
    match call with
    | .http (.admin token _) => state.Lasts delays token now
    | .writeAdminTokenCache entry => state.Backs delays entry
    | _ => True
  inTime := delays.InTime
  grows state after := state.grants ⊆ after.grants
  good now state call answer :=
    match call, answer with
    | .http .clientCredentials, .ok response => ∃ grant ∈ state.grants, grant.accessToken = response.accessToken ∧
        now + response.expiresIn * 1000 ≤ grant.expires + delays.lag ∧
        delays.lag + delays.latency < response.expiresIn * 1000
    | .readAdminTokenCache, .ok (some entry) => state.Backs delays entry
    | _, _ => True

end

section
variable {κ : Type} {delays : Delays} {now : Nat} {state : Granting κ} {platform : Platform} {options : Deployment}

theorem Granting.Lasts.mono {after : Granting κ} {token : String} (lasts : state.Lasts delays token now)
    (grows : state.grants ⊆ after.grants) : after.Lasts delays token now := by
  obtain ⟨grant, member, rest⟩ := lasts
  exact ⟨grant, grows member, rest⟩

theorem Granting.Backs.mono {after : Granting κ} {entry : AdminTokenCache} (backs : state.Backs delays entry)
    (grows : state.grants ⊆ after.grants) : after.Backs delays entry := by
  obtain ⟨grant, member, rest⟩ := backs
  exact ⟨grant, grows member, rest⟩

theorem fetchAdminToken_meets : fetchAdminToken.Meets (adminContract delays κ)
    (fun now state token => state.Lasts delays token now) now state := by
  refine ⟨trivial, fun later after answer _ _ good => ?_⟩
  cases answer with
  | error error => trivial
  | ok response =>
    obtain ⟨grant, member, same, long, enough⟩ := good
    have margin := delays.margin
    refine ⟨⟨grant, member, same, ?_⟩, fun written stored answer soon grows _ => ?_⟩
    · change (later : Int) + ((response.expiresIn : Int) - 30) * 1000 + delays.latency ≤ grant.expires
      omega
    · obtain rfl : written = later := soon
      cases answer with
      | error error => trivial
      | ok done =>
        refine ⟨grant, grows member, same, ?_⟩
        omega

theorem getAdminToken_meets : getAdminToken.Meets (adminContract delays κ)
    (fun now state token => state.Lasts delays token now) now state := by
  refine ⟨trivial, fun later after answer _ _ good => ?_⟩
  cases answer with
  | error error => trivial
  | ok cache =>
    cases cache with
    | none => exact fetchAdminToken_meets
    | some entry =>
      obtain ⟨grant, member, same, long⟩ := good
      change (if entry.expiresAt > later then .done entry.accessToken else fetchAdminToken : Method
        String).Meets _ _ later after
      split
      · refine ⟨grant, member, same, ?_⟩
        omega
      · exact fetchAdminToken_meets

theorem adminRequest_meets (request : AdminRequest) :
    (adminRequest platform request).Meets (adminContract delays κ) (fun _ _ _ => True) now state := by
  refine getAdminToken_meets.bind fun now state token lasts => ?_
  refine .attempt (.perform lasts fun _ _ _ _ _ _ => trivial) fun now state error => ?_
  split <;> trivial

theorem getUserById_meets (id : String) :
    (getUserById platform id).Meets (adminContract delays κ) (fun _ _ _ => True) now state :=
  (adminRequest_meets _).bind fun _ _ _ _ => trivial

theorem getUserByEmail_meets (email : String) :
    (getUserByEmail platform email).Meets (adminContract delays κ) (fun _ _ _ => True) now state :=
  (adminRequest_meets _).bind fun now state users _ => by cases users <;> trivial

theorem oidcTokenRequest_meets (username password : String) :
    (oidcTokenRequest platform username password).Meets (adminContract delays κ) (fun _ _ _ => True) now state :=
  .attempt (.perform trivial fun _ _ _ _ _ _ => trivial) fun now state error => by split <;> trivial

theorem verifyRefreshToken_meets (config : JwtConfig) (token : Str) :
    (JwtTokenService.verifyRefreshToken config token).Meets
    (adminContract delays κ) (fun _ _ _ => True) now state := by
  simp only [JwtTokenService.verifyRefreshToken, JwtTokenService.verify, Program.bind_eq,
    Program.now_bind, Program.Meets]
  split
  · trivial
  · trivial
  · split <;> trivial

theorem setup2FA_meets (userId : String) :
    (setup2FA userId).Meets (adminContract delays κ) (fun _ _ _ => True) now state := by
  refine Program.Meets.bind (.perform trivial fun _ _ _ _ _ _ => trivial) fun now state existing _ => ?_
  split
  · trivial
  · intro nonce
    refine Program.Meets.bind (P := fun _ _ _ => True) trivial fun now state nonce _ => ?_
    refine Program.Meets.bind (.perform trivial fun _ _ _ _ _ _ => trivial) fun now state _ _ => ?_
    exact Program.Meets.bind (.perform trivial fun _ _ _ _ _ _ => trivial) fun _ _ _ _ => trivial

theorem verify2FA_meets (userId code : String) :
    (verify2FA platform userId code).Meets (adminContract delays κ) (fun _ _ _ => True) now state := by
  refine Program.Meets.bind (.perform trivial fun _ _ _ _ _ _ => trivial) fun now state stored _ => ?_
  split <;> trivial

/-- Every method of the provider sends admin requests only under tokens that last until they arrive. -/
theorem providerMethod_meets (call : AuthCall) :
    (providerMethod platform options call).Meets (adminContract delays κ) (fun _ _ _ => True) now state := by
  cases call with
  | register req => exact (adminRequest_meets _).bind fun _ _ _ _ => getUserByEmail_meets _
  | authenticate email password =>
    exact (oidcTokenRequest_meets _ _).bind fun _ _ _ _ => (getUserByEmail_meets _).bind fun _ _ _ _ => trivial
  | refreshToken token =>
    exact (verifyRefreshToken_meets _ _).bind fun _ _ _ _ => (getUserById_meets _).bind fun _ _ _ _ => trivial
  | logout token => exact .attempt (.perform trivial fun _ _ _ _ _ _ => trivial) fun _ _ _ => trivial
  | completePasswordReset userId newPassword => exact adminRequest_meets (.resetPassword userId newPassword)
  | getUserById id => exact getUserById_meets _
  | getUserByEmail email => exact getUserByEmail_meets _
  | setup2FA userId => exact setup2FA_meets userId
  | verify2FA userId code => exact verify2FA_meets userId code
  | sendVerifyEmail userId => exact .attempt (adminRequest_meets (.sendVerifyEmail userId)) fun _ _ _ => trivial
  | issueTokens userId => exact (getUserById_meets _).bind fun _ _ _ _ => trivial

variable {server : KeycloakServer κ} {clock : Nat} {start : World κ}

theorem answerHttp_cache (plan : Plan) (call : HttpCall) (world : World κ) :
    (answerHttp server plan call world).2.adminTokenCache = world.adminTokenCache := by
  unfold answerHttp
  split
  · rfl
  · split <;> rfl

theorem answerHttp_clientCredentials {plan : Plan} {world : World κ} {response : AdminTokenResponse}
    (answered : (answerHttp server plan .clientCredentials world).1 = .ok response) :
    server.clientCredentials world.keycloak = .ok response := by
  unfold answerHttp at answered
  split at answered
  · cases answered
  · simp only [serveHttp] at answered
    cases granted : server.clientCredentials world.keycloak with
    | error refused => simp [granted, Except.map] at answered
    | ok token =>
      simp only [granted, Except.map, Except.ok.injEq] at answered
      rw [answered]

/-- The surroundings answer as the provider relies on, if Keycloak's tokens outlast the delays. -/
theorem adminContract_kept (outlasts : ∀ keycloak response, server.clientCredentials keycloak = .ok response →
    delays.lag + delays.latency < response.expiresIn * 1000) :
    (adminContract delays κ).Kept (providerSystem server platform options)
      (fun exchange => exchange.lag ≤ delays.lag)
      fun state => ∀ entry, state.world.adminTokenCache = some entry → state.Backs delays entry where
  refl _ := List.Subset.refl _
  trans first second := List.Subset.trans first second
  performed {exchange made now index call before state} short fine soon grows backs := by
    have more {grants : List AdminGrant} : state.grants ⊆ state.grants ++ grants := List.subset_append_left ..
    cases call with
    | http call =>
      refine ⟨more, fun entry cached => (backs entry ((answerHttp_cache ..).symm.trans cached)).mono more, ?_⟩
      cases call with
      | clientCredentials =>
        simp only [adminContract, providerSystem, answerProvider]
        cases answered : (answerHttp server exchange.plan .clientCredentials state.world).1 with
        | error error => trivial
        | ok response =>
          have enough := outlasts _ _ (answerHttp_clientCredentials answered)
          refine ⟨_, List.mem_append_right _ (List.mem_singleton_self _), rfl, ?_, enough⟩
          change now + response.expiresIn * 1000 ≤ now - exchange.lag + response.expiresIn * 1000 + delays.lag
          omega
      | passwordGrant username password => trivial
      | logout token => trivial
      | admin token request => trivial
    | writeAdminTokenCache entry =>
      refine ⟨more, fun other cached => ?_, trivial⟩
      cases cached
      exact Granting.Backs.mono fine (List.Subset.trans grows more)
    | readAdminTokenCache =>
      refine ⟨more, fun entry cached => (backs entry cached).mono more, ?_⟩
      simp only [adminContract, providerSystem, answerProvider]
      cases cached : state.world.adminTokenCache with
      | none => trivial
      | some entry => exact (backs entry cached).mono more
    | getUserData userId key => exact ⟨more, fun entry cached => (backs entry cached).mono more, trivial⟩
    | saveUserData userId key value => exact ⟨more, fun entry cached => (backs entry cached).mono more, trivial⟩
    | deleteUserData userId key => exact ⟨more, fun entry cached => (backs entry cached).mono more, trivial⟩
    | toDataURL secret => exact ⟨more, fun entry cached => (backs entry cached).mono more, trivial⟩
  disturbed {change now state} backs := by
    cases change with
    | keycloak keycloak => exact ⟨List.Subset.refl _, backs⟩
    | deleteExpired => exact ⟨List.Subset.refl _, backs⟩

/-- Whenever an admin request reaches Keycloak, its token has been granted to the client and has not expired. -/
theorem admin_tokens_unexpired (outlasts : ∀ keycloak response, server.clientCredentials keycloak = .ok response →
      delays.lag + delays.latency < response.expiresIn * 1000)
    {cfg : Config ProviderCall.Ans Thrown AuthCall (Σ call : AuthCall, call.Ans) (Granting κ)} {since : List Nat}
    (cold : start.adminTokenCache = none)
    (reaches : (providerSystem server platform options).Reaches delays.InTime
      (fun exchange => exchange.lag ≤ delays.lag) clock ⟨start, []⟩ cfg since)
    {entry : Entry ProviderCall.Ans Thrown} (logged : entry ∈ cfg.log) {token : String} {request : AdminRequest}
    (sent : entry.call = .http (.admin token request)) :
    ∃ grant ∈ cfg.shared.grants, grant.accessToken = token ∧ entry.time < grant.expires := by
  have holds := System.Reaches.holds (C := adminContract delays κ) reaches (adminContract_kept outlasts)
    (fun call now state => (providerMethod_meets call).bind fun _ _ _ _ => trivial) fun entry cached => by
      rw [cold] at cached
      cases cached
  obtain ⟨made, state, fine, soon, grows⟩ := holds.log entry logged
  rw [sent] at fine soon
  obtain ⟨grant, member, same, long⟩ := fine
  exact ⟨grant, grows member, same, Nat.lt_of_le_of_lt soon long⟩

end

namespace Sample

def delays : Delays := ⟨100, 200, by decide⟩

/-- Ann is looked up with a new admin token, and then again with the cached one. -/
def lookedUpTwice : List (Event AuthCall HttpExchange (Disturbance Realm)) :=
  [.arrive (.getUserById "ann"), .resume 0 ⟨.good, 0⟩, .tick 100, .resume 0 ⟨.good, 50⟩,
    .resume 0 ⟨.good, 0⟩, .tick 150,
    .resume 0 ⟨.good, 0⟩, .arrive (.getUserById "ann"), .resume 1 ⟨.good, 0⟩, .tick 200, .resume 1 ⟨.good, 0⟩]

theorem lookedUpTwice_reaches : ∃ cfg since,
    (providerSystem Realm.server platform options).run (.start 1000 ⟨.fresh realm, []⟩) lookedUpTwice = some cfg ∧
    (providerSystem Realm.server platform options).Reaches delays.InTime (fun exchange =>
      exchange.lag ≤ delays.lag) 1000
      ⟨.fresh realm, []⟩ cfg since := by
  have begins : (providerSystem Realm.server platform options).Reaches delays.InTime
      (fun exchange => exchange.lag ≤ delays.lag) 1000 ⟨.fresh realm, []⟩ _ _ := .start
  have fetches := ((begins.arrive (.getUserById "ann")).resume 0 ⟨.good,
    0⟩ (by decide) rfl rfl rfl trivial).tick 100
  have caches := (fetches.resume 0 ⟨.good, 50⟩ (by decide) rfl rfl rfl trivial).resume 0
    ⟨.good, 0⟩ (by decide) rfl rfl rfl
    (by rfl)
  have looksUp := (caches.tick 150).resume 0 ⟨.good, 0⟩ (by decide) rfl rfl rfl (show 1250 ≤ 1100 + 200 by decide)
  have again := ((looksUp.arrive (.getUserById "ann")).resume 1 ⟨.good, 0⟩ (by decide) rfl rfl rfl trivial).tick 200
  exact ⟨_, _, rfl, again.resume 1 ⟨.good, 0⟩ (by decide) rfl rfl rfl (show 1450 ≤ 1250 + 200 by decide)⟩

theorem admin_tokens_unexpired_lookedUpTwice : ∃ cfg,
    (providerSystem Realm.server platform options).run (.start 1000 ⟨.fresh realm, []⟩) lookedUpTwice = some cfg ∧
    ∃ entry ∈ cfg.log, entry.call = .http (.admin "admin" (.userById "ann")) ∧ entry.time = 1450 ∧
      ∃ grant ∈ cfg.shared.grants, grant.accessToken = "admin" ∧ entry.time < grant.expires := by
  obtain ⟨cfg, since, ran, reaches⟩ := lookedUpTwice_reaches
  have logged : ∃ entry ∈ cfg.log, entry.call = .http (.admin "admin" (.userById "ann")) ∧ entry.time = 1450 := by
    cases ran
    exact ⟨_, List.mem_of_getElem? (i := 5) rfl, rfl, rfl⟩
  obtain ⟨entry, member, sent, time⟩ := logged
  refine ⟨cfg, ran, entry, member, sent, time, ?_⟩
  refine admin_tokens_unexpired (fun keycloak response granted => ?_) rfl reaches member sent
  cases granted
  decide

end Sample

end KeycloakAuth
