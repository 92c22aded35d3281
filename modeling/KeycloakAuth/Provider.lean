import KeycloakAuth.Service

namespace KeycloakAuth
open Async KeycloakAuthProvider

section
variable {κ : Type} (server : KeycloakServer κ) (platform : Platform) (options : Deployment) (plan : Plan)
  (now request : Nat) (world : World κ)

/-- Nothing but the admin token cache may change. -/
def SameDirectory (before after : World κ) : Prop :=
  after.store = before.store ∧ after.keycloak = before.keycloak

theorem fetchAdminToken_spec (drawn : Nat) :
    let outcome := fetchAdminToken.eval (answerProvider server plan) now request drawn world
    outcome.drawn = drawn ∧ SameDirectory world outcome.state := by
  simp only [fetchAdminToken, http, perform, Program.bind_eq, Program.eval_bind, Program.eval_perform,
    Outcome.andThen, answerProvider, answerHttp]
  cases plan.http .clientCredentials with
  | some response => exact ⟨rfl, rfl, rfl⟩
  | none =>
    simp only [serveHttp]
    cases server.clientCredentials world.keycloak <;> exact ⟨rfl, rfl, rfl⟩

theorem getAdminToken_spec (drawn : Nat) :
    let outcome := getAdminToken.eval (answerProvider server plan) now request drawn world
    outcome.drawn = drawn ∧ SameDirectory world outcome.state := by
  simp only [getAdminToken, perform, Program.bind_eq, Program.eval_bind, Program.eval_perform,
    Outcome.andThen, answerProvider]
  cases world.adminTokenCache with
  | none => exact fetchAdminToken_spec _ _ _ _ _ drawn
  | some entry =>
    simp only [Program.eval_now_bind]
    split
    · exact ⟨rfl, rfl, rfl⟩
    · exact fetchAdminToken_spec _ _ _ _ _ drawn

/-- One exchange with the admin API, its errors mapped. -/
theorem adminExchange_spec (token : String) (admin : AdminRequest) (drawn : Nat) :
    let outcome := (Program.attempt (http (.admin token admin)) fun
      | .axios (some response) => throw (mapAdminError platform response.status response.data)
      | error => throw error).eval (answerProvider server plan) now request drawn world
    outcome.drawn = drawn ∧ outcome.state.store = world.store ∧
      ((∃ error, outcome.result = .error error ∧ outcome.state.keycloak = world.keycloak) ∨
        ∃ answer, outcome.result = .ok answer ∧
          serveAdmin server world.keycloak admin = .ok (answer, outcome.state.keycloak)) := by
  simp only [http, perform, Program.eval_attempt, Program.eval_perform, answerProvider, answerHttp, serveHttp]
  cases plan.http (.admin token admin) with
  | some response => cases response <;> exact ⟨rfl, rfl, .inl ⟨_, rfl, rfl⟩⟩
  | none =>
    cases served : serveAdmin server world.keycloak admin with
    | error response => exact ⟨rfl, rfl, .inl ⟨_, rfl, rfl⟩⟩
    | ok answered => exact ⟨rfl, rfl, .inr ⟨answered.1, rfl, rfl⟩⟩

/-- An admin request fails and leaves the directory alone, or is served in the directory as it is. -/
theorem adminRequest_spec (admin : AdminRequest) (drawn : Nat) :
    let outcome := (adminRequest platform admin).eval (answerProvider server plan) now request drawn world
    outcome.drawn = drawn ∧ outcome.state.store = world.store ∧
      ((∃ error, outcome.result = .error error ∧ outcome.state.keycloak = world.keycloak) ∨
        ∃ answer, outcome.result = .ok answer ∧
          serveAdmin server world.keycloak admin = .ok (answer, outcome.state.keycloak)) := by
  obtain ⟨sameDrawn, sameStore, sameKeycloak⟩ :=
    getAdminToken_spec server plan now request world drawn
  simp only [adminRequest, Program.bind_eq, Program.eval_bind, Outcome.andThen, Program.tryCatch_eq]
  split
  · rename_i token _
    have exchange := adminExchange_spec server platform plan now request
      (getAdminToken.eval (answerProvider server plan) now request drawn world).state token admin drawn
    rw [sameStore, sameKeycloak] at exchange
    rw [sameDrawn]
    exact exchange
  · exact ⟨sameDrawn, sameStore, .inl ⟨_, rfl, sameKeycloak⟩⟩

theorem answerAuth_getUserById (id : String) :
    let answered := answerAuth server platform options plan now request (.getUserById id) world
    answered.2.store = world.store ∧ answered.2.keycloak = world.keycloak ∧
      ∀ user, answered.1 = .ok user → user.id = id ∧
        ∃ found, server.userById world.keycloak id = .ok found ∧ user = kcUserToUser found now := by
  obtain ⟨-, sameStore, result⟩ := adminRequest_spec server platform plan now request world (.userById id) 0
  simp only [answerAuth, evalMethod, getUserById, Program.bind_eq, Program.eval_bind, Outcome.andThen]
  rcases result with ⟨error, failed, same⟩ | ⟨found, ok, served⟩
  · simp only [failed]
    exact ⟨sameStore, same, fun _ no => by cases no⟩
  · simp only [ok, Program.pure_eq, Program.eval_done]
    simp only [serveAdmin] at served
    cases looked : server.userById world.keycloak id with
    | error response => simp [looked, Except.map] at served
    | ok user =>
      simp only [looked, Except.map, Except.ok.injEq, Prod.mk.injEq] at served
      refine ⟨sameStore, served.2.symm, fun result same => ?_⟩
      have same := Except.ok.inj same
      subst same
      rw [← served.1]
      exact ⟨by simp [kcUserToUser, server.userById_id _ _ _ looked], user, rfl, rfl⟩

/-- What an exchange with the admin API under a token is answered with, its errors mapped. -/
def adminAnswer (token : String) (keycloak : κ) (admin : AdminRequest) : Except Thrown admin.Ans :=
  match plan.http (.admin token admin) with
  | some (some response) => .error (mapAdminError platform response.status response.data)
  | some none => .error (.axios none)
  | none =>
    match serveAdmin server keycloak admin with
    | .error response => .error (mapAdminError platform response.status response.data)
    | .ok answered => .ok answered.1

theorem adminRequest_result (admin : AdminRequest) (drawn : Nat) :
    ((adminRequest platform admin).eval (answerProvider server plan) now request drawn world).result =
      (getAdminToken.eval (answerProvider server plan) now request drawn world).result.bind fun token =>
        adminAnswer server platform plan token world.keycloak admin := by
  obtain ⟨-, -, same⟩ := getAdminToken_spec server plan now request world drawn
  simp only [adminRequest, http, perform, Program.bind_eq, Program.eval_bind, Outcome.andThen, Program.tryCatch_eq,
    Program.eval_attempt, Program.eval_perform]
  cases (getAdminToken.eval (answerProvider server plan) now request drawn world).result with
  | error error => rfl
  | ok token =>
    simp only [answerProvider, answerHttp, serveHttp, Except.bind, adminAnswer, same]
    cases plan.http (.admin token admin) with
    | some response => cases response <;> rfl
    | none => cases serveAdmin server world.keycloak admin <;> rfl

/-- The admin token depends on the cache and on what Keycloak grants the client. -/
theorem getAdminToken_result (other : World κ) (cache : other.adminTokenCache = world.adminTokenCache)
    (credentials : server.clientCredentials other.keycloak =
      server.clientCredentials world.keycloak) (drawn : Nat) :
    (getAdminToken.eval (answerProvider server plan) now request drawn other).result =
      (getAdminToken.eval (answerProvider server plan) now request drawn world).result := by
  have fetched (drawn : Nat) :
      (fetchAdminToken.eval (answerProvider server plan) now request drawn other).result =
        (fetchAdminToken.eval (answerProvider server plan) now request drawn world).result := by
    simp only [fetchAdminToken, http, perform, Program.bind_eq, Program.eval_bind, Program.eval_perform,
      Outcome.andThen, answerProvider, answerHttp]
    cases plan.http .clientCredentials with
    | some response => rfl
    | none =>
      simp only [serveHttp, credentials]
      cases server.clientCredentials world.keycloak <;> rfl
  simp only [getAdminToken, perform, Program.bind_eq, Program.eval_bind, Program.eval_perform, Outcome.andThen,
    answerProvider, cache]
  cases world.adminTokenCache with
  | none => exact fetched drawn
  | some entry =>
    simp only [Program.eval_now_bind]
    split
    · rfl
    · exact fetched drawn

/-- The provider works: its requests go through, and there is an account with that id. -/
def Reaches (keycloak : κ) (id : String) (plan : Plan) : Prop :=
  (∀ call, plan.http call = none) ∧ (∃ token, server.clientCredentials keycloak = .ok token) ∧
    ∃ user, server.userById keycloak id = .ok user

theorem getAdminToken_works (through : plan.http .clientCredentials = none)
    (credentials : ∃ token, server.clientCredentials world.keycloak = .ok token) (drawn : Nat) :
    ∃ token, (getAdminToken.eval (answerProvider server plan) now request drawn world).result = .ok token := by
  obtain ⟨granted, credentials⟩ := credentials
  have fetched (drawn : Nat) :
      ∃ token, (fetchAdminToken.eval (answerProvider server plan) now request drawn world).result = .ok token := by
    refine ⟨granted.accessToken, ?_⟩
    simp only [fetchAdminToken, http, perform, Program.bind_eq, Program.eval_bind, Program.eval_perform,
      Outcome.andThen, answerProvider, answerHttp, serveHttp, through, credentials]
    rfl
  simp only [getAdminToken, perform, Program.bind_eq, Program.eval_bind, Program.eval_perform, Outcome.andThen,
    answerProvider]
  cases world.adminTokenCache with
  | none => exact fetched drawn
  | some entry =>
    simp only [Program.eval_now_bind]
    split
    · exact ⟨entry.accessToken, rfl⟩
    · exact fetched drawn

theorem adminRequest_works (through : ∀ call, plan.http call = none)
    (credentials : ∃ token, server.clientCredentials world.keycloak = .ok token) {admin : AdminRequest}
    {answer : admin.Ans} {state : κ} (serves : serveAdmin server world.keycloak admin = .ok (answer, state))
    (drawn : Nat) :
    ((adminRequest platform admin).eval (answerProvider server plan) now request drawn
      world).result = .ok answer := by
  obtain ⟨token, granted⟩ := getAdminToken_works server plan now request world (through _) credentials drawn
  obtain ⟨-, -, same⟩ := getAdminToken_spec server plan now request world drawn
  simp only [adminRequest, http, perform, Program.bind_eq, Program.eval_bind, Outcome.andThen, granted,
    Program.tryCatch_eq, Program.eval_attempt, Program.eval_perform, answerProvider, answerHttp, through, serveHttp,
    same, serves]

theorem answerAuth_getUserById_works {id : String} (works : Reaches server world.keycloak id plan) :
    ∃ user, (answerAuth server platform options plan now request (.getUserById id) world).1 = .ok user := by
  obtain ⟨through, credentials, found, looked⟩ := works
  have serves : serveAdmin server world.keycloak (.userById id) = .ok (found, world.keycloak) := by
    simp only [serveAdmin, looked]
    rfl
  have works := adminRequest_works server platform plan now request world through credentials serves 0
  refine ⟨kcUserToUser found now, ?_⟩
  simp only [answerAuth, evalMethod, getUserById, Program.bind_eq, Program.eval_bind, Outcome.andThen, works]
  rfl

theorem getUserByEmail_works (through : ∀ call, plan.http call = none)
    (credentials : ∃ token, server.clientCredentials world.keycloak = .ok token) {email : String}
    {found : KcUserRepresentation} {others : List KcUserRepresentation}
    (listed : server.usersByEmail world.keycloak email = .ok (found :: others)) (drawn : Nat) :
    ((getUserByEmail platform email).eval (answerProvider server plan) now request drawn world).result =
      .ok (kcUserToUser found now) := by
  have serves : serveAdmin server world.keycloak (.usersByEmail email) = .ok (found :: others, world.keycloak) := by
    simp only [serveAdmin, listed]
    rfl
  have works := adminRequest_works server platform plan now request world through credentials serves drawn
  simp only [getUserByEmail, Program.bind_eq, Program.eval_bind, Outcome.andThen, works]
  rfl

/-- What the provider answers once it has fetched the user: two tokens signed at `now` for its id. -/
def issued (options : Deployment) (now : Nat) (user : User) : IssueTokensResponse where
  accessToken := .jwt options.jwt.accessToken.secret
    (JwtTokenService.claims (userPayload user) .access options.jwt.accessToken.expiresIn now)
  refreshToken := .jwt options.jwt.refreshToken.secret
    (JwtTokenService.claims (userPayload user) .refresh options.jwt.refreshToken.expiresIn now)
  expiresIn := options.jwt.accessToken.expiresIn
  sub := user.id

/-- The claims `verifyRefreshToken` accepts at `now`, or the error it throws. -/
def refreshClaims (options : Deployment) (now : Nat) (token : Str) : Except Thrown TokenPayload :=
  match jwtVerify token options.jwt.refreshToken.secret now with
  | .expired => .error (.domain .tokenExpired "Refresh token has expired")
  | .invalid => .error (.domain .tokenInvalid "Invalid refresh token")
  | .valid payload =>
    if payload.typ ≠ some TokenUse.refresh.claim ∨ payload.sub = "" then
      .error (.domain .tokenInvalid "Invalid refresh token")
    else .ok payload

/-- A token that passes was signed with the refresh secret, for a refresh token that has not expired. -/
theorem refreshClaims_ok {options : Deployment} {now : Nat} {token : Str} {payload : TokenPayload}
    (valid : refreshClaims options now token = .ok payload) :
    token = .jwt options.jwt.refreshToken.secret payload ∧ payload.typ = some TokenUse.refresh.claim ∧
      payload.sub ≠ "" ∧ ∀ exp, payload.exp = some exp → now / 1000 < exp := by
  unfold refreshClaims jwtVerify at valid
  split at valid
  · cases valid
  · cases valid
  · rename_i accepted verified
    split at verified
    · rename_i key claims
      split at verified
      · cases verified
      · rename_i sameKey
        split at verified
        · rename_i exp atExp
          split at verified
          · cases verified
          · cases verified
            split at valid
            · cases valid
            · rename_i fine
              cases Except.ok.inj valid
              refine ⟨by rw [not_not.mp sameKey], by tauto, by tauto, ?_⟩
              intro other same
              rw [atExp] at same
              cases same
              omega
        · rename_i noExp
          cases verified
          split at valid
          · cases valid
          · rename_i fine
            cases Except.ok.inj valid
            refine ⟨by rw [not_not.mp sameKey], by tauto, by tauto, ?_⟩
            intro other same
            rw [noExp] at same
            cases same
    · cases verified

theorem answerAuth_issueTokens (userId : String) :
    answerAuth server platform options plan now request (.issueTokens userId) world =
      ((answerAuth server platform options plan now request (.getUserById userId) world).1.map
        (issued options now),
        (answerAuth server platform options plan now request (.getUserById userId) world).2) := by
  simp only [answerAuth, evalMethod, issueTokens, Program.bind_eq, Program.eval_bind, Outcome.andThen]
  cases ((getUserById platform userId).eval (answerProvider server plan) now request 0 world).result <;> rfl

theorem answerAuth_refreshToken (token : Str) :
    answerAuth server platform options plan now request (.refreshToken token) world =
      match refreshClaims options now token with
      | .error error => (.error error, world)
      | .ok payload => answerAuth server platform options plan now request (.issueTokens payload.sub) world := by
  simp only [answerAuth, evalMethod, refreshToken, JwtTokenService.verifyRefreshToken, JwtTokenService.verify,
    Program.bind_eq, Program.bind_assoc, Program.eval_now_bind, refreshClaims, issueTokens]
  cases jwtVerify token options.jwt.refreshToken.secret now with
  | expired => rfl
  | invalid => rfl
  | valid payload =>
    by_cases refused : payload.typ ≠ some TokenUse.refresh.claim ∨ payload.sub = ""
    · simp only [refused, if_true]
      rfl
    · simp only [refused, if_false]
      rfl

/-- What `authenticate` answers once the grant has passed and the account is looked up. -/
def authenticated (options : Deployment) (now : Nat) (user : User) : AuthenticateResponse where
  accessToken := (issued options now user).accessToken
  refreshToken := (issued options now user).refreshToken
  expiresIn := (issued options now user).expiresIn
  user := user

theorem oidcTokenRequest_spec (username password : String) (drawn : Nat) :
    let outcome := (oidcTokenRequest platform username password).eval (answerProvider server plan) now request
      drawn world
    outcome.drawn = drawn ∧ outcome.state = world ∧
      ∀ answer, outcome.result = .ok answer → plan.http (.passwordGrant username password) = none ∧
        server.passwordGrant world.keycloak username password = .ok () := by
  simp only [oidcTokenRequest, http, perform, Program.tryCatch_eq, Program.eval_attempt, Program.eval_perform,
    answerProvider, answerHttp, serveHttp]
  cases plan.http (.passwordGrant username password) with
  | some response => cases response <;> exact ⟨rfl, rfl, fun _ no => by cases no⟩
  | none =>
    cases server.passwordGrant world.keycloak username password with
    | error response => exact ⟨rfl, rfl, fun _ no => by cases no⟩
    | ok answer => exact ⟨rfl, rfl, fun _ _ => ⟨rfl, rfl⟩⟩

theorem getUserByEmail_spec (email : String) (drawn : Nat) :
    let outcome := (getUserByEmail platform email).eval (answerProvider server plan) now request drawn world
    outcome.state.keycloak = world.keycloak ∧ ∀ user, outcome.result = .ok user →
      ∃ found others, server.usersByEmail world.keycloak email = .ok (found :: others) ∧
        user = kcUserToUser found now := by
  obtain ⟨-, -, result⟩ := adminRequest_spec server platform plan now request world (.usersByEmail email) drawn
  simp only [getUserByEmail, Program.bind_eq, Program.eval_bind, Outcome.andThen]
  rcases result with ⟨error, failed, same⟩ | ⟨users, ok, served⟩
  · simp only [failed]
    exact ⟨same, fun _ no => by cases no⟩
  · simp only [ok]
    simp only [serveAdmin] at served
    cases looked : server.usersByEmail world.keycloak email with
    | error response => simp [looked, Except.map] at served
    | ok listed =>
      simp only [looked, Except.map, Except.ok.injEq, Prod.mk.injEq] at served
      obtain ⟨rfl, same⟩ := served
      cases listed with
      | nil => exact ⟨same.symm, fun _ no => by cases no⟩
      | cons found others =>
        exact ⟨same.symm, fun user answered => ⟨found, others, rfl, (Except.ok.inj answered).symm⟩⟩

theorem answerAuth_authenticate (email password : String) :
    let answered := answerAuth server platform options plan now request (.authenticate email password) world
    answered.2.keycloak = world.keycloak ∧ ∀ response, answered.1 = .ok response →
      server.passwordGrant world.keycloak email password = .ok () ∧
        ∃ found others, server.usersByEmail world.keycloak email = .ok (found :: others) ∧
          response = authenticated options now (kcUserToUser found now) := by
  obtain ⟨sameDrawn, same, granted⟩ := oidcTokenRequest_spec server platform plan now request world email password 0
  simp only [answerAuth, evalMethod, authenticate, Program.bind_eq, Program.eval_bind, Outcome.andThen]
  split
  · rename_i answer passed
    obtain ⟨sameKeycloak, found⟩ := getUserByEmail_spec server platform plan now request world email 0
    rw [same, sameDrawn]
    cases looked : ((getUserByEmail platform email).eval (answerProvider server plan)
      now request 0 world).result with
    | error error => exact ⟨sameKeycloak, fun _ no => by cases no⟩
    | ok user =>
      obtain ⟨account, others, listed, rfl⟩ := found user looked
      exact ⟨sameKeycloak, fun response answered =>
        ⟨(granted _ passed).2, account, others, listed, (Except.ok.inj answered).symm⟩⟩
  · exact ⟨by rw [same], fun _ no => by cases no⟩

/-- A password login that Keycloak grants gets in as the first account that is listed. -/
theorem answerAuth_authenticate_works (through : ∀ call, plan.http call = none)
    (credentials : ∃ token, server.clientCredentials world.keycloak = .ok token) {email password : String}
    {found : KcUserRepresentation} {others : List KcUserRepresentation}
    (granted : server.passwordGrant world.keycloak email password = .ok ())
    (listed : server.usersByEmail world.keycloak email = .ok (found :: others)) :
    (answerAuth server platform options plan now request (.authenticate email password) world).1 =
      .ok (authenticated options now (kcUserToUser found now)) := by
  have passes : (oidcTokenRequest platform email password).eval (answerProvider server plan) now request 0 world =
      ⟨.ok (), 0, world⟩ := by
    simp only [oidcTokenRequest, http, perform, Program.tryCatch_eq, Program.eval_attempt, Program.eval_perform,
      answerProvider, answerHttp, serveHttp, through, granted]
    rfl
  have looks := getUserByEmail_works server platform plan now request world through credentials listed 0
  simp only [answerAuth, evalMethod, authenticate, Program.bind_eq, Program.eval_bind,
    Outcome.andThen, passes, looks]
  rfl

/-- What the calls of a method can be rejected with. -/
def ProviderCall.rejected : ProviderCall → Thrown → Prop
  | .http _, error => ∃ response, error = .axios response
  | .toDataURL _, _ => True
  | _, _ => False

theorem answerProvider_rejected (call : ProviderCall) (world : World κ) (error : Thrown)
    (failed : (answerProvider server plan call world).1 = .error error) : call.rejected error := by
  cases call with
  | http call =>
    simp only [answerProvider, answerHttp] at failed
    cases planned : plan.http call with
    | some response =>
      simp only [planned] at failed
      exact ⟨response, (Except.error.inj failed).symm⟩
    | none =>
      simp only [planned] at failed
      split at failed
      · exact ⟨_, (Except.error.inj failed).symm⟩
      · cases failed
  | toDataURL secret => trivial
  | getUserData userId key => cases failed
  | saveUserData userId key value => cases failed
  | deleteUserData userId key => cases failed
  | readAdminTokenCache => cases failed
  | writeAdminTokenCache entry => cases failed

/-- The provider tells of no reuse. -/
def NoReuse (error : Thrown) : Prop := ∀ message, error ≠ .domain .tokenReuseDetected message

theorem http_throws (call : HttpCall) : (http call).Throws ProviderCall.rejected fun error =>
    ∃ response, error = .axios response := .perform fun _ => id

/-- What a request to the admin API can be rejected with. -/
def AdminError : Thrown → Prop
  | .domain kind _ => kind = .usernameAlreadyExists ∨ kind = .emailAlreadyExists ∨ kind = .userNotFound
  | _ => True

theorem AdminError.noReuse {error : Thrown} (fromAdmin : AdminError error) : NoReuse error := by
  rintro message rfl
  simp [AdminError] at fromAdmin

theorem mapAdminError_kind (platform : Platform) (status : Nat) (data : Option KcErrorResponse) :
    AdminError (mapAdminError platform status data) := by
  unfold mapAdminError
  simp only
  repeat' split
  all_goals simp [AdminError]

theorem getAdminToken_throws : getAdminToken.Throws ProviderCall.rejected AdminError := by
  have axios (error : Thrown) (failed : ∃ response, error = .axios response) : AdminError error := by
    obtain ⟨response, rfl⟩ := failed
    trivial
  have fetches : fetchAdminToken.Throws ProviderCall.rejected AdminError := by
    refine .bind (.perform axios) fun response => ?_
    exact .now fun now => .bind (.perform fun _ => False.elim) fun _ => trivial
  refine .bind (.perform fun _ => False.elim) fun cache => ?_
  cases cache with
  | none => exact fetches
  | some entry =>
    refine .now fun now => ?_
    split
    · trivial
    · exact fetches

theorem adminRequest_throws (platform : Platform) (admin : AdminRequest) :
    (adminRequest platform admin).Throws ProviderCall.rejected AdminError := by
  refine .bind getAdminToken_throws fun token => .attempt (http_throws _) ?_
  rintro _ ⟨response, rfl⟩
  cases response with
  | some response => exact mapAdminError_kind platform response.status response.data
  | none => trivial

theorem getUserByEmail_throws (email : String) :
    (getUserByEmail platform email).Throws ProviderCall.rejected AdminError := by
  refine .bind (adminRequest_throws platform _) fun users => ?_
  cases users with
  | nil => exact .inr (.inr rfl)
  | cons user others => exact fun _ => trivial

theorem answerAuth_refreshToken_noReuse {token : Str} {error : Thrown}
    (failed : (answerAuth server platform options plan now request (.refreshToken token) world).1 = .error error) :
    NoReuse error := by
  have looks (id : String) : (getUserById platform id).Throws ProviderCall.rejected AdminError :=
    .bind (adminRequest_throws platform _) fun _ _ => trivial
  rw [answerAuth_refreshToken] at failed
  cases valid : refreshClaims options now token with
  | error invalid =>
    simp only [valid] at failed
    cases failed
    unfold refreshClaims at valid
    split at valid
    · cases valid
      exact fun _ no => by cases no
    · cases valid
      exact fun _ no => by cases no
    · split at valid
      · cases valid
        exact fun _ no => by cases no
      · cases valid
  | ok payload =>
    simp only [valid, answerAuth_issueTokens] at failed
    cases looked : (answerAuth server platform options plan now request (.getUserById payload.sub) world).1 with
    | ok user => simp [looked, Except.map] at failed
    | error thrown =>
      simp only [looked, Except.map] at failed
      cases failed
      exact ((looks payload.sub).eval (answerProvider_rejected server plan) looked).noReuse

/-- The call leaves the user data alone. -/
def ProviderCall.readOnly : ProviderCall → Prop
  | .saveUserData _ _ _ => False
  | .deleteUserData _ _ => False
  | _ => True

theorem answerProvider_store {call : ProviderCall} (readOnly : call.readOnly) :
    (answerProvider server plan call world).2.store = world.store := by
  cases call with
  | http call =>
    simp only [answerProvider, answerHttp]
    cases plan.http call with
    | some response => rfl
    | none => cases serveHttp server world.keycloak call <;> rfl
  | saveUserData => exact readOnly.elim
  | deleteUserData => exact readOnly.elim
  | getUserData => rfl
  | readAdminTokenCache => rfl
  | writeAdminTokenCache => rfl
  | toDataURL => rfl

theorem http_readOnly (call : HttpCall) : (http call).Only ProviderCall.readOnly := .perform trivial

/-- What an admin request calls besides its own exchange is to get a token. -/
theorem adminRequest_only {allowed : ProviderCall → Prop} (fetch : allowed (.http .clientCredentials))
    (read : allowed .readAdminTokenCache) (write : ∀ entry, allowed (.writeAdminTokenCache entry))
    {admin : AdminRequest}
    (sends : ∀ token, allowed (.http (.admin token admin))) : (adminRequest platform admin).Only allowed := by
  have fetched : fetchAdminToken.Only allowed :=
    .bind (.perform fetch) fun response now => ⟨write _, fun answer => by cases answer <;> trivial⟩
  refine .bind (.bind (.perform read) fun cache => ?_) fun token =>
    .attempt (.perform (sends token)) fun error => ?_
  · cases cache with
    | none => exact fetched
    | some entry =>
      intro now
      simp only [Program.done_bind]
      split
      · trivial
      · exact fetched
  · split <;> trivial

theorem adminRequest_readOnly (admin : AdminRequest) : (adminRequest platform admin).Only ProviderCall.readOnly :=
  adminRequest_only platform trivial trivial (fun _ => trivial) fun _ => trivial

theorem getUserById_readOnly (id : String) : (getUserById platform id).Only ProviderCall.readOnly :=
  .bind (adminRequest_readOnly _ _) fun _ _ => trivial

theorem getUserByEmail_readOnly (email : String) :
    (getUserByEmail platform email).Only ProviderCall.readOnly := by
  refine .bind (adminRequest_readOnly _ _) fun users => ?_
  cases users with
  | nil => trivial
  | cons user others => exact fun _ => trivial

/-- Of the methods the use cases call, only `setup2FA` writes to the store. -/
theorem answerAuth_store {call : AuthCall} (notSetup : ∀ userId, call ≠ .setup2FA userId) :
    (answerAuth server platform options plan now request call world).2.store = world.store := by
  have kept {α : Type} {method : Method α} (only : method.Only ProviderCall.readOnly) :
      (evalMethod server plan now request method world).2.store = world.store :=
    only.eval (fun state : World κ => state.store = world.store)
      (fun _ _ readOnly same => (answerProvider_store _ _ _ readOnly).trans same) rfl
  have signed (user : User) {α : Type} (next : SignedTokens → Method α)
      (only : ∀ tokens, (next tokens).Only ProviderCall.readOnly) :
      (signUserTokens options.jwt user >>= next).Only ProviderCall.readOnly := fun _ _ => only _
  cases call with
  | register req => exact kept (.bind (adminRequest_readOnly _ _) fun _ => getUserByEmail_readOnly _ _)
  | authenticate email password =>
    refine kept (.bind (.attempt (http_readOnly _) fun error => ?_) fun _ =>
      .bind (getUserByEmail_readOnly _ _) fun user => signed user _ fun _ => trivial)
    split <;> trivial
  | refreshToken token =>
    refine kept (.bind (fun now => ?_) fun payload =>
      .bind (getUserById_readOnly _ _) fun user => signed user _ fun _ => trivial)
    simp only [Program.done_bind]
    split
    · trivial
    · trivial
    · split <;> trivial
  | logout token =>
    have only : (logout token).Only ProviderCall.readOnly := .attempt (http_readOnly _) fun _ => trivial
    exact kept only
  | completePasswordReset userId newPassword => exact kept (adminRequest_readOnly _ _)
  | getUserById id => exact kept (getUserById_readOnly _ _)
  | getUserByEmail email => exact kept (getUserByEmail_readOnly _ _)
  | setup2FA userId => exact absurd rfl (notSetup userId)
  | verify2FA userId code =>
    refine kept (.bind (.perform trivial) fun secret => ?_)
    split
    · trivial
    · exact fun _ => trivial
  | sendVerifyEmail userId =>
    have only : (sendVerifyEmail platform userId).Only ProviderCall.readOnly :=
      .attempt (adminRequest_readOnly _ _) fun _ => trivial
    exact kept only
  | issueTokens userId =>
    exact kept (.bind (getUserById_readOnly _ _) fun user => signed user _ fun _ => trivial)

/-- `setup2FA` refuses to replace a secret, or stores a new one before anything can fail. -/
theorem answerAuth_setup2FA (userId : String) :
    let answered := answerAuth server platform options plan now request (.setup2FA userId) world
    (Option.any Str.truthy (world.store.getUserData userId "totpSecret") = true ∧
      (∃ error, answered.1 = .error error) ∧ answered.2 = world) ∨
    (Option.any Str.truthy (world.store.getUserData userId "totpSecret") = false ∧
      answered.2.store = world.store.saveUserData userId "totpSecret" (.random ⟨request, 0⟩)) := by
  simp only [answerAuth, evalMethod, setup2FA, perform, Program.bind_eq, Program.eval_bind,
    Program.eval_perform, Outcome.andThen, answerProvider]
  by_cases configured : Option.any Str.truthy (world.store.getUserData userId "totpSecret") = true
  · simp only [configured, if_true]
    exact .inl ⟨trivial, ⟨_, rfl⟩, rfl⟩
  · have unset : Option.any Str.truthy (world.store.getUserData userId "totpSecret") = false := by
      simpa using configured
    simp only [unset, Bool.false_eq_true, if_false]
    refine .inr ⟨trivial, ?_⟩
    rw [Program.eval_random_bind]
    simp only [Program.eval_bind, Program.eval_perform, Outcome.andThen, answerProvider]
    cases plan.toDataURL <;> rfl

theorem answerAuth_records (call : AuthCall) :
    (answerAuth server platform options plan now request call world).2.store.records = world.store.records := by
  by_cases setup : ∃ userId, call = .setup2FA userId
  · obtain ⟨userId, rfl⟩ := setup
    rcases answerAuth_setup2FA server platform options plan now request world userId with
      ⟨_, _, same⟩ | ⟨_, saved⟩
    · rw [same]
    · rw [saved, InMemoryTokenStore.saveUserData_records]
  · rw [answerAuth_store _ _ _ _ _ _ _ fun userId same => setup ⟨userId, same⟩]

theorem answerAuth_getUserData {userId key : String} (call : AuthCall) (other : key ≠ "totpSecret") :
    (answerAuth server platform options plan now request call world).2.store.getUserData userId key =
      world.store.getUserData userId key := by
  by_cases setup : ∃ userId, call = .setup2FA userId
  · obtain ⟨enrolling, rfl⟩ := setup
    rcases answerAuth_setup2FA server platform options plan now request world enrolling with
      ⟨_, _, same⟩ | ⟨_, saved⟩
    · rw [same]
    · rw [saved, InMemoryTokenStore.getUserData_saveUserData_other _ _ (.inr other)]
  · rw [answerAuth_store _ _ _ _ _ _ _ fun userId same => setup ⟨userId, same⟩]

/-- An entry other than the second factor's secret changes only where it is saved or deleted. -/
theorem answerCall_getUserData {userId key : String} (call : Call) (other : key ≠ "totpSecret")
    (saves : ∀ user name value, call = .store (.saveUserData user name value) → userId ≠ user ∨ key ≠ name)
    (deletes : ∀ user name, call = .store (.deleteUserData user name) → userId ≠ user ∨ key ≠ name) :
    (answerCall server platform options plan now request call world).2.store.getUserData userId key =
      world.store.getUserData userId key := by
  cases call with
  | store call =>
    cases call with
    | save record => rfl
    | findByToken token type => rfl
    | markConsumed id => exact InMemoryTokenStore.getUserData_markConsumed ..
    | deleteExpired => rfl
    | deleteAllForUser owner => rfl
    | saveUserData user name value =>
      exact InMemoryTokenStore.getUserData_saveUserData_other _ _ (saves _ _ _ rfl)
    | getUserData user name => rfl
    | deleteUserData user name => exact InMemoryTokenStore.getUserData_deleteUserData_other _ (deletes _ _ rfl)
  | auth call => exact answerAuth_getUserData _ _ _ _ _ _ _ call other
  | render template link => rfl
  | send req => rfl

/-- `verify2FA` accepts a code only after checking it against the stored secret. -/
theorem answerAuth_verify2FA (userId code : String) :
    answerAuth server platform options plan now request (.verify2FA userId code) world =
      (.ok (((world.store.getUserData userId "totpSecret").filter Str.truthy).any
        fun secret => platform.totpVerify secret code now), world) := by
  simp only [answerAuth, evalMethod, verify2FA, perform, Program.bind_eq, Program.eval_bind,
    Program.eval_perform, Outcome.andThen, answerProvider]
  cases (world.store.getUserData userId "totpSecret").filter Str.truthy <;> rfl

end

end KeycloakAuth
