import KeycloakAuth.Sessions
import KeycloakAuth.Async.Unwinding

namespace KeycloakAuth
open Async Service InMemoryTokenStore LoginUseCase

/-- Whom the addresses of the directory belong to, and the requests of a run by their numbers. -/
structure Roster where
  platform : Platform
  owner : String → Option String
  requests : List Request

namespace Roster
variable (roster : Roster)

/-- The user behind the address that a request names. -/
def addressee : Request → Option String
  | .login email _ => roster.owner (normalize roster.platform email)
  | .forgotPassword email => roster.owner email
  | .sendMagicLink email => roster.owner email
  | _ => none

/-- The user whom a token is for: its subject, or the user whose address it was drawn for. -/
def tokenUser : Str → Option String
  | .random nonce => roster.requests[nonce.request]?.bind roster.addressee
  | token => token.subject

/-- The user whom a request is about. -/
def user : Request → Option String
  | .login email password => roster.addressee (.login email password)
  | .forgotPassword email => roster.addressee (.forgotPassword email)
  | .sendMagicLink email => roster.addressee (.sendMagicLink email)
  | .complete2FA preAuthToken _ => roster.tokenUser preAuthToken
  | .resetPassword token _ => roster.tokenUser token
  | .verifyMagicLink token => roster.tokenUser token
  | .refresh refreshToken => roster.tokenUser refreshToken
  | .logout refreshToken => roster.tokenUser refreshToken
  | .setup2FA userId => some userId
  | .verify2FA userId _ => some userId
  | .register .. => none

/-- The user of the request that has drawn a record's id. -/
def idUser : Str → Option String
  | .random nonce => roster.requests[nonce.request]?.bind roster.user
  | _ => none

/-- The entry is a failure counter or a lock of an address of `subject`. -/
def CounterOf (subject : Option String) (userId key : String) : Prop :=
  userId = "system" ∧ ∃ email, roster.owner email = subject ∧ (key = failedKey email ∨ key = lockKey email)

/-- What request `p` may call if it keeps to `subject`. -/
def Scope (p : Nat) (subject : Option String) : Call → Prop
  | .store (.save record) => subject = some record.userId ∧ (∃ index, record.id = .random ⟨p, index⟩) ∧
      roster.tokenUser record.token = subject
  | .store (.findByToken token _) => roster.tokenUser token = subject
  | .store (.markConsumed id) => roster.idUser id = subject
  | .store .deleteExpired => False
  | .store (.deleteAllForUser userId) => subject = some userId
  | .store (.saveUserData userId key _) => roster.CounterOf subject userId key
  | .store (.getUserData userId key) => roster.CounterOf subject userId key ∨
      subject = some userId ∧ key = "totpSecret"
  | .store (.deleteUserData userId key) => roster.CounterOf subject userId key
  | .auth (.register _) => False
  | .auth (.authenticate email _) => roster.owner email = subject
  | .auth (.refreshToken token) => roster.tokenUser token = subject
  | .auth (.logout _) => True
  | .auth (.completePasswordReset userId _) => subject = some userId
  | .auth (.getUserById id) => subject = some id
  | .auth (.getUserByEmail email) => roster.owner email = subject
  | .auth (.setup2FA userId) => subject = some userId
  | .auth (.verify2FA userId _) => subject = some userId
  | .auth (.sendVerifyEmail _) => False
  | .auth (.issueTokens userId) => subject = some userId
  | .render _ _ => True
  | .send _ => True

/-- What the answers tell of is the user's, too. -/
def Expected (subject : Option String) : (call : Call) → call.Ans → Prop
  | .store (.findByToken _ _), found => ∀ record : TokenRecord, found = some record →
      subject = some record.userId ∧ roster.idUser record.id = subject
  | .auth (.authenticate _ _), result => subject = some (AuthenticateResponse.user result).id ∧
      roster.tokenUser (AuthenticateResponse.refreshToken result) = subject
  | .auth (.getUserByEmail _), user => subject = some (User.id user)
  | .auth (.refreshToken _), tokens => roster.tokenUser (IssueTokensResponse.refreshToken tokens) = subject
  | .auth (.issueTokens _), tokens => roster.tokenUser (IssueTokensResponse.refreshToken tokens) = subject
  | _, _ => True

abbrev Keeps {α : Type} (p : Nat) (subject : Option String) (R : α → Prop) (body : Service α) : Prop :=
  body.Within (roster.Scope p subject) (roster.Expected subject) p R

variable {roster} {p : Nat} {subject : Option String}

theorem saveRecord_keeps {userId : String} {type : TokenType} {token : Str} {ttlMs : Nat}
    (own : subject = some userId) (theirs : roster.tokenUser token = subject) :
    roster.Keeps p subject (fun _ => True) (saveRecord userId type token ttlMs) :=
  fun index _ _ => .perform ⟨own, ⟨index, rfl⟩, theirs⟩ fun _ _ => trivial

theorem checkLock_keeps {email : String} (own : roster.owner email = subject) :
    roster.Keeps p subject (fun _ => True) (checkLock (failedKey email) (lockKey email)) := by
  refine .perform_bind (.inl ⟨rfl, email, own, .inr rfl⟩) fun entry _ => ?_
  split
  · trivial
  · refine .now fun now => ?_
    split
    · trivial
    · exact .perform_bind ⟨rfl, email, own, .inr rfl⟩ fun _ _ =>
        .perform ⟨rfl, email, own, .inl rfl⟩ fun _ _ => trivial

theorem recordFailedAttempt_keeps (self : LoginUseCase) {email : String} (own : roster.owner email = subject) :
    roster.Keeps p subject (fun _ => True) (self.recordFailedAttempt (failedKey email) (lockKey email)) := by
  refine .bind (R := fun _ => True) ?_ fun attempts _ => .now fun now => ?_
  · refine .perform_bind (.inl ⟨rfl, email, own, .inl rfl⟩) fun _ _ _ => ?_
    trivial
  · refine .perform_bind ⟨rfl, email, own, .inl rfl⟩ fun _ _ => ?_
    split
    · refine fun now => ?_
      simp only [Program.pure_eq, Program.done_bind]
      split
      · trivial
      · exact .perform ⟨rfl, email, own, .inr rfl⟩ fun _ _ => trivial
    · trivial

/-- Whom a password lets in is the user behind the address. -/
theorem authenticate_keeps (self : LoginUseCase) {email password : String} (own : roster.owner email = subject) :
    roster.Keeps p subject (fun result => subject = some result.user.id ∧
      roster.tokenUser result.refreshToken = subject)
      (self.authenticate email password) := by
  refine .attempt (.perform own fun _ expected => expected) fun error => ?_
  simp only
  split
  · exact .bind (recordFailedAttempt_keeps self own) fun _ _ => (by trivial)
  · trivial

theorem login_keeps {email password : String} (options : Deployment)
    (served : roster.requests[p]? = some (.login email password)) :
    roster.Keeps p (roster.user (.login email password)) (fun _ => True)
      (Request.body roster.platform options (.login email password)) := by
  have own : roster.owner (normalize roster.platform email) = roster.user (.login email password) := rfl
  have drawn (index : Nat) : roster.tokenUser (.random ⟨p, index⟩) = roster.user (.login email password) := by
    simp only [tokenUser, served, Option.bind_some, user]
  refine .bind (R := fun _ => True) ?_ fun _ _ => (by trivial)
  refine .bind (checkLock_keeps own) fun _ _ => .bind (authenticate_keeps _ own) fun result keeps => ?_
  refine .perform_bind ⟨rfl, _, own, .inl rfl⟩ fun _ _ => .perform_bind ⟨rfl, _, own, .inr rfl⟩ fun _ _ => ?_
  refine .perform_bind (.inr ⟨keeps.1, rfl⟩) fun secret _ => ?_
  split
  · exact .random fun index => .bind (saveRecord_keeps keeps.1 (drawn index)) fun _ _ => (by trivial)
  · exact .bind (saveRecord_keeps keeps.1 keeps.2) fun _ _ => (by trivial)

/-- A link is drawn for the user behind the address it is sent to. -/
theorem sendLink_keeps {type : TokenType} {ttlMs : Nat} {template : EmailTemplate} {page message email : String}
    (own : roster.owner email = subject) (drawn : ∀ index, roster.tokenUser (.random ⟨p, index⟩) = subject) :
    roster.Keeps p subject (fun _ => True) (sendLink type ttlMs template page message email) := by
  refine .bind (R := fun lookup => ∀ user, lookup = some user → subject = some user.id) ?_ fun lookup theirs => ?_
  · refine .attempt (.perform_bind own fun user expected => ?_) fun error => ?_
    · rintro _ ⟨⟩
      exact expected
    · split
      · rintro _ ⟨⟩
      · trivial
  · cases lookup with
    | none => trivial
    | some user =>
      refine .random fun index => .bind (saveRecord_keeps (theirs user rfl) (drawn index)) fun _ _ => ?_
      exact .perform_bind trivial fun _ _ => .perform_bind trivial fun _ _ => (by trivial)

theorem refresh_keeps {ttl : Nat} {token : Str} (own : roster.tokenUser token = subject) :
    roster.Keeps p subject (fun _ => True) (RefreshTokenUseCase.execute ttl token) := by
  refine .perform_bind own fun found expected => ?_
  cases found with
  | none => trivial
  | some record =>
  obtain ⟨theirs, drawn⟩ := expected record rfl
  have wipes : roster.Keeps p subject (fun _ : SessionResponse => True) (do
      let _ ← tokenStore (.deleteAllForUser record.userId)
      throw RefreshTokenUseCase.reuseDetected) := .perform_bind theirs fun _ _ => (by trivial)
  simp only
  split
  · exact wipes
  · refine .now fun now => ?_
    split
    · trivial
    · refine .perform_bind drawn fun consumed _ => ?_
      split
      · exact wipes
      · refine .perform_bind own fun tokens fresh => ?_
        exact .bind (saveRecord_keeps theirs fresh) fun _ _ => (by trivial)

/-- A token that is redeemed once leads to the user it is for. -/
theorem redeem_keeps {β : Type} {R : β → Prop} {token : Str} {type : TokenType} {unknown used expired lost : Thrown}
    {rest : TokenRecord → Service β} (own : roster.tokenUser token = subject)
    (goes_on : ∀ record, subject = some record.userId → roster.Keeps p subject R (rest record)) :
    roster.Keeps p subject R (do
      let found : Option TokenRecord ← tokenStore (.findByToken token type)
      match found with
      | none => throw unknown
      | some record =>
        if record.consumedAt.isSome then throw used
        if record.expiresAt.before (← Program.now) then throw expired
        let consumed : Bool ← tokenStore (.markConsumed record.id)
        if !consumed then throw lost
        rest record) := by
  refine .perform_bind own fun found expected => ?_
  cases found with
  | none => trivial
  | some record =>
  obtain ⟨theirs, drawn⟩ := expected record rfl
  simp only
  split
  · trivial
  · refine .now fun now => ?_
    split
    · trivial
    · refine .perform_bind drawn fun consumed _ => ?_
      split
      · trivial
      · exact goes_on record theirs

theorem resetPassword_keeps {token : Str} {newPassword : String} (own : roster.tokenUser token = subject) :
    roster.Keeps p subject (fun _ => True) (ResetPasswordUseCase.execute token newPassword) := by
  simp only [ResetPasswordUseCase.execute, Program.bind_eq]
  cases Password.create newPassword with
  | error weak => trivial
  | ok password =>
    refine redeem_keeps own fun record theirs => ?_
    exact .perform_bind theirs fun _ _ => .perform_bind theirs fun _ _ => (by trivial)

theorem verifyMagicLink_keeps {ttl : Nat} {token : Str} (own : roster.tokenUser token = subject) :
    roster.Keeps p subject (fun _ => True) (VerifyMagicLinkUseCase.execute ttl token) := by
  refine redeem_keeps own fun record theirs => .perform_bind theirs fun tokens fresh => ?_
  exact .bind (saveRecord_keeps theirs fresh) fun _ _ => (by trivial)

theorem complete2FA_keeps {ttl : Nat} {token : Str} {code : String} (own : roster.tokenUser token = subject) :
    roster.Keeps p subject (fun _ => True) (Complete2FALoginUseCase.execute ttl token code) := by
  refine .perform_bind own fun found expected => ?_
  cases unused : found.filter (·.consumedAt.isNone) with
  | none => trivial
  | some record =>
  obtain ⟨theirs, drawn⟩ := expected record (Option.filter_eq_some_iff.mp unused).1
  refine .now fun now => ?_
  split
  · trivial
  · refine .perform_bind theirs fun valid _ => ?_
    split
    · trivial
    · refine .perform_bind drawn fun consumed _ => ?_
      split
      · trivial
      · refine .perform_bind theirs fun user _ => .perform_bind theirs fun tokens fresh => ?_
        exact .bind (saveRecord_keeps theirs fresh) fun _ _ => (by trivial)

theorem logout_keeps {token : Str} (own : roster.tokenUser token = subject) :
    roster.Keeps p subject (fun _ => True) (LogoutUseCase.execute token) := by
  have ends : roster.Keeps p subject (fun _ => True) (authProvider (.logout token)) :=
    .perform trivial fun _ _ => trivial
  refine .perform_bind own fun found expected => ?_
  cases found with
  | none => exact ends
  | some record =>
    obtain ⟨-, drawn⟩ := expected record rfl
    simp only
    split
    · exact .perform_bind drawn fun _ _ => ends
    · exact ends

attribute [local irreducible] Password.create in
/-- Every request but a registration keeps to the user whom it is about. -/
theorem body_keeps (options : Deployment) {request : Request} (served : roster.requests[p]? = some request)
    (known : ∀ email username password, request ≠ .register email username password) :
    roster.Keeps p (roster.user request) (fun _ => True) (request.body roster.platform options) := by
  have drawn (index : Nat) : roster.tokenUser (.random ⟨p, index⟩) = roster.addressee request := by
    simp only [tokenUser, served, Option.bind_some]
  cases request with
  | register email username password => exact absurd rfl (known email username password)
  | login email password => exact login_keeps options served
  | complete2FA token code => exact .bind (complete2FA_keeps rfl) fun _ _ => (by trivial)
  | refresh token => exact .bind (refresh_keeps rfl) fun _ _ => (by trivial)
  | forgotPassword email => exact .bind (sendLink_keeps rfl drawn) fun _ _ => (by trivial)
  | resetPassword token newPassword => exact Program.Within.bind (resetPassword_keeps rfl) fun _ _ => (by trivial)
  | sendMagicLink email => exact .bind (sendLink_keeps rfl drawn) fun _ _ => (by trivial)
  | verifyMagicLink token => exact .bind (verifyMagicLink_keeps rfl) fun _ _ => (by trivial)
  | setup2FA userId => exact .perform_bind rfl fun _ _ => (by trivial)
  | verify2FA userId code =>
    refine .bind (R := fun _ => True) (.perform_bind rfl fun valid _ => ?_) fun _ _ => (by trivial)
    split <;> trivial
  | logout token => exact .bind (logout_keeps rfl) fun _ _ => (by trivial)

/-- Whatever is on file was drawn by a request about the user it is filed under, for a token of that user. -/
def Filed (roster : Roster) (store : InMemoryTokenStore) : Prop :=
  ∀ record ∈ store.records, roster.idUser record.id = some record.userId ∧
    ∀ token, record.token = hashToken token → roster.tokenUser token = some record.userId

theorem Filed.found {store : InMemoryTokenStore} (filed : roster.Filed store) {token : Str} {type : TokenType}
    {record : TokenRecord} (found : store.findByToken token type = some record) :
    roster.tokenUser token = some record.userId ∧ roster.idUser record.id = some record.userId := by
  obtain ⟨member, hashed, -⟩ := findByToken_spec found
  obtain ⟨drawn, theirs⟩ := filed record member
  exact ⟨theirs token hashed, drawn⟩

section
variable {κ : Type} {server : KeycloakServer κ} {options : Deployment} {plan : Plan} {now : Nat} {world : World κ}

/-- The owner of an address is the first account that Keycloak lists for it. -/
def Lists (roster : Roster) (server : KeycloakServer κ) : Prop :=
  ∀ state email found others, server.usersByEmail state email = .ok (found :: others) →
    found.id = roster.owner email

variable (now) in
theorem Lists.user_id (lists : roster.Lists server) {state : κ} {email : String} {found : KcUserRepresentation}
    {others : List KcUserRepresentation} (listed : server.usersByEmail state email = .ok (found :: others)) :
    roster.owner email = some (KeycloakAuthProvider.kcUserToUser found now).id := by
  obtain ⟨id, named, -⟩ := server.usersByEmail_id state email _ listed found List.mem_cons_self
  rw [← lists state email found others listed, KeycloakAuthProvider.kcUserToUser, named]
  rfl

/-- A request that keeps to its user only learns of that user. -/
theorem answerCall_expected (lists : roster.Lists server) (filed : roster.Filed world.store) {call : Call}
    (scope : roster.Scope p subject call) {value : call.Ans}
    (answered : (answerCall server roster.platform options plan now p call world).1 = .ok value) :
    roster.Expected subject call value := by
  cases call with
  | store call =>
    cases call with
    | findByToken token type =>
      intro record found
      have onFile : world.store.findByToken token type = some record := (Except.ok.inj answered).trans found
      obtain ⟨theirs, drawn⟩ := filed.found onFile
      exact ⟨scope.symm.trans theirs, drawn.trans (theirs.symm.trans scope)⟩
    | save => trivial
    | markConsumed => trivial
    | deleteExpired => trivial
    | deleteAllForUser => trivial
    | saveUserData => trivial
    | getUserData => trivial
    | deleteUserData => trivial
  | auth call =>
    cases call with
    | authenticate email password =>
      obtain ⟨-, result⟩ := answerAuth_authenticate server roster.platform options plan now p world email password
      obtain ⟨-, found, others, listed, rfl⟩ := result value answered
      have owner := scope.symm.trans (lists.user_id now listed)
      exact ⟨owner, owner.symm⟩
    | getUserByEmail email =>
      obtain ⟨-, result⟩ := getUserByEmail_spec server roster.platform plan now p world email 0
      obtain ⟨found, others, listed, rfl⟩ := result value answered
      exact scope.symm.trans (lists.user_id now listed)
    | issueTokens userId =>
      obtain ⟨user, rfl, rfl⟩ := answerAuth_issueTokens_ok answered
      exact scope.symm
    | refreshToken token =>
      obtain ⟨payload, user, valid, named, rfl⟩ := answerAuth_refreshToken_ok answered
      obtain ⟨rfl, -⟩ := refreshClaims_ok valid
      exact (congrArg some named).trans scope
    | register => trivial
    | logout => trivial
    | completePasswordReset => trivial
    | getUserById => trivial
    | setup2FA => trivial
    | verify2FA => trivial
    | sendVerifyEmail => trivial
  | render => trivial
  | send => trivial

theorem Filed.answerCall (filed : roster.Filed world.store) {request : Request}
    (served : roster.requests[p]? = some request) {call : Call}
    (scope : roster.Scope p (roster.user request) call) :
    roster.Filed (answerCall server roster.platform options plan now p call world).2.store := by
  intro record member
  rcases answerCall_records member with ⟨old, onFile, _, rfl, -⟩ | ⟨original, rfl, rfl⟩
  · exact filed old onFile
  · obtain ⟨own, ⟨index, drawn⟩, theirs⟩ := scope
    refine ⟨?_, fun token same => ?_⟩
    · simp only [drawn, idUser, served, Option.bind_some, own]
    · rw [← Str.sha256.inj same, theirs, own]

/-- Every request so far keeps to its user. -/
structure Kept (roster : Roster) (cfg : AuthConfig κ) : Prop where
  served : ∀ (p : Nat) (thread : Thread Call.Ans Thrown Request Response), cfg.threads[p]? = some thread →
    roster.requests[p]? = some thread.request
  scopes : cfg.Confined (fun p request => roster.Scope p (roster.user request))
    fun request => roster.Expected (roster.user request)
  filed : roster.Filed cfg.shared.store

theorem Kept.start (roster : Roster) (clock : Nat) (keycloak : κ) :
    roster.Kept (.start clock (.fresh keycloak) : AuthConfig κ) where
  served := by simp [Config.start]
  scopes := by simp [Config.start, Config.Confined]
  filed := by simp [Config.start, World.fresh, Filed]

theorem Kept.advance {cfg next : AuthConfig κ} {event : AuthEvent κ} (kept : roster.Kept cfg)
    (lists : roster.Lists server) (known : ∀ email username password,
      event ≠ .arrive (.register email username password))
    (served : ∀ (p : Nat) (thread : Thread Call.Ans Thrown Request Response), next.threads[p]? = some thread →
      roster.requests[p]? = some thread.request)
    (step : (authSystem server roster.platform options).advance cfg event = some next) : roster.Kept next := by
  rcases System.advance_cases step with ⟨delay, rfl, rfl⟩ | ⟨change, rfl, rfl⟩ | ⟨request, rfl, rfl⟩ |
    ⟨p, plan, thread, call, rest, rfl, found, waiting, rfl⟩
  · exact ⟨kept.served, kept.scopes, kept.filed⟩
  · exact ⟨kept.served, kept.scopes, fun record member =>
      kept.filed record (disturb_records server roster.platform options member)⟩
  · refine ⟨served, kept.scopes.arrive ?_, kept.filed⟩
    refine body_keeps options (served _ _ (List.getElem?_concat_length ..)) fun email username password no => ?_
    exact known email username password (congrArg Event.arrive no)
  · have scope := kept.scopes.in_scope found waiting
    refine ⟨served, kept.scopes.resume found waiting fun scope value => ?_, ?_⟩
    · exact answerCall_expected lists kept.filed scope
    · exact kept.filed.answerCall (kept.served p thread found) scope

end

end Roster

end KeycloakAuth
