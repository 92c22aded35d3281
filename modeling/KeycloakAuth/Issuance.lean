import KeycloakAuth.Rotation

namespace KeycloakAuth
open Async Service LoginUseCase InMemoryTokenStore

section
variable {κ : Type} (server : KeycloakServer κ) (platform : Platform) (options : Deployment) (p : Nat)

/-- How request `p` gets to a session in the world `before`, and the store it leaves behind. -/
inductive SessionIssued (before : World κ) (after : InMemoryTokenStore) : Request → SessionResponse → Prop
  | login {email password result asked plan world saved} {store : InMemoryTokenStore}
      (same : world.keycloak = before.keycloak)
      (accepted : (answerAuth server platform options plan asked p
        (.authenticate (normalize platform email) password) world).1 = .ok result)
      (notEnrolled : Option.any Str.truthy (before.store.getUserData result.user.id "totpSecret") = false)
      (kept : store.records = before.store.records)
      (files : after = store.save (freshRecord ⟨p, 0⟩ result.user.id .refreshToken result.refreshToken
        options.refreshTokenTtlMs saved)) :
      SessionIssued before after (.login email password)
        ⟨result.accessToken, result.refreshToken, result.expiresIn⟩
  | rotated {token tokens arrived now} (run : RefreshRun server platform options
      (fun _ => True) p token arrived before
        (.ok (.refresh tokens)) now after) :
      SessionIssued before after (.refresh token) tokens
  | magicLink {token record tokens asked plan world} (marked : Nat)
      (found : before.store.findByToken token .magicLink = some record) (unused : record.consumedAt = none)
      (same : world.keycloak = before.keycloak)
      (answered : (answerAuth server platform options plan asked p
        (.issueTokens record.userId) world).1 = .ok tokens)
      (files : after = (before.store.markConsumed record.id marked).2.save (freshRecord ⟨p, 0⟩ record.userId
        .refreshToken tokens.refreshToken options.refreshTokenTtlMs asked)) :
      SessionIssued before after (.verifyMagicLink token) tokens.session
  | secondFactor {token code record tokens checked asked plan world} (marked : Nat)
      (found : before.store.findByToken token .preAuth2FA = some record) (unused : record.consumedAt = none)
      (verified : ((before.store.getUserData record.userId "totpSecret").filter Str.truthy).any
        (fun secret => platform.totpVerify secret code checked) = true)
      (same : world.keycloak = before.keycloak)
      (answered : (answerAuth server platform options plan asked p
        (.issueTokens record.userId) world).1 = .ok tokens)
      (files : after = (before.store.markConsumed record.id marked).2.save (freshRecord ⟨p, 0⟩ record.userId
        .refreshToken tokens.refreshToken options.refreshTokenTtlMs asked)) :
      SessionIssued before after (.complete2FA token code) tokens.session

/-- A response that hands out a session has got it in one of these ways. -/
def Issues (before : World κ) (request : Request) (response : Response) (_ : Nat) (after : World κ) : Prop :=
  ∀ tokens, response.session = some tokens → SessionIssued server platform options p
    before after.store request tokens

variable {server platform options p} {now : Nat} {world : World κ} {log : List LogEntry}

theorem answerAuth_issueTokens_store (plan : Plan) (asked : Nat) (userId : String) (taken : World κ) :
    (answerAuth server platform options plan asked p (.issueTokens userId) taken).2.store = taken.store :=
  answerAuth_store _ _ _ _ _ _ _ fun _ no => by cases no

theorem magicLink_ensures {token : Str} :
    ((Request.verifyMagicLink token).body platform options).Ensures (answerCall server platform options)
      (fun _ => True) p (Returns (Issues server platform options p world (.verifyMagicLink token))) now 0 world
      log := by
  simp only [Request.body, VerifyMagicLinkUseCase.execute, tokenStore, authProvider, Program.bind_eq,
    Program.bind_assoc]
  refine tokenStore_ensures server platform options fun looked _ => ?_
  simp only [answerStore]
  cases found : world.store.findByToken token .magicLink with
  | none => exact Returns.failed
  | some record =>
  by_cases used : record.consumedAt.isSome = true
  · simp only [used, if_true]
    exact Returns.failed
  simp only [used, Bool.false_eq_true, if_false, Program.bind_assoc, Program.pure_eq]
  refine .now ?_
  have unused : record.consumedAt = none := by simpa using used
  by_cases expired : record.expiresAt.before looked = true
  · simp only [expired, if_true]
    exact Returns.failed
  simp only [expired, Bool.false_eq_true, if_false, Program.bind_assoc]
  refine tokenStore_ensures server platform options fun marked _ => ?_
  have taken := markConsumed_unused marked (findByToken_spec found).1 unused
  simp only [answerStore, taken.1, Bool.not_true, Bool.false_eq_true, if_false, Program.bind_assoc]
  refine .answered fun plan asked tokens log _ _ answered => ?_
  refine saveRecord_ensures server platform options fun saved after => Returns.ok ?_
  rintro _ ⟨⟩
  refine .magicLink marked found unused ?_ answered ?_
  · rfl
  · exact congrArg (InMemoryTokenStore.save · _) (answerAuth_issueTokens_store ..)

theorem complete2FA_ensures {token : Str} {code : String} :
    ((Request.complete2FA token code).body platform options).Ensures (answerCall server platform options)
      (fun _ => True) p (Returns (Issues server platform options p world (.complete2FA token code))) now 0 world
      log := by
  simp only [Request.body, Complete2FALoginUseCase.execute, tokenStore, authProvider, Program.bind_eq,
    Program.bind_assoc]
  refine tokenStore_ensures server platform options fun looked _ => ?_
  simp only [answerStore]
  cases found : world.store.findByToken token .preAuth2FA with
  | none => exact Returns.failed
  | some record =>
  by_cases used : record.consumedAt.isNone = true
  swap
  · simp only [Option.filter, used, Bool.false_eq_true, if_false]
    exact Returns.failed
  simp only [Option.filter, used, if_true, Program.bind_assoc]
  refine .now ?_
  have unused : record.consumedAt = none := by simpa using used
  by_cases expired : record.expiresAt.before looked = true
  · simp only [expired, if_true]
    exact Returns.failed
  simp only [expired, Bool.false_eq_true, if_false, Program.bind_assoc, Program.pure_eq]
  refine .answered fun plan checked valid log _ _ verified => ?_
  simp only [answerCall, answerAuth_verify2FA] at verified ⊢
  cases valid with
  | false => exact Returns.failed
  | true =>
  have verified := Except.ok.inj verified
  simp only [Bool.not_true, Bool.false_eq_true, if_false, Program.bind_assoc]
  refine tokenStore_ensures server platform options fun marked _ => ?_
  have taken := markConsumed_unused marked (findByToken_spec found).1 unused
  simp only [answerStore, taken.1, Bool.not_true, Bool.false_eq_true, if_false, Program.bind_assoc]
  refine .answered fun plan fetched user log _ _ _ => ?_
  refine .answered fun plan' asked tokens log _ _ answered => ?_
  refine saveRecord_ensures server platform options fun saved after => Returns.ok ?_
  rintro _ ⟨⟩
  refine .secondFactor marked found unused verified ?_ answered ?_
  · exact (answerAuth_getUserById server platform options plan fetched p _ _).2.1
  · refine congrArg (InMemoryTokenStore.save · _) ((answerAuth_issueTokens_store ..).trans ?_)
    exact (answerAuth_getUserById server platform options plan fetched p _ _).1

/-- Records and second factors are the same. -/
def SameSessions (before after : InMemoryTokenStore) : Prop :=
  after.records = before.records ∧
    ∀ userId, after.getUserData userId "totpSecret" = before.getUserData userId "totpSecret"

theorem SameSessions.deleteUserData {before after : InMemoryTokenStore} (same : SameSessions before after)
    (userId : String) {key : String} (other : "totpSecret" ≠ key) :
    SameSessions before (after.deleteUserData userId key) := by
  refine ⟨(deleteUserData_records ..).trans same.1, fun owner => ?_⟩
  rw [getUserData_deleteUserData_other _ (.inr other)]
  exact same.2 owner

theorem checkLock_ensures {email : String} {next : Unit → Service Response} {R : Response → Nat → World κ → Prop}
    (passed : ∀ later store log, SameSessions world.store store → (next ()).Ensures
      (answerCall server platform options) (fun _ => True) p (Returns R) later 0
        { world with store := store } log) :
    ((checkLock (failedKey email) (lockKey email)).bind next).Ensures (answerCall server platform options)
      (fun _ => True) p (Returns R) now 0 world log := by
  simp only [checkLock, tokenStore, Program.bind_eq, Program.bind_assoc]
  refine tokenStore_ensures server platform options fun looked _ => ?_
  simp only [answerStore]
  have unchanged : SameSessions world.store world.store := ⟨rfl, fun _ => rfl⟩
  cases Option.filter Str.truthy (world.store.getUserData "system" (lockKey email)) with
  | none => exact passed looked world.store _ unchanged
  | some text =>
    simp only [Program.bind_assoc]
    refine .now ?_
    by_cases locked : lockedAt text looked = true
    · simp only [locked, if_true]
      exact Returns.failed
    simp only [locked, Bool.false_eq_true, if_false, Program.bind_assoc]
    refine tokenStore_ensures server platform options fun unlocked _ => ?_
    refine tokenStore_ensures server platform options fun cleared _ => ?_
    exact passed cleared _ _ ((unchanged.deleteUserData _ (totpSecret_ne_lockKey email)).deleteUserData _
      (totpSecret_ne_failedKey email))

theorem login_ensures {email password : String} :
    ((Request.login email password).body platform options).Ensures (answerCall server platform options)
      (fun _ => True) p (Returns (Issues server platform options p world (.login email password)))
        now 0 world log := by
  simp only [Request.body, execute, LoginUseCase.authenticate, authProvider, Program.bind_eq,
    Program.bind_assoc, Program.tryCatch_eq]
  refine checkLock_ensures fun later store log same => ?_
  intro plan asked _ after
  cases answered : (answerCall server platform options plan asked p
      (.auth (.authenticate (normalize platform email) password)) { world with store := store }).1 with
  | error error =>
    simp only [Program.ofExcept_error, Program.attempt, Program.throw_eq]
    split
    · simp only [Program.bind_assoc, Program.fail_bind]
      exact Program.Ensures.fail_last
    · exact Returns.failed
  | ok result =>
  have kept : (answerCall server platform options plan asked p (.auth (.authenticate (normalize platform email)
      password)) { world with store := store }).2.store = store :=
    answerAuth_store _ _ _ _ _ _ _ fun _ no => by cases no
  generalize (answerCall server platform options plan asked p (.auth (.authenticate (normalize platform email)
      password)) { world with store := store }).2 = entered at kept
  simp only [Program.ofExcept_ok, Program.attempt, Program.done_bind, issue, tokenStore, Program.bind_eq,
    Program.bind_assoc]
  refine tokenStore_ensures server platform options fun reset _ => ?_
  refine tokenStore_ensures server platform options fun unlocked _ => ?_
  have same := (same.deleteUserData "system" (totpSecret_ne_failedKey (normalize platform email))).deleteUserData
    "system" (totpSecret_ne_lockKey (normalize platform email))
  refine tokenStore_ensures server platform options fun checked _ => ?_
  simp only [answerStore, kept, same.2]
  by_cases enrolled : Option.any Str.truthy (world.store.getUserData result.user.id "totpSecret") = true
  · simp only [enrolled, if_true, randomHex, Program.bind_eq, Program.bind_assoc,
      Program.pure_eq, Program.done_bind]
    refine .random ?_
    refine saveRecord_ensures server platform options fun saved _ => Returns.ok ?_
    rintro _ ⟨⟩
  · have notEnrolled : Option.any Str.truthy (world.store.getUserData result.user.id "totpSecret") = false := by
      simpa using enrolled
    simp only [notEnrolled, Bool.false_eq_true, if_false, Program.bind_assoc]
    refine saveRecord_ensures server platform options fun saved _ => Returns.ok ?_
    rintro _ ⟨⟩
    refine .login ?_ answered notEnrolled same.1 rfl
    rfl

/-- A request served alone that hands out a session has got it in one of the four ways. -/
theorem serve_issues {cfg : AuthConfig κ} {schedule : Schedule Plan} {request : Request} {response : Response}
    {tokens : SessionResponse}
    (answered : (authSystem server platform options).result cfg schedule request = .ok response)
    (session : response.session = some tokens) :
    SessionIssued server platform options cfg.threads.length cfg.shared
      ((authSystem server platform options).serve cfg schedule request).shared.store request tokens := by
  have always (index : Nat) : True := trivial
  have none {β : Type} {body : Service β} {last : β → Response} (shape : request.body platform options =
      body.bind fun value => .done (last value)) (plain : ∀ value, (last value).session = none) : False := by
    have ensures : (request.body platform options).Ensures (answerCall server platform options) (fun _ => True)
        cfg.threads.length (Returns fun value _ _ => ∃ before,
          value = last before) cfg.clock 0 cfg.shared cfg.log := by
      rw [shape]
      exact Program.Ensures.done_last
    obtain ⟨value, rfl⟩ := served server platform options ensures always _ answered
    simp [plain] at session
  cases request with
  | login email password =>
    exact served server platform options login_ensures always _ answered _ session
  | complete2FA token code =>
    exact served server platform options complete2FA_ensures always _ answered _ session
  | verifyMagicLink token =>
    exact served server platform options magicLink_ensures always _ answered _ session
  | refresh token =>
    have ran := (serve_refresh server platform options (fun _ => True) token cfg schedule always).1
    rw [answered] at ran
    generalize ((authSystem server platform options).serve cfg schedule
      (.refresh token)).shared.store = after at ran ⊢
    have ends := ran
    cases ran with
    | rotated =>
      cases session
      exact .rotated ends
  | register email username password => exact (none rfl fun _ => rfl).elim
  | forgotPassword email => exact (none rfl fun _ => rfl).elim
  | sendMagicLink email => exact (none rfl fun _ => rfl).elim
  | resetPassword token newPassword => exact (none rfl fun _ => rfl).elim
  | setup2FA userId => exact (none rfl fun _ => rfl).elim
  | verify2FA userId code => exact (none rfl fun _ => rfl).elim
  | logout token => exact (none rfl fun _ => rfl).elim

end

end KeycloakAuth
