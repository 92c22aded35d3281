import KeycloakAuth.Histories

namespace KeycloakAuth
open Async Service LoginUseCase

@[simp] theorem failedKey_eq_iff {email other : String} : failedKey email = failedKey other ↔ email = other := by
  refine ⟨fun same => ?_, congrArg failedKey⟩
  have texts := congrArg String.toList same
  simp only [failedKey, String.toList_append] at texts
  exact String.toList_inj.mp (List.append_cancel_left texts)

@[simp] theorem lockKey_eq_iff {email other : String} : lockKey email = lockKey other ↔ email = other := by
  refine ⟨fun same => ?_, congrArg lockKey⟩
  have texts := congrArg String.toList same
  simp only [lockKey, String.toList_append] at texts
  exact String.toList_inj.mp (List.append_cancel_left texts)

@[simp] theorem lockKey_ne_failedKey (email other : String) : lockKey email ≠ failedKey other := by
  intro same
  have texts := congrArg String.toList same
  simp [lockKey, failedKey, String.toList_append] at texts

@[simp] theorem failedKey_ne_lockKey (email other : String) : failedKey email ≠ lockKey other :=
  (lockKey_ne_failedKey other email).symm

@[simp] theorem totpSecret_ne_failedKey (email : String) : "totpSecret" ≠ failedKey email := by
  intro same
  have texts := congrArg String.toList same
  simp [failedKey, String.toList_append] at texts

@[simp] theorem totpSecret_ne_lockKey (email : String) : "totpSecret" ≠ lockKey email := by
  intro same
  have texts := congrArg String.toList same
  simp [lockKey, String.toList_append] at texts

/-- What a login for `email` has to do next about the counter, after an entry of its own: a rejected
password has to be counted, a counter that was read has to be written back, and a counter that has reached
its bound has to lock the address. -/
def LoginUseCase.dueAfter (self : LoginUseCase) (email : String) : LogEntry → Option Call
  | ⟨_, .auth (.authenticate name _), .error (.domain .invalidCredentials _), _⟩ =>
    if name = email then some (.store (.getUserData "system" (failedKey email))) else none
  | ⟨_, .store (.getUserData user key), .ok found, t⟩ =>
    if user = "system" ∧ key = failedKey email then some (.store (.saveUserData "system" (failedKey email)
      (.failedAttempts (self.attemptsIn found t).plusOne.stringify t))) else none
  | ⟨_, .store (.saveUserData user key (.failedAttempts count _)), .ok _, t⟩ =>
    if (user = "system" ∧ key = failedKey email) ∧ t + self.lockoutDurationMs ≤ Date.maxTime ∧
        (count.elim JsValue.nan .number).atLeast self.maxFailedAttempts = true then
      some (.store (.saveUserData "system" (lockKey email) (.isoDate (t + self.lockoutDurationMs)))) else none
  | _ => none

theorem plusOne_stringify_atLeast (count : JsValue) (bound : Nat) :
    (count.plusOne.stringify.elim JsValue.nan .number).atLeast bound = count.plusOne.atLeast bound := by
  cases count <;> rfl

/-- A record is read as its count within the lockout duration and as no failure after it. -/
theorem LoginUseCase.attemptsIn_failedAttempts (self : LoginUseCase) (count : Option Nat) (updatedAt now : Nat) :
    self.attemptsIn (some (.failedAttempts count updatedAt)) now =
      if now - updatedAt > self.lockoutDurationMs then .number 0 else count.elim .null .number := by
  simp [attemptsIn, Option.filter, Str.truthy, parseAttempts]

def LoginUseCase.due (self : LoginUseCase) (email : String) (history : List LogEntry) : Option Call :=
  history.getLast?.bind (self.dueAfter email)

@[simp] theorem LoginUseCase.due_nil (self : LoginUseCase) (email : String) : self.due email [] = none := rfl

@[simp] theorem LoginUseCase.due_concat (self : LoginUseCase) (email : String) (history : List LogEntry)
    (entry : LogEntry) : self.due email (history ++ [entry]) = self.dueAfter email entry := by
  simp [due]

/-- The two ways past the lock check: no lock is stored, or one that has run out and was deleted
together with the counter. -/
inductive LockPassed (p : Nat) (email : String) : List LogEntry → Prop
  | unlocked {entry : Option Str} {t} (absent : entry.filter Str.truthy = none) :
      LockPassed p email [⟨p, .store (.getUserData "system" (lockKey email)), .ok entry, t⟩]
  | expired {text : Str} {t t' t''} (past : lockedAt text t = false) :
      LockPassed p email [⟨p, .store (.getUserData "system" (lockKey email)), .ok (some text), t⟩,
        ⟨p, .store (.deleteUserData "system" (lockKey email)), .ok (), t'⟩,
        ⟨p, .store (.deleteUserData "system" (failedKey email)), .ok (), t''⟩]

/-- `LoginUseCase`, for the normalized address `email`. -/
inductive LoginPhase (p : Nat) (self : LoginUseCase) (email password : String) :
    List LogEntry → ServiceView → Prop
  | lock : LoginPhase p self email password []
      (.awaiting (.store (.getUserData "system" (lockKey email))))
  | clearingLock {text : Str} {t} (past : lockedAt text t = false) :
      LoginPhase p self email password
        [⟨p, .store (.getUserData "system" (lockKey email)), .ok (some text), t⟩]
        (.awaiting (.store (.deleteUserData "system" (lockKey email))))
  | clearingCount {text : Str} {t t'} (past : lockedAt text t = false) :
      LoginPhase p self email password
        [⟨p, .store (.getUserData "system" (lockKey email)), .ok (some text), t⟩,
          ⟨p, .store (.deleteUserData "system" (lockKey email)), .ok (), t'⟩]
        (.awaiting (.store (.deleteUserData "system" (failedKey email))))
  | checking {before} (passed : LockPassed p email before) :
      LoginPhase p self email password before (.awaiting (.auth (.authenticate email password)))
  | counting {before message t} (passed : LockPassed p email before) :
      LoginPhase p self email password
        (before ++ [⟨p, .auth (.authenticate email password),
          .error (.domain .invalidCredentials message), t⟩])
        (.awaiting (.store (.getUserData "system" (failedKey email))))
  | recording {before message t entry now} (passed : LockPassed p email before) :
      LoginPhase p self email password
        (before ++ [⟨p, .auth (.authenticate email password),
            .error (.domain .invalidCredentials message), t⟩,
          ⟨p, .store (.getUserData "system" (failedKey email)), .ok entry, now⟩])
        (.awaiting (.store (.saveUserData "system" (failedKey email)
          (.failedAttempts (self.attemptsIn entry now).plusOne.stringify now))))
  | locking {before message t entry now now'} (passed : LockPassed p email before)
      (reached : (self.attemptsIn entry now).plusOne.atLeast self.maxFailedAttempts = true)
      (valid : now' + self.lockoutDurationMs ≤ Date.maxTime) :
      LoginPhase p self email password
        (before ++ [⟨p, .auth (.authenticate email password),
            .error (.domain .invalidCredentials message), t⟩,
          ⟨p, .store (.getUserData "system" (failedKey email)), .ok entry, now⟩,
          ⟨p, .store (.saveUserData "system" (failedKey email)
            (.failedAttempts (self.attemptsIn entry now).plusOne.stringify now)), .ok (), now'⟩])
        (.awaiting (.store (.saveUserData "system" (lockKey email)
          (.isoDate (now' + self.lockoutDurationMs)))))
  | accepted {before result t} (passed : LockPassed p email before) :
      LoginPhase p self email password
        (before ++ [⟨p, .auth (.authenticate email password), .ok result, t⟩])
        (.awaiting (.store (.deleteUserData "system" (failedKey email))))
  | unlocking {before result t t'} (passed : LockPassed p email before) :
      LoginPhase p self email password
        (before ++ [⟨p, .auth (.authenticate email password), .ok result, t⟩,
          ⟨p, .store (.deleteUserData "system" (failedKey email)), .ok (), t'⟩])
        (.awaiting (.store (.deleteUserData "system" (lockKey email))))
  | secondFactor {before result t t' t''} (passed : LockPassed p email before) :
      LoginPhase p self email password
        (before ++ [⟨p, .auth (.authenticate email password), .ok result, t⟩,
          ⟨p, .store (.deleteUserData "system" (failedKey email)), .ok (), t'⟩,
          ⟨p, .store (.deleteUserData "system" (lockKey email)), .ok (), t''⟩])
        (.awaiting (.store (.getUserData result.user.id "totpSecret")))
  | challenging {before result t t' t'' secret now} (passed : LockPassed p email before)
      (enrolled : Option.any Str.truthy secret = true) :
      LoginPhase p self email password
        (before ++ [⟨p, .auth (.authenticate email password), .ok result, t⟩,
          ⟨p, .store (.deleteUserData "system" (failedKey email)), .ok (), t'⟩,
          ⟨p, .store (.deleteUserData "system" (lockKey email)), .ok (), t''⟩,
          ⟨p, .store (.getUserData result.user.id "totpSecret"), .ok secret, now⟩])
        (.awaiting (.store (.save (freshRecord ⟨p, 1⟩ result.user.id .preAuth2FA (.random ⟨p, 0⟩)
          self.preAuthTokenTtlMs now))))
  | saving {before result t t' t'' secret now} (passed : LockPassed p email before)
      (notEnrolled : Option.any Str.truthy secret = false) :
      LoginPhase p self email password
        (before ++ [⟨p, .auth (.authenticate email password), .ok result, t⟩,
          ⟨p, .store (.deleteUserData "system" (failedKey email)), .ok (), t'⟩,
          ⟨p, .store (.deleteUserData "system" (lockKey email)), .ok (), t''⟩,
          ⟨p, .store (.getUserData result.user.id "totpSecret"), .ok secret, now⟩])
        (.awaiting (.store (.save (freshRecord ⟨p, 0⟩ result.user.id .refreshToken result.refreshToken
          self.refreshTokenTtlMs now))))
  | challenged {history preAuthToken expiresIn} (settled : self.due email history = none) :
      LoginPhase p self email password history (.returned (.login (.twoFactorRequired preAuthToken expiresIn)))
  | returned {before result t t' t'' secret now saved} (passed : LockPassed p email before)
      (notEnrolled : Option.any Str.truthy secret = false) :
      LoginPhase p self email password
        (before ++ [⟨p, .auth (.authenticate email password), .ok result, t⟩,
          ⟨p, .store (.deleteUserData "system" (failedKey email)), .ok (), t'⟩,
          ⟨p, .store (.deleteUserData "system" (lockKey email)), .ok (), t''⟩,
          ⟨p, .store (.getUserData result.user.id "totpSecret"), .ok secret, now⟩,
          ⟨p, .store (.save (freshRecord ⟨p, 0⟩ result.user.id .refreshToken result.refreshToken
            self.refreshTokenTtlMs now)), .ok (), saved⟩])
        (.returned (.login (.success ⟨result.accessToken, result.refreshToken, result.expiresIn⟩
          ⟨result.user.id, result.user.email, result.user.username⟩)))
  | threw {history error} (settled : self.due email history = none) :
      LoginPhase p self email password history (.threw error)

theorem checkLock_along (self : LoginUseCase) {Φ : List LogEntry → ServiceView → Prop} {p now : Nat}
    {email : String} {next : Unit → Service Response}
    (lock : Φ [] (.awaiting (.store (.getUserData "system" (lockKey email)))))
    (clearingLock : ∀ text t, lockedAt text t = false →
      Φ [⟨p, .store (.getUserData "system" (lockKey email)), .ok (some text), t⟩]
        (.awaiting (.store (.deleteUserData "system" (lockKey email)))))
    (clearingCount : ∀ text t t', lockedAt text t = false →
      Φ [⟨p, .store (.getUserData "system" (lockKey email)), .ok (some text), t⟩,
          ⟨p, .store (.deleteUserData "system" (lockKey email)), .ok (), t'⟩]
        (.awaiting (.store (.deleteUserData "system" (failedKey email)))))
    (passed : ∀ before later, LockPassed p email before → (next ()).Along Φ p later 0 before)
    (rejected : ∀ history error, self.due email history = none → Φ history (.threw error)) :
    ((checkLock (failedKey email) (lockKey email)).bind next).Along Φ p now 0 [] := by
  simp only [checkLock, tokenStore, Program.bind_eq, Program.bind_assoc]
  refine .perform lock (fun entry t _ => ?_) fun _ _ => rejected _ _ (by simp [due, dueAfter])
  cases present : Option.filter Str.truthy entry with
  | none => exact passed _ _ (.unlocked present)
  | some text =>
    have same : entry = some text := (Option.filter_eq_some_iff.mp present).1
    subst same
    simp only [Program.bind_assoc]
    refine .now ?_
    by_cases locked : lockedAt text t = true
    · simp only [locked, if_true]
      exact rejected _ _ (by simp [due, dueAfter, lockKey_ne_failedKey])
    have past : lockedAt text t = false := by simpa using locked
    simp only [past, Bool.false_eq_true, if_false, Program.bind_assoc]
    refine .perform (clearingLock _ _ past) (fun _ t' _ => ?_) fun _ _ => rejected _ _ (by simp [due, dueAfter])
    refine .perform (clearingCount _ _ _ past) (fun _ t'' _ => ?_) fun _ _ => rejected _ _ (by simp [due, dueAfter])
    exact passed _ _ (.expired past)

section
variable {allowed : Call → Prop} {failedKey lockKey email password : String}

theorem checkLock_only (reads : allowed (.store (.getUserData "system" lockKey)))
    (deletes : ∀ key, allowed (.store (.deleteUserData "system" key))) :
      (checkLock failedKey lockKey).Only allowed := by
  refine .bind (.perform reads) fun entry => ?_
  split
  · trivial
  · intro now
    simp only [Program.done_bind]
    split
    · trivial
    · exact .bind (.perform (deletes _)) fun _ => .perform (deletes _)

theorem recordFailedAttempt_only (self : LoginUseCase) (reads : allowed (.store (.getUserData "system" failedKey)))
    (writes : ∀ key value, allowed (.store (.saveUserData "system" key value))) :
    (self.recordFailedAttempt failedKey lockKey).Only allowed := by
  refine .bind (.bind (.perform reads) fun _ _ => trivial) fun attempts now => ?_
  simp only [Program.done_bind]
  refine .bind (.perform (writes _ _)) fun _ => ?_
  split
  · intro now
    simp only [Program.pure_eq, Program.done_bind]
    split
    · trivial
    · exact .perform (writes _ _)
  · trivial

theorem authenticate_only (self : LoginUseCase) (asks : allowed (.auth (.authenticate email password)))
    (reads : allowed (.store (.getUserData "system" (LoginUseCase.failedKey email))))
    (writes : ∀ key value, allowed (.store (.saveUserData "system" key value))) :
    (self.authenticate email password).Only allowed := by
  refine .attempt (.perform asks) fun error => ?_
  split
  · exact .bind (recordFailedAttempt_only self reads writes) fun _ => trivial
  · trivial

end

theorem recordFailedAttempt_along (self : LoginUseCase) {p now : Nat} {email password message : String}
    {before : List LogEntry} {error : Thrown} {t : Nat} (passed : LockPassed p email before) :
    ((self.recordFailedAttempt (failedKey email) (lockKey email)).bind fun _ =>
      (Program.fail error : Service Response)).Along (LoginPhase p self email password) p now 0
      (before ++ [⟨p, .auth (.authenticate email password),
        .error (.domain .invalidCredentials message), t⟩]) := by
  simp only [recordFailedAttempt, readFailedAttempts, dateIn, tokenStore, Program.bind_eq,
    Program.bind_assoc, Program.pure_eq, Program.done_bind]
  refine .perform (.counting passed) (fun entry t' _ => ?_) fun _ _ => .threw (by simp [due, dueAfter])
  refine .now (.now ?_)
  simp only [List.append_assoc, List.cons_append, List.nil_append]
  refine .perform (.recording passed) (fun _ now' _ => ?_) fun _ _ => .threw (by simp [due, dueAfter])
  simp only [List.append_assoc, List.cons_append, List.nil_append]
  by_cases reached : (self.attemptsIn entry t').plusOne.atLeast self.maxFailedAttempts = true
  swap
  · simp only [reached, Bool.false_eq_true, if_false]
    exact .threw (by simp [due, dueAfter, plusOne_stringify_atLeast, reached])
  simp only [reached, if_true, Program.bind_assoc]
  refine .now ?_
  by_cases valid : now' + self.lockoutDurationMs ≤ Date.maxTime
  · simp only [Date.ofMs, valid, if_true, Date.toISOString, Option.map_some]
    exact .perform (.locking passed reached valid) (fun _ _ _ => .threw (by simp [due, dueAfter]))
      fun _ _ => .threw (by simp [due, dueAfter])
  · simp only [Date.ofMs, valid, if_false, Date.toISOString, Option.map_none]
    exact .threw (by simp [due, dueAfter, valid])

theorem login_along (platform : Platform) (options : Deployment) (p now : Nat) (email password : String) :
    ((Request.login email password).body platform options).Along
      (LoginPhase p options.loginUseCase (normalize platform email) password) p now 0 [] := by
  simp only [Request.body, execute, LoginUseCase.authenticate, authProvider, Program.bind_eq,
    Program.bind_assoc, Program.tryCatch_eq]
  refine checkLock_along options.loginUseCase .lock (fun _ _ past => .clearingLock past)
    (fun _ _ _ past => .clearingCount past) (fun before later passed => ?_) fun _ _ settled => .threw settled
  refine ⟨.checking passed, ?_⟩
  rintro (error | result) t -
  · simp only [Program.ofExcept_error, Program.attempt, Program.throw_eq]
    split
    · simp only [Program.bind_assoc, Program.fail_bind]
      exact recordFailedAttempt_along _ passed
    · rename_i other
      refine .threw ?_
      rw [due_concat]
      unfold dueAfter
      split <;> simp_all
  · simp only [Program.ofExcept_ok, Program.attempt, Program.done_bind, issue, tokenStore, Program.bind_eq,
      Program.bind_assoc]
    refine .perform (.accepted passed) (fun _ t' _ => ?_) fun _ _ => .threw (by simp [due, dueAfter])
    simp only [List.append_assoc, List.cons_append, List.nil_append]
    refine .perform (.unlocking passed) (fun _ t'' _ => ?_) fun _ _ => .threw (by simp [due, dueAfter])
    simp only [List.append_assoc, List.cons_append, List.nil_append]
    refine .perform (.secondFactor passed) (fun secret now' _ => ?_) fun _ _ => .threw (by simp [due, dueAfter])
    simp only [List.append_assoc, List.cons_append, List.nil_append]
    by_cases enrolled : Option.any Str.truthy secret = true
    · simp only [enrolled, if_true, randomHex, Program.bind_eq, Program.bind_assoc, Program.pure_eq,
        Program.done_bind]
      refine .random ?_
      exact saveRecord_along (.challenging passed enrolled) (fun _ _ _ => .challenged (by simp [due, dueAfter]))
        fun _ _ => .threw (by simp [due, dueAfter])
    · have notEnrolled : Option.any Str.truthy secret = false := by simpa using enrolled
      simp only [notEnrolled, Bool.false_eq_true, if_false, Program.bind_assoc]
      refine saveRecord_along (.saving passed notEnrolled) (fun _ _ _ => ?_) fun _ _ =>
        .threw (by simp [due, dueAfter])
      simp only [List.append_assoc, List.cons_append, List.nil_append]
      exact .returned passed notEnrolled

/-- The requests that never touch the token store themselves. -/
inductive PlainPhase (p : Nat) : List LogEntry → ServiceView → Prop
  | registering {history req} : PlainPhase p history (.awaiting (.auth (.register req)))
  | mailing {history userId} : PlainPhase p history (.awaiting (.auth (.sendVerifyEmail userId)))
  | enrolling {history userId} : PlainPhase p history (.awaiting (.auth (.setup2FA userId)))
  | verifying {history userId code} : PlainPhase p history (.awaiting (.auth (.verify2FA userId code)))
  | returned {history response} (plain : response.session = none) : PlainPhase p history (.returned response)
  | threw {history error} : PlainPhase p history (.threw error)

theorem register_along (platform : Platform) (options : Deployment) (p now : Nat)
    (email username password : String) :
    ((Request.register email username password).body platform options).Along (PlainPhase p) p now 0 [] := by
  simp only [Request.body, RegisterUseCase.execute, authProvider, Program.bind_eq, Program.bind_assoc]
  cases Email.create platform email with
  | error invalid => exact .threw
  | ok address =>
  cases Password.create password with
  | error weak => exact .threw
  | ok strong =>
  refine .perform .registering (fun user _ _ => ?_) fun _ _ => .threw
  by_cases mailed : options.requireEmailVerification = true
  · simp only [mailed, if_true, Program.bind_assoc]
    exact .perform .mailing (fun _ _ _ => .returned rfl) fun _ _ => .threw
  · simp only [mailed, Bool.false_eq_true, if_false]
    exact .returned rfl

theorem setup2FA_along (platform : Platform) (options : Deployment) (p now : Nat) (userId : String) :
    ((Request.setup2FA userId).body platform options).Along (PlainPhase p) p now 0 [] :=
  .perform .enrolling (fun _ _ _ => .returned rfl) fun _ _ => .threw

theorem verify2FA_along (platform : Platform) (options : Deployment) (p now : Nat) (userId code : String) :
    ((Request.verify2FA userId code).body platform options).Along (PlainPhase p) p now 0 [] := by
  simp only [Request.body, Verify2FAUseCase.execute, authProvider, Program.bind_eq, Program.bind_assoc]
  refine .perform .verifying ?_ fun _ _ => .threw
  rintro (_ | _) _ -
  · exact .threw
  · exact .returned rfl

/-- What a request has done and what it shows, for every kind of request. -/
def Phase (platform : Platform) (options : Deployment) (p : Nat) :
    Request → List LogEntry → ServiceView → Prop
  | .login email password => LoginPhase p options.loginUseCase (normalize platform email) password
  | .complete2FA token code => Complete2FAPhase p options.refreshTokenTtlMs token code
  | .refresh token => RefreshPhase p options.refreshTokenTtlMs token
  | .forgotPassword email => LinkPhase p .resetPassword (60 * 60 * 1000) email
  | .resetPassword token newPassword => ResetPhase p token newPassword
  | .sendMagicLink email => LinkPhase p .magicLink (15 * 60 * 1000) email
  | .verifyMagicLink token => MagicLinkPhase p options.refreshTokenTtlMs token
  | .logout token => LogoutPhase p token
  | .register _ _ _ => PlainPhase p
  | .setup2FA _ => PlainPhase p
  | .verify2FA _ _ => PlainPhase p

attribute [local irreducible] Password.create in
theorem phase_along (platform : Platform) (options : Deployment) (p now : Nat) (request : Request) :
    (request.body platform options).Along (Phase platform options p request) p now 0 [] := by
  cases request with
  | register email username password => exact register_along ..
  | login email password => exact login_along ..
  | complete2FA token code => exact complete2FA_along ..
  | refresh token => exact refresh_along ..
  | forgotPassword email => exact sendLink_along ..
  | resetPassword token newPassword => exact reset_along ..
  | sendMagicLink email => exact sendLink_along ..
  | verifyMagicLink token => exact magicLink_along ..
  | setup2FA userId => exact setup2FA_along ..
  | verify2FA userId code => exact verify2FA_along ..
  | logout token => exact logout_along ..

section
variable {κ : Type} {server : KeycloakServer κ} {platform : Platform} {options : Deployment}
  {permitted : AuthConfig κ → AuthEvent κ → Prop} {clock : Nat} {world : World κ} {cfg : AuthConfig κ}

/-- Every thread of every run is at one of the places its request can be suspended at. -/
theorem reach_phase (reach : (authSystem server platform options).Reach permitted (.start clock world) cfg)
    {p : Nat} {thread : Thread Call.Ans Thrown Request Response} (found : cfg.threads[p]? = some thread) :
    Phase platform options p thread.request (cfg.history p) thread.state.view :=
  reach.view (fun p request now => phase_along platform options p now request) found

/-- At every entry of the log the request that made the call was waiting for its answer. -/
theorem reach_phase_at (reach : (authSystem server platform options).Reach permitted (.start clock world) cfg)
    {i : Nat} {entry : LogEntry} (found : cfg.log[i]? = some entry) :
    ∃ thread, cfg.threads[entry.request]? = some thread ∧ Phase platform options entry.request thread.request
      ((cfg.log.take i).filter (·.request = entry.request)) (.awaiting entry.call) := by
  refine reach.justified (fun request before entry => Phase platform options entry.request request
    (before.filter (·.request = entry.request)) (.awaiting entry.call)) ?_ (System.split_at found)
  intro cfg p thread call rest choice reach found waiting _
  have phase := reach_phase reach found
  rw [waiting] at phase
  exact phase

end

end KeycloakAuth
