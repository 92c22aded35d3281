import KeycloakAuth.BruteForce
import KeycloakAuth.Lockout
import KeycloakAuth.Rotation

namespace KeycloakAuth
open Async Service LoginUseCase InMemoryTokenStore KeycloakAuthProvider

/-- The code of an error response. -/
def HttpErrorResponse.code (response : HttpErrorResponse) : Option String := response.data.bind (·.error)

/-- The response says that the account is not fully set up. -/
def HttpErrorResponse.notSetUp (platform : Platform) (response : HttpErrorResponse) : Bool :=
  includes (platform.toLowerCase ((response.data.bind (·.errorDescription)).getD "Authentication failed"))
    "account is not fully set up"

/-- The response rejects the credentials of the user. -/
def HttpErrorResponse.rejectsCredentials (platform : Platform) (response : HttpErrorResponse) : Prop :=
  response.code = some "invalid_grant" ∧ response.notSetUp platform = false

/-- The response has the status of a rejected user, but is about something else. -/
def HttpErrorResponse.unauthorized (response : HttpErrorResponse) : Prop :=
  response.status = 401 ∧ response.code ≠ some "invalid_grant"

/-- The provider takes those responses for wrong credentials that reject them, and the unauthorized ones. -/
theorem mapOidcError_eq (platform : Platform) (response : HttpErrorResponse) :
    (∃ message, mapOidcError platform response.status response.data = .domain .invalidCredentials message) ↔
      response.rejectsCredentials platform ∨ response.unauthorized := by
  have code : (response.data.bind (·.error)).getD "" = "invalid_grant" ↔ response.code = some "invalid_grant" := by
    unfold HttpErrorResponse.code
    cases response.data.bind (·.error) <;> simp
  simp only [mapOidcError, code, HttpErrorResponse.rejectsCredentials, HttpErrorResponse.unauthorized]
  change (∃ message, (if _ ∧ response.notSetUp platform = true then _ else _) = _) ↔ _
  by_cases grant : response.code = some "invalid_grant"
  · by_cases setUp : response.notSetUp platform = true
    · simp [grant, setUp]
    · simp [grant, setUp]
  · by_cases status : response.status = 401
    · simp [grant, status]
    · simp [grant, status]

/-- What `oidcTokenRequest` throws when its exchange fails. -/
def oidcError (platform : Platform) : Option HttpErrorResponse → Thrown
  | some response => mapOidcError platform response.status response.data
  | none => .axios none

section
variable {κ : Type} (server : KeycloakServer κ) (platform : Platform) (options : Deployment)

/-- What comes back for a password grant: tokens, an error response, or no response. -/
def grantAnswer (keycloak : κ) (email password : String) (plan : Plan) : Except (Option HttpErrorResponse) Unit :=
  match plan.http (.passwordGrant email password) with
  | some response => .error response
  | none => (server.passwordGrant keycloak email password).mapError some

variable {server platform options} {plan : Plan} {now request : Nat} {world : World κ} {email password : String}

theorem answerAuth_authenticate_error {response : Option HttpErrorResponse}
    (answers : grantAnswer server world.keycloak email password plan = .error response) :
    answerAuth server platform options plan now request (.authenticate email password) world =
      (.error (oidcError platform response), world) := by
  have rejected : (oidcTokenRequest platform email password).eval (answerProvider server plan) now request 0 world =
      ⟨.error (oidcError platform response), 0, world⟩ := by
    simp only [oidcTokenRequest, http, perform, Program.tryCatch_eq, Program.eval_attempt, Program.eval_perform,
      answerProvider, answerHttp, serveHttp]
    unfold grantAnswer at answers
    cases planned : plan.http (.passwordGrant email password) with
    | some failure =>
      simp only [planned, Except.error.injEq] at answers
      subst answers
      cases failure <;> rfl
    | none =>
      simp only [planned] at answers
      cases granted : server.passwordGrant world.keycloak email password with
      | error failure =>
        simp only [granted, Except.mapError, Except.error.injEq] at answers
        subst answers
        rfl
      | ok answer => simp [granted, Except.mapError] at answers
  simp only [answerAuth, evalMethod, KeycloakAuthProvider.authenticate, Program.bind_eq, Program.eval_bind,
    Outcome.andThen, rejected]

/-- A login whose grant is answered with tokens can only fail for reasons of the admin API. -/
theorem answerAuth_authenticate_granted {error : Thrown}
    (answers : grantAnswer server world.keycloak email password plan = .ok ())
    (failed : (answerAuth server platform options plan now request (.authenticate email password) world).1 =
      .error error) : AdminError error := by
  have passes : (oidcTokenRequest platform email password).eval (answerProvider server plan) now request 0 world =
      ⟨.ok (), 0, world⟩ := by
    simp only [oidcTokenRequest, http, perform, Program.tryCatch_eq, Program.eval_attempt, Program.eval_perform,
      answerProvider, answerHttp, serveHttp]
    unfold grantAnswer at answers
    cases planned : plan.http (.passwordGrant email password) with
    | some failure => simp [planned] at answers
    | none =>
      simp only [planned] at answers
      cases granted : server.passwordGrant world.keycloak email password with
      | error failure => simp [granted, Except.mapError] at answers
      | ok answer => rfl
  simp only [answerAuth, evalMethod, KeycloakAuthProvider.authenticate, Program.bind_eq, Program.eval_bind,
    Outcome.andThen, passes] at failed
  cases looked : ((getUserByEmail platform email).eval (answerProvider server plan) now request 0 world).result with
  | error thrown =>
    simp only [looked, Except.error.injEq] at failed
    subst failed
    exact (getUserByEmail_throws platform email).eval (answerProvider_rejected server plan) looked
  | ok user =>
    simp only [looked] at failed
    cases failed

/-- What an entry writes to the counter of `email`. -/
def counterWrite (email : String) : LogEntry → Option Str
  | ⟨_, .store (.saveUserData _ key value), _, _⟩ => if key = failedKey email then some value else none
  | _ => none

/-- What a login whose grant is answered with `answer` writes to the counter of the address, and what it makes
of the lock and the counter. -/
inductive Settles (self : LoginUseCase) (platform : Platform) (before : Option Str × Option Str) :
    Except (Option HttpErrorResponse) Unit → Option Str → Option Str × Option Str → Prop
  | granted {after} (spared : after = before ∨ after = (none, none)) :
      Settles self platform before (.ok ()) none after
  | charged {response lock counted} (blamed : response.rejectsCredentials platform ∨ response.unauthorized) :
      Settles self platform before (.error (some response))
        (some (.failedAttempts (self.attemptsIn before.2 counted).plusOne.stringify counted))
        (lock, some (.failedAttempts (self.attemptsIn before.2 counted).plusOne.stringify counted))
  | spared {response} (other : ∀ error, response = some error →
      ¬ (error.rejectsCredentials platform ∨ error.unauthorized)) :
      Settles self platform before (.error response) none before

/-- A login that found the log `base` has made calls that settle its grant. -/
def Settled (self : LoginUseCase) (platform : Platform) (email : String) (before : Option Str × Option Str)
    (answer : Except (Option HttpErrorResponse) Unit) (base : List LogEntry)
    (after : World κ) (log : List LogEntry) :
    Prop :=
  ∃ history, log = base ++ history ∧ Settles self platform before answer (history.findSome? (counterWrite email))
    (lockoutEntries after.store email)

/-- The calls since `base` have not written the counter. -/
def Uncounted (email : String) (base log : List LogEntry) : Prop :=
  ∃ history, log = base ++ history ∧ history.findSome? (counterWrite email) = none

theorem Uncounted.refl {base : List LogEntry} : Uncounted email base base := ⟨[], (List.append_nil _).symm, rfl⟩

theorem Uncounted.settled {self : LoginUseCase} {before : Option Str × Option Str} {base log more : List LogEntry}
    {answer : Except (Option HttpErrorResponse) Unit} {after : World κ} (uncounted : Uncounted email base log)
    (settles : Settles self platform before answer (more.findSome? (counterWrite email))
      (lockoutEntries after.store email)) : Settled self platform email before answer base after (log ++ more) := by
  obtain ⟨history, rfl, unwritten⟩ := uncounted
  refine ⟨history ++ more, List.append_assoc .., ?_⟩
  rwa [List.findSome?_append, unwritten, Option.none_or]

theorem Uncounted.concat {base log : List LogEntry} {entry : LogEntry} (uncounted : Uncounted email base log)
    (other : counterWrite email entry = none) : Uncounted email base (log ++ [entry]) := by
  obtain ⟨history, rfl, unwritten⟩ := uncounted
  refine ⟨history ++ [entry], List.append_assoc .., ?_⟩
  rw [List.findSome?_append, unwritten, Option.none_or, List.findSome?_singleton, other]

section
variable {allowed : Plan → Prop} {p drawn : Nat} {base log : List LogEntry}

/-- A login that has been rejected for its password is charged with a failure. -/
theorem recordFailedAttempt_charges {error : Thrown} {response : HttpErrorResponse}
    (uncounted : Uncounted email base log)
    (blamed : response.rejectsCredentials platform ∨ response.unauthorized) :
    ((options.loginUseCase.recordFailedAttempt (failedKey email) (lockKey email)).bind fun _ =>
      (.fail error : Service Response)).Ensures (answerCall server platform options) allowed p (fun _ _ =>
      Settled options.loginUseCase platform email (lockoutEntries world.store email)
        (.error (some response)) base) now
      drawn world log := by
  simp only [recordFailedAttempt, readFailedAttempts, dateIn, tokenStore, Program.bind_eq, Program.bind_assoc,
    Program.pure_eq, Program.done_bind]
  refine tokenStore_ensures server platform options fun counted _ => .now (.now ?_)
  refine tokenStore_ensures server platform options fun written _ => ?_
  simp only [answerStore]
  by_cases reached : (options.loginUseCase.attemptsIn (world.store.getUserData "system" (failedKey email))
      counted).plusOne.atLeast options.loginUseCase.maxFailedAttempts = true
  swap
  · simp only [reached, Bool.false_eq_true, if_false, Program.done_bind, Program.Ensures, List.append_assoc,
      List.cons_append, List.nil_append]
    refine uncounted.settled ?_
    simp only [lockoutEntries_count, List.findSome?_cons, counterWrite, if_true]
    exact .charged blamed
  simp only [reached, if_true, Program.bind_assoc]
  refine .now ?_
  by_cases valid : written + options.loginUseCase.lockoutDurationMs ≤ Date.maxTime
  · simp only [Date.ofMs, valid, if_true, Date.toISOString, Option.map_some]
    refine tokenStore_ensures server platform options fun locked _ => ?_
    simp only [answerStore, Program.Ensures, List.append_assoc, List.cons_append, List.nil_append]
    refine uncounted.settled ?_
    simp only [lockoutEntries_lock, lockoutEntries_count, List.findSome?_cons, counterWrite, if_true]
    exact .charged blamed
  · simp only [Date.ofMs, valid, if_false, Date.toISOString, Option.map_none, Program.throw_eq, Program.fail_bind,
      Program.Ensures, List.append_assoc, List.cons_append, List.nil_append]
    refine uncounted.settled ?_
    simp only [lockoutEntries_count, List.findSome?_cons, counterWrite, if_true]
    exact .charged blamed

/-- A login that gets tokens takes the counter and the lock away. -/
theorem issue_clears (uncounted : Uncounted email base log) (result : AuthenticateResponse) :
    ((options.loginUseCase.issue email result).bind fun result =>
      (.done (.login result) : Service Response)).Ensures
      (answerCall server platform options) allowed p (fun _ _ after log =>
        lockoutEntries after.store email = (none, none) ∧ Uncounted email base log) now drawn world log := by
  simp only [issue, tokenStore, Program.bind_eq, Program.bind_assoc]
  refine tokenStore_ensures server platform options fun _ _ => ?_
  refine tokenStore_ensures server platform options fun _ _ => ?_
  refine tokenStore_ensures server platform options fun looked _ => ?_
  simp only [answerStore]
  by_cases enrolled : Option.any Str.truthy (((world.store.deleteUserData "system" (failedKey email)).deleteUserData
      "system" (lockKey email)).getUserData result.user.id "totpSecret") = true
  · simp only [enrolled, if_true, randomHex, Program.bind_eq, Program.bind_assoc,
      Program.pure_eq, Program.done_bind]
    exact .random (saveRecord_ensures server platform options fun _ _ =>
      ⟨lockoutEntries_reset, (((uncounted.concat rfl).concat rfl).concat rfl).concat rfl⟩)
  · simp only [enrolled, Bool.false_eq_true, if_false, Program.bind_assoc]
    exact saveRecord_ensures server platform options fun _ _ =>
      ⟨lockoutEntries_reset, (((uncounted.concat rfl).concat rfl).concat rfl).concat rfl⟩

end

/-- From the password check on. -/
theorem login_settles {keycloak : κ} {answer : Except (Option HttpErrorResponse) Unit} {p drawn : Nat}
    {base log : List LogEntry} {before : Option Str × Option Str} (uncounted : Uncounted email base log)
    (same : world.keycloak = keycloak) (onFile : lockoutEntries world.store email = before) :
    ((options.loginUseCase.authenticate email password).bind fun result =>
      (options.loginUseCase.issue email result).bind fun result =>
        (.done (.login result) : Service Response)).Ensures
      (answerCall server platform options) (fun plan => grantAnswer server keycloak email password plan = answer) p
      (fun _ _ => Settled options.loginUseCase platform email before answer base) now drawn world log := by
  subst same onFile
  simp only [LoginUseCase.authenticate, authProvider, Program.tryCatch_eq]
  intro plan asked answers _
  have kept : (answerAuth server platform options plan asked p (.authenticate email password) world).2.store =
      world.store := answerAuth_store server platform options plan asked p world fun _ no => by cases no
  simp only [answerCall]
  cases answer with
  | error response =>
    simp only [answerAuth_authenticate_error answers, Program.ofExcept_error, Program.attempt, Program.throw_eq]
    have charges (failure : HttpErrorResponse) := mapOidcError_eq platform failure
    split
    · rename_i message thrown
      cases response with
      | none => cases thrown
      | some failure =>
        simp only [Program.bind_eq, Program.bind_assoc, Program.fail_bind]
        exact recordFailedAttempt_charges (uncounted.concat rfl) ((charges failure).mp ⟨message, thrown⟩)
    · rename_i other
      refine uncounted.settled (.spared fun failure same blamed => ?_)
      subst same
      obtain ⟨message, thrown⟩ := (charges failure).mpr blamed
      exact other message thrown
  | ok granted =>
    cases answered : (answerAuth server platform options plan asked p (.authenticate email password) world).1 with
    | error thrown =>
      simp only [Program.ofExcept_error, Program.attempt, Program.throw_eq]
      have admin := answerAuth_authenticate_granted answers answered
      split
      · simp [AdminError] at admin
      · exact uncounted.settled (.granted (.inl (by rw [kept])))
    | ok result =>
      simp only [Program.ofExcept_ok, Program.attempt, Program.done_bind]
      refine (issue_clears (uncounted.concat rfl) result).mono fun _ _ after log kept => ?_
      obtain ⟨cleared, history, logged, unwritten⟩ := kept
      refine ⟨history, logged, ?_⟩
      rw [cleared, unwritten]
      exact .granted (.inr rfl)

/-- From the removal of a lock that has run out on. -/
theorem cleared_login_settles {keycloak : κ} {answer : Except (Option HttpErrorResponse) Unit} {p drawn : Nat}
    {base log : List LogEntry} (uncounted : Uncounted email base log) (same : world.keycloak = keycloak) :
    ((tokenStore (.deleteUserData "system" (lockKey email))).bind fun _ =>
      (tokenStore (.deleteUserData "system" (failedKey email))).bind fun _ =>
      (options.loginUseCase.authenticate email password).bind fun result =>
      (options.loginUseCase.issue email result).bind fun result =>
        (.done (.login result) : Service Response)).Ensures
      (answerCall server platform options) (fun plan => grantAnswer server keycloak email password plan = answer) p
      (fun _ _ => Settled options.loginUseCase platform email (none, none) answer base) now drawn world log := by
  refine tokenStore_ensures server platform options fun _ _ => ?_
  refine tokenStore_ensures server platform options fun _ _ => ?_
  exact login_settles ((uncounted.concat rfl).concat rfl) same lockoutEntries_cleared

/-- A lock in force is on file, so that a login that looks now sends no password grant. -/
def heldOff (store : InMemoryTokenStore) (email : String) (now : Nat) : Bool :=
  ((lockoutEntries store email).1.filter Str.truthy).any (lockedAt · now)

/-- The lock and the counter that the password check finds: those on file, unless the lock has run out. -/
def pastLock (store : InMemoryTokenStore) (email : String) : Option Str × Option Str :=
  if ((lockoutEntries store email).1.filter Str.truthy).isSome then (none, none) else lockoutEntries store email

variable {cfg : AuthConfig κ} {schedule : Schedule Plan} {name : String}

theorem answerCall_lock : answerCall server platform options plan now request
    (.store (.getUserData "system" (lockKey email))) world =
      (.ok (lockoutEntries world.store email).1, world) := rfl

/-- A login for an address that is locked changes nothing. -/
theorem serve_login_heldOff (own : normalize platform name = email)
    (held : heldOff cfg.shared.store email (cfg.clock + (schedule 0).1) = true) :
    ((authSystem server platform options).serve cfg schedule (.login name password)).shared = cfg.shared := by
  subst own
  simp only [System.serve, authSystem, Request.body, execute, checkLock, tokenStore,
    Program.bind_eq, Program.bind_assoc]
  rw [Program.drive_perform_ok answerCall_lock]
  unfold heldOff at held
  cases present : (lockoutEntries cfg.shared.store (normalize platform name)).1.filter Str.truthy with
  | none => simp [present] at held
  | some text =>
    rw [present, Option.any_some] at held
    simp only [Program.now_bind, Program.clock_bind, Program.drive, held, if_true,
      Program.throw_eq, Program.fail_bind]

/-- A login for an address that is not locked. -/
theorem serve_login_settles {answer : Except (Option HttpErrorResponse) Unit}
    (own : normalize platform name = email)
    (free : heldOff cfg.shared.store email (cfg.clock + (schedule 0).1) = false)
    (answers : ∀ index, grantAnswer server cfg.shared.keycloak email password (schedule index).2 = answer) :
    Settled options.loginUseCase platform email (pastLock cfg.shared.store email) answer cfg.log
      ((authSystem server platform options).serve cfg schedule (.login name password)).shared
      ((authSystem server platform options).serve cfg schedule (.login name password)).log := by
  subst own
  simp only [System.serve, authSystem, Request.body, execute, checkLock, tokenStore,
    Program.bind_eq, Program.bind_assoc]
  rw [Program.drive_perform_ok answerCall_lock]
  unfold heldOff at free
  unfold pastLock
  cases present : (lockoutEntries cfg.shared.store (normalize platform name)).1.filter Str.truthy with
  | none =>
    simp only [Program.pure_eq, Program.done_bind]
    exact (login_settles (Uncounted.refl.concat rfl) rfl rfl).drive fun index => answers (index + 1)
  | some text =>
    rw [present, Option.any_some] at free
    simp only [Program.now_bind, Program.clock_bind, Program.drive, free, Bool.false_eq_true, if_false,
      Program.bind_assoc, Option.isSome_some, if_true]
    exact (cleared_login_settles (Uncounted.refl.concat rfl) rfl).drive fun index => answers (index + 1)

/-- By induction on the run: without a step of the bookkeeping for an address, its lock and counter stay. -/
theorem lockoutEntries_kept {final : AuthConfig κ}
    (later : (authSystem server platform options).Reach anyEvent cfg final)
    (idle : ∀ entry ∈ final.log.drop cfg.log.length, entry.call.counts email = false ∧
      entry.call.clears email = false) :
    lockoutEntries final.shared.store email = lockoutEntries cfg.shared.store email := by
  induction later with
  | start => rfl
  | @next before after event previous allowed step ih =>
    rcases System.advance_cases step with ⟨_, _, rfl⟩ | ⟨change, _, rfl⟩ | ⟨_, _, rfl⟩ |
      ⟨q, plan, thread, call, rest, rfl, found, waiting, rfl⟩
    · exact ih idle
    · cases change <;> exact ih idle
    · exact ih idle
    · have longer (entry : LogEntry) : (before.log ++ [entry]).drop cfg.log.length =
          before.log.drop cfg.log.length ++ [entry] := List.drop_append_of_le_length previous.log_prefix.length_le
      simp only [System.resume, authSystem, longer] at idle
      obtain ⟨counts, clears⟩ := idle _ (List.mem_append_right _ (List.mem_singleton_self _))
      rw [← ih fun entry member => idle entry (List.mem_append_left _ member)]
      exact Prod.ext (answerCall_untouched counts clears (.inr rfl)) (answerCall_untouched counts clears (.inl rfl))

/-- Only logins for the address touch its lock and its counter. -/
theorem serve_lockoutEntries {clock : Nat} {initial : World κ} {request : Request}
    (reach : (authSystem server platform options).Reach anyEvent (.start clock initial) cfg)
    (others : ∀ name password, request = .login name password → normalize platform name ≠ email) :
    lockoutEntries ((authSystem server platform options).serve cfg schedule request).shared.store email =
      lockoutEntries cfg.shared.store email := by
  have served := System.serve_reach (S := authSystem server platform options) cfg schedule request
  obtain ⟨history, logged, own⟩ := System.serve_log (S := authSystem server platform options) cfg schedule request
  refine lockoutEntries_kept served fun entry member => ?_
  rw [logged, List.drop_left] at member
  obtain ⟨index, found⟩ := List.mem_iff_getElem?.mp (logged ▸ List.mem_append_right cfg.log member)
  obtain ⟨thread, atThread, phase⟩ := reach_phase_at (reach.trans served) found
  rw [own entry member] at atThread
  cases Option.some.inj ((List.getElem?_concat_length ..).symm.trans atThread)
  by_contra idle
  have busy : entry.call.counts email = true ∨ entry.call.clears email = true := by
    cases counts : entry.call.counts email <;> simp_all
  obtain ⟨name, password, login, own⟩ := phase.login_of_concerns (Call.concerns_of_busy busy)
  exact others name password login own

end

/-- A password grant for an address: its answer, the lock and the counter that the password check finds, what the
login writes to the counter, and the lock and the counter that it leaves behind. -/
structure Grant where
  answer : Except (Option HttpErrorResponse) Unit
  before : Option Str × Option Str
  written : Option Str
  after : Option Str × Option Str

namespace Grant

/-- The answer rejects the credentials of the user. -/
def Rejected (platform : Platform) (grant : Grant) : Prop :=
  ∃ response, grant.answer = .error (some response) ∧ response.rejectsCredentials platform

/-- The answer is an unauthorized one that does not reject them. -/
def Unauthorized (grant : Grant) : Prop := ∃ response, grant.answer = .error (some response) ∧ response.unauthorized

end Grant

section
variable {κ : Type} (server : KeycloakServer κ) (platform : Platform) (options : Deployment)

/-- The module has answered the password grants of `email`, one at a time, with whatever else in between. -/
inductive Grants (email : String) (initial : AuthConfig κ) : List Grant → AuthConfig κ → Prop
  | start : Grants email initial [] initial
  | tick {grants cfg} (delay : Nat) : Grants email initial grants cfg →
      Grants email initial grants { cfg with clock := cfg.clock + delay }
  | disturb {grants cfg} (change : Disturbance κ) : Grants email initial grants cfg → Grants email initial grants
      { cfg with shared := (authSystem server platform options).disturb change cfg.clock cfg.shared }
  | other {grants cfg} (schedule : Schedule Plan) (request : Request)
      (noGrant : ∀ name password, request = .login name password → normalize platform name = email →
        heldOff cfg.shared.store email (cfg.clock + (schedule 0).1) = true) : Grants email initial grants cfg →
      Grants email initial grants ((authSystem server platform options).serve cfg schedule request)
  | grant {grants cfg} (schedule : Schedule Plan) (name password : String)
      (answer : Except (Option HttpErrorResponse) Unit) (own : normalize platform name = email)
      (free : heldOff cfg.shared.store email (cfg.clock + (schedule 0).1) = false)
      (answers : ∀ index, grantAnswer server cfg.shared.keycloak email password (schedule index).2 = answer) :
      Grants email initial grants cfg → Grants email initial
        (grants ++ [⟨answer, pastLock cfg.shared.store email,
          (((authSystem server platform options).serve cfg schedule (.login name password)).history
            cfg.threads.length).findSome? (counterWrite email),
          lockoutEntries ((authSystem server platform options).serve cfg schedule
            (.login name password)).shared.store email⟩])
        ((authSystem server platform options).serve cfg schedule (.login name password))

variable {server platform options} {email : String} {initial cfg : AuthConfig κ}
  {grants : List Grant} {grant : Grant}

theorem Grants.reach (run : Grants server platform options email initial grants cfg) :
    (authSystem server platform options).Reach anyEvent initial cfg := by
  induction run with
  | start => exact .start
  | tick delay _ ih => exact ih.next trivial (show System.advance _ _ (.tick delay) = some _ from rfl)
  | disturb change _ ih => exact ih.next trivial (show System.advance _ _ (.disturb change) = some _ from rfl)
  | other schedule request _ _ ih => exact ih.trans (System.serve_reach _ schedule request)
  | grant schedule name password _ _ _ _ _ ih => exact ih.trans (System.serve_reach _ schedule _)

theorem Grants.settles {clock : Nat} {world : World κ}
    (run : Grants server platform options email (.start clock world) grants cfg) :
    ∀ grant ∈ grants, Settles options.loginUseCase platform grant.before grant.answer
      grant.written grant.after := by
  induction run with
  | start => simp
  | tick delay _ ih => exact ih
  | disturb change _ ih => exact ih
  | other schedule request _ _ ih => exact ih
  | @grant grants cfg schedule name password answer own free answers run ih =>
    intro grant member
    rcases List.mem_append.mp member with earlier | last
    · exact ih grant earlier
    · obtain ⟨history, logged, alone⟩ := System.serve_log (S := authSystem server platform options) cfg schedule
        (.login name password)
      obtain ⟨again, logged', settles⟩ := serve_login_settles own free answers
      obtain rfl := List.append_cancel_left (logged.symm.trans logged')
      rw [List.mem_singleton.mp last]
      simp only [System.serve_history run.reach logged alone]
      exact settles

/-- Answers that do not blame the user leave an address without a lock. -/
theorem Grants.unlocked {clock : Nat} {keycloak : κ}
    (run : Grants server platform options email (.start clock (.fresh keycloak)) grants cfg)
    (blameless : ∀ grant ∈ grants, ¬ grant.Rejected platform ∧ ¬ grant.Unauthorized) : lockOf cfg email = none := by
  induction run with
  | start => rfl
  | tick delay _ ih => exact ih blameless
  | disturb change _ ih => cases change <;> exact ih blameless
  | @other grants cfg schedule request noGrant run ih =>
    have unlocked := ih blameless
    refine Eq.trans (congrArg Prod.fst (serve_lockoutEntries run.reach fun name password login own => ?_)) unlocked
    -- a login for the address would have found a lock
    have held := noGrant name password login own
    simp [heldOff, lockoutEntries, show cfg.shared.store.getUserData "system" (lockKey email) =
      none from unlocked] at held
  | @grant grants cfg schedule name password answer own free answers run ih =>
    have unlocked := ih fun grant member => blameless grant (List.mem_append_left _ member)
    obtain ⟨history, -, settles⟩ := @serve_login_settles κ server platform options _ _ _ _ _ _ own free answers
    have past : (pastLock cfg.shared.store email).1 = none := by
      unfold pastLock
      split
      · rfl
      · exact unlocked
    obtain ⟨notRejected, authorized⟩ := blameless _ (List.mem_append_right _ (List.mem_singleton_self _))
    generalize after : lockoutEntries ((authSystem server platform options).serve cfg schedule
      (.login name password)).shared.store email = entries at settles notRejected authorized
    refine (congrArg Prod.fst after).trans ?_
    generalize history.findSome? (counterWrite email) = written at settles
    cases settles with
    | granted spared =>
      rcases spared with rfl | rfl
      · exact past
      · rfl
    | @charged response _ _ blamed =>
      rcases blamed with rejects | other
      · exact absurd ⟨response, rfl, rejects⟩ notRejected
      · exact absurd ⟨response, rfl, other⟩ authorized
    | spared => exact past

end

namespace Sample

end Sample

end KeycloakAuth
