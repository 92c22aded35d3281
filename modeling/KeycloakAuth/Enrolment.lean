import KeycloakAuth.SecondFactor

namespace KeycloakAuth
open Async LoginUseCase InMemoryTokenStore

section
variable {κ : Type} (server : KeycloakServer κ) (platform : Platform) (options : Deployment)

/-- Since the secret of the user has been stored, a request to `2fa/verify` has succeeded with a code for it. -/
def Confirmed (cfg : AuthConfig κ) (userId : String) : Prop :=
  ∃ r stored storedAt q thread code t,
    cfg.shared.store.getUserData userId "totpSecret" = some (.random ⟨r, 0⟩) ∧
    cfg.threads[q]? = some thread ∧ thread.request = .verify2FA userId code ∧
    [⟨r, .auth (.setup2FA userId), stored, storedAt⟩, ⟨q, .auth (.verify2FA userId code), .ok true, t⟩].Sublist
      cfg.log ∧
    platform.totpVerify (.random ⟨r, 0⟩) code t = true

/-- Login `p` has had the password of the user accepted. -/
def PasswordAccepted (cfg : AuthConfig κ) (p : Nat) (userId : String) : Prop :=
  ∃ email password result t, ⟨p, .auth (.authenticate email password), .ok result, t⟩ ∈ cfg.log ∧
    result.user.id = userId

/-- In every run, a login answers with a challenge only for a user who has confirmed the second factor, and whoever
has not gets tokens for the password. -/
def BindsOnceConfirmed (permitted : AuthConfig κ → AuthEvent κ → Prop) (clock : Nat) (keycloak : κ) : Prop :=
  ∀ cfg p thread email password,
    (authSystem server platform options).Reach permitted (.start clock (.fresh keycloak)) cfg →
    cfg.threads[p]? = some thread → thread.request = .login email password →
    (∀ preAuthToken expiresIn,
      thread.state.view = .returned (.login (.twoFactorRequired preAuthToken expiresIn)) →
      ∃ userId, PasswordAccepted cfg p userId ∧ Confirmed platform cfg userId) ∧
    ∀ userId, PasswordAccepted cfg p userId → ¬ Confirmed platform cfg userId → thread.state.finished = true →
      ∃ tokens user, thread.state.view = .returned (.login (.success tokens user))

/-- Where a login looks for the second factor of a user, none is set up, or a request to `2fa/verify` has succeeded
for the user. -/
def ConfirmedFirst (cfg : AuthConfig κ) (event : AuthEvent κ) : Prop :=
  ∀ p choice thread email password userId, event = .resume p choice → cfg.threads[p]? = some thread →
    thread.request = .login email password →
    thread.state.view = .awaiting (.store (.getUserData userId "totpSecret")) → cfg.shared.store.Enrolled userId →
    ∃ q verifying code t, cfg.threads[q]? = some verifying ∧ verifying.request = .verify2FA userId code ∧
      ⟨q, .auth (.verify2FA userId code), .ok true, t⟩ ∈ cfg.log

variable {server platform options} {permitted : AuthConfig κ → AuthEvent κ → Prop} {clock : Nat} {keycloak : κ}
  {cfg : AuthConfig κ}

/-- Every secret was stored by a request to `2fa/setup`. -/
theorem reach_secret
    (reach : (authSystem server platform options).Reach permitted (.start clock (.fresh keycloak)) cfg)
    {userId : String} {secret : Str} (stored : cfg.shared.store.getUserData userId "totpSecret" = some secret) :
    ∃ r answer t, secret = .random ⟨r, 0⟩ ∧ ⟨r, .auth (.setup2FA userId), answer, t⟩ ∈ cfg.log := by
  refine reach.invariant (fun shared log => ∀ secret, shared.store.getUserData userId "totpSecret" = some secret →
    ∃ r answer t, secret = .random ⟨r, 0⟩ ∧ ⟨r, .auth (.setup2FA userId), answer, t⟩ ∈ log) ?_ ?_ ?_ secret stored
  · intro secret stored
    cases stored
  · rintro (state | _) now shared log origin
    · exact origin
    · exact origin
  intro cfg p thread call rest choice reach found waiting _ origin secret stored
  have phase := reach_phase reach found
  rw [waiting] at phase
  rcases (answerCall_secret_cases userId fun _ _ writes => phase.writes writes :
      (answerCall server platform options choice cfg.clock p call cfg.shared).2.store.getUserData
        userId "totpSecret" =
        _ ∨ _) with kept | ⟨rfl, -, set⟩
  · obtain ⟨r, answer, t, same, logged⟩ := origin secret (kept.symm.trans stored)
    exact ⟨r, answer, t, same, List.mem_append_left _ logged⟩
  · cases Option.some.inj (set.symm.trans stored)
    exact ⟨p, _, _, rfl, List.mem_append_right _ (List.mem_singleton_self _)⟩

/-- A secret stays through every run. -/
theorem reach_secret_kept {final : AuthConfig κ}
    (reach : (authSystem server platform options).Reach anyEvent (.start clock (.fresh keycloak)) cfg)
    (later : (authSystem server platform options).Reach permitted cfg final) {userId : String} {secret : Str}
    (stored : cfg.shared.store.getUserData userId "totpSecret" = some secret) (set : secret.truthy = true) :
    final.shared.store.getUserData userId "totpSecret" = some secret := by
  refine later.invariant (fun shared _ => shared.store.getUserData userId "totpSecret" = some secret) stored ?_ ?_
  · rintro (state | _) now shared log kept
    · exact kept
    · exact kept
  · intro middle p thread call rest choice earlier found waiting _ kept
    have phase := reach_phase (reach.trans earlier.any) found
    rw [waiting] at phase
    exact answerCall_secret kept set fun _ _ writes => phase.writes writes

/-- A code that was accepted was one for the secret that is still stored, and that had been stored before. -/
theorem reach_confirmed
    (reach : (authSystem server platform options).Reach permitted (.start clock (.fresh keycloak)) cfg) {q t : Nat}
    {userId code : String} {thread : Thread Call.Ans Thrown Request Response}
    (found : cfg.threads[q]? = some thread)
    (asks : thread.request = .verify2FA userId code)
    (verified : ⟨q, .auth (.verify2FA userId code), .ok true, t⟩ ∈ cfg.log) : Confirmed platform cfg userId := by
  obtain ⟨i, at_entry⟩ := List.mem_iff_getElem?.mp verified
  obtain ⟨middle, running, rest, choice, early, fine, at_request, waiting, log, answer, later⟩ :=
    reach.step_at at_entry (Nat.zero_le _)
  have accepted : (answerCall server platform options choice middle.clock q (.auth (.verify2FA userId code))
    middle.shared).1 = .ok true := answer
  simp only [answerCall, answerAuth_verify2FA, Except.ok.injEq, Option.any_eq_true] at accepted
  obtain ⟨secret, stored, -⟩ := accepted
  obtain ⟨stored, set⟩ := Option.filter_eq_some_iff.mp stored
  obtain ⟨r, saved, savedAt, rfl, logged⟩ := reach_secret early stored
  have still : cfg.shared.store.getUserData userId "totpSecret" = some (.random ⟨r, 0⟩) :=
    reach_secret_kept early.any
      (.trans (.next .start fine (System.advance_resume choice at_request waiting)) later) stored set
  obtain ⟨current, again, -, right⟩ := reach_verified reach verified
  cases still.symm.trans again
  refine ⟨r, saved, savedAt, q, thread, code, t, still, found, asks, ?_, right⟩
  rw [System.split_at at_entry, ← log]
  exact List.Sublist.append (List.singleton_sublist.mpr logged) (List.singleton_sublist.mpr List.mem_cons_self)

/-- A password was accepted. -/
abbrev acceptedEntry (p : Nat) (email password : String) (result : AuthenticateResponse) (t : Nat) : LogEntry :=
  ⟨p, .auth (.authenticate email password), .ok result, t⟩

def Unaccepted (history : List LogEntry) : Prop :=
  ∀ p email password result t, acceptedEntry p email password result t ∉ history

/-- How a login ends that has been through the calls of its history. -/
inductive LoginEnds (p : Nat) : List LogEntry → ServiceView → Prop
  | running {history call} : LoginEnds p history (.awaiting call)
  | challenged {history email password result t secret now preAuthToken expiresIn}
      (accepted : acceptedEntry p email password result t ∈ history)
      (only : ∀ email password other t, acceptedEntry p email password other t ∈ history → other = result)
      (looked : ⟨p, .store (.getUserData result.user.id "totpSecret"), .ok secret, now⟩ ∈ history)
      (enrolled : Option.any Str.truthy secret = true) :
      LoginEnds p history (.returned (.login (.twoFactorRequired preAuthToken expiresIn)))
  | succeeded {history tokens user} : LoginEnds p history (.returned (.login (.success tokens user)))
  | refused {history error} (unaccepted : Unaccepted history) : LoginEnds p history (.threw error)
  | failed {history error call thrown t} (rejected : ⟨p, .store call, .error thrown, t⟩ ∈ history) :
      LoginEnds p history (.threw error)

/-- As long as a login only calls the store, no password is accepted. -/
theorem store_along {α : Type} {p now drawn : Nat} {history : List LogEntry} {body : Service α}
    {next : α → Service Response} (only : body.Only fun call => ∃ stored, call = .store stored)
    (unaccepted : Unaccepted history)
    (goes_on : ∀ value now drawn history, Unaccepted history →
      (next value).Along (LoginEnds p) p now drawn history) :
    (body.bind next).Along (LoginEnds p) p now drawn history := by
  induction body generalizing now drawn history with
  | done value => exact goes_on value now drawn history unaccepted
  | fail error => exact .refused unaccepted
  | clock rest ih => exact ih now (only now) unaccepted
  | draw rest ih => exact ih ⟨p, drawn⟩ (only ⟨p, drawn⟩) unaccepted
  | await call rest ih =>
    refine ⟨.running, fun answer later _ => ih answer (only.2 answer) ?_⟩
    obtain ⟨stored, rfl⟩ := only.1
    intro q email password result t member
    rcases List.mem_append.mp member with old | new
    · exact unaccepted q email password result t old
    · simp at new

theorem login_ends_along (platform : Platform) (options : Deployment) (p now : Nat) (email password : String) :
    ((Request.login email password).body platform options).Along (LoginEnds p) p now 0 [] := by
  simp only [Request.body, execute, LoginUseCase.authenticate, Service.authProvider, Program.bind_eq,
    Program.bind_assoc, Program.tryCatch_eq]
  refine store_along (checkLock_only ⟨_, rfl⟩ fun _ => ⟨_, rfl⟩)
    (by simp [Unaccepted]) fun _ now drawn before unaccepted => ?_
  refine ⟨.running, ?_⟩
  rintro (error | result) t -
  · have still : Unaccepted (before ++ [⟨p, .auth (.authenticate (normalize platform email) password), .error error,
        t⟩]) := by
      intro q email' password' result t' member
      rcases List.mem_append.mp member with old | new
      · exact unaccepted _ _ _ _ _ old
      · simp at new
    simp only [Program.ofExcept_error, Program.attempt, Program.throw_eq]
    split
    · simp only [Program.bind_assoc, Program.fail_bind]
      exact store_along (recordFailedAttempt_only _ ⟨_, rfl⟩ fun _ _ => ⟨_, rfl⟩) still
        fun _ _ _ _ unaccepted => .refused unaccepted
    · exact .refused still
  · simp only [Program.ofExcept_ok, Program.attempt, Program.done_bind, issue, Service.tokenStore, Program.bind_eq,
      Program.bind_assoc]
    refine .perform .running (fun _ t' _ => ?_) fun _ _ =>
      .failed (List.mem_append_right _ (List.mem_singleton_self _))
    refine .perform .running (fun _ t'' _ => ?_) fun _ _ =>
      .failed (List.mem_append_right _ (List.mem_singleton_self _))
    refine .perform .running (fun secret now' _ => ?_) fun _ _ =>
      .failed (List.mem_append_right _ (List.mem_singleton_self _))
    by_cases enrolled : Option.any Str.truthy secret = true
    · simp only [enrolled, if_true, Service.randomHex, Program.bind_eq, Program.bind_assoc, Program.pure_eq,
        Program.done_bind]
      refine .random ?_
      refine saveRecord_along .running (fun _ _ _ => ?_) fun _ _ =>
        .failed (List.mem_append_right _ (List.mem_singleton_self _))
      refine .challenged (show acceptedEntry p (normalize platform email) password result t ∈ _ by simp) ?_
        (show (⟨p, .store (.getUserData result.user.id "totpSecret"), .ok secret,
          now'⟩ : LogEntry) ∈ _ by simp) enrolled
      intro email' password' other t' member
      simp only [List.mem_append, List.mem_singleton, unaccepted p email' password' other t', false_or] at member
      simp_all
    · have notEnrolled : Option.any Str.truthy secret = false := by simpa using enrolled
      simp only [notEnrolled, Bool.false_eq_true, if_false, Program.bind_assoc]
      exact saveRecord_along .running (fun _ _ _ => .succeeded) fun _ _ =>
        .failed (List.mem_append_right _ (List.mem_singleton_self _))

theorem reach_login_ends
    (reach : (authSystem server platform options).Reach permitted (.start clock (.fresh keycloak)) cfg) {p : Nat}
    {thread : Thread Call.Ans Thrown Request Response} {email password : String}
    (found : cfg.threads[p]? = some thread) (login : thread.request = .login email password) :
    LoginEnds p (cfg.history p) thread.state.view := by
  have each (p : Nat) (request : Request) (now : Nat) : (request.body platform options).Along
      (fun history view => ∀ email password, request = .login email password →
        LoginEnds p history view) p now 0 [] := by
    by_cases login : ∃ email password, request = .login email password
    · obtain ⟨email, password, rfl⟩ := login
      exact (login_ends_along platform options p now email password).mono fun _ _ ends _ _ _ => ends
    · refine (phase_along platform options p now request).mono fun _ _ _ email password same => ?_
      exact absurd ⟨email, password, same⟩ login
  exact reach.view each found email password login

/-- The store answers every call. -/
theorem reach_store_answers
    (reach : (authSystem server platform options).Reach permitted (.start clock (.fresh keycloak)) cfg) {p t : Nat}
    {call : StoreCall} {error : Thrown} : ⟨p, .store call, .error error, t⟩ ∉ cfg.log := by
  intro rejected
  obtain ⟨i, at_entry⟩ := List.mem_iff_getElem?.mp rejected
  obtain ⟨middle, _, _, choice, _, _, _, _, _, answer, _⟩ := reach.step_at at_entry (Nat.zero_le _)
  cases answer

/-- Logins enforce the second factor where it has been confirmed, if none is looked for between its set-up and its
confirmation. -/
theorem binds_once_confirmed : BindsOnceConfirmed server platform options ConfirmedFirst clock keycloak := by
  intro cfg p thread email password reach found login
  have ends := reach_login_ends reach found login
  have confirmed {userId : String} {secret : Option Str} {t : Nat}
      (looked : ⟨p, .store (.getUserData userId "totpSecret"), .ok secret, t⟩ ∈ cfg.history p)
      (enrolled : Option.any Str.truthy secret = true) : Confirmed platform cfg userId := by
    obtain ⟨i, at_entry⟩ := List.mem_iff_getElem?.mp (System.mem_history.mp looked).1
    obtain ⟨middle, asking, rest, choice, early, fine, at_login, waiting, log, answer, later⟩ :=
      reach.step_at at_entry (Nat.zero_le _)
    have later : (authSystem server platform options).Reach ConfirmedFirst middle cfg :=
      .trans (.next .start fine (System.advance_resume choice at_login waiting)) later
    have stored : middle.shared.store.getUserData userId "totpSecret" = secret := Except.ok.inj answer
    obtain ⟨same, at_end, kept⟩ := later.request_kept at_login
    cases Option.some.inj (found.symm.trans at_end)
    obtain ⟨q, verifying, code, t', at_q, asks, verified⟩ := fine p choice asking email password userId rfl at_login
      (kept.symm.trans login) (by rw [waiting]; rfl) (by rw [Enrolled, stored]; exact enrolled)
    obtain ⟨verifying', at_q', kept'⟩ := later.request_kept at_q
    exact reach_confirmed reach at_q' (kept'.trans asks) (later.log_prefix.subset verified)
  constructor
  · intro preAuthToken expiresIn challenged
    rw [challenged] at ends
    cases ends with
    | challenged accepted only looked enrolled =>
      exact ⟨_, ⟨_, _, _, _, (System.mem_history.mp accepted).1, rfl⟩, confirmed looked enrolled⟩
  · rintro userId ⟨email', password', result, t, accepted, rfl⟩ unconfirmed ended
    have own := System.mem_history.mpr ⟨accepted, rfl⟩
    generalize shown : thread.state.view = view at ends
    cases ends with
    | running =>
      cases stands : thread.state with
      | awaiting call rest =>
        rw [stands] at ended
        cases ended
      | returned value =>
        rw [stands] at shown
        cases shown
      | threw error =>
        rw [stands] at shown
        cases shown
    | challenged other only looked enrolled =>
      cases only _ _ _ _ own
      exact absurd (confirmed looked enrolled) unconfirmed
    | succeeded => exact ⟨_, _, rfl⟩
    | refused unaccepted => exact absurd own (unaccepted _ _ _ _ _)
    | failed rejected => exact absurd (System.mem_history.mp rejected).1 (reach_store_answers reach)

end

namespace Sample

/-- Ann has asked for a second factor, has left it at that and logs in again. -/
def abandoned : AuthConfig Realm :=
  system.serve (system.serve loggedIn promptly (.setup2FA "ann")) promptly (.login "ann@mail" "ann password")

/-- She is asked for a code of a secret that she may never have seen. -/
theorem not_bound_once_confirmed : ¬ BindsOnceConfirmed Realm.server platform options anyEvent 1000 realm := by
  intro binds
  have reach : system.Reach anyEvent start abandoned :=
    (loggedIn_reach.trans (System.serve_reach _ _ _)).trans (System.serve_reach _ _ _)
  obtain ⟨challenges, -⟩ := binds abandoned 2 _ _ _ reach rfl rfl
  obtain ⟨userId, -, r, stored, storedAt, q, thread, code, t, -, found, asks, -⟩ := challenges _ _ rfl
  have none : ∀ thread ∈ abandoned.threads, thread.request = .setup2FA "ann" ∨
      thread.request = .login "ann@mail" "ann password" := by decide
  rcases none thread (List.mem_of_getElem? found) with setup | login
  · cases setup.symm.trans asks
  · cases login.symm.trans asks

/-- What happens next is no look at the secret of a user who has one. -/
def unlooked (cfg : AuthConfig Realm) : AuthEvent Realm → Bool
  | .resume p _ =>
    match cfg.awaited p with
    | some (.store (.getUserData userId key)) =>
      key ≠ "totpSecret" || !Option.any Str.truthy (cfg.shared.store.getUserData userId "totpSecret")
    | _ => true
  | _ => true

theorem awaited_of_view {cfg : AuthConfig Realm} {p : Nat} {thread : Thread Call.Ans Thrown Request Response}
    {call : Call} (found : cfg.threads[p]? = some thread) (waits : thread.state.view = .awaiting call) :
    cfg.awaited p = some call := by
  obtain ⟨request, drawn, state⟩ := thread
  cases state with
  | awaiting other rest =>
    obtain rfl := View.awaiting.inj waits
    exact System.awaited_eq_some.mpr ⟨_, rest, found, rfl⟩
  | returned value => cases waits
  | threw error => cases waits

theorem confirmedFirst_of_unlooked {cfg : AuthConfig Realm} {event : AuthEvent Realm}
    (plain : unlooked cfg event = true) : ConfirmedFirst cfg event := by
  rintro p choice thread email password userId rfl found - asks enrolled
  simp only [unlooked, awaited_of_view found asks, show Option.any Str.truthy _ = true from enrolled] at plain
  exact absurd plain (by decide)

/-- Ann logs in, sets up a second factor, confirms it and logs in again, up to the look at her secret. -/
def confirming : AuthConfig Realm := after start (
  .arrive (.login "ann@mail" "ann password") :: List.replicate 6 (.resume 0 .good) ++
  [.arrive (.setup2FA "ann"), .resume 1 .good, .arrive (.verify2FA "ann" "123456"), .resume 2 .good] ++
  .arrive (.login "ann@mail" "ann password") :: List.replicate 4 (.resume 3 .good))

/-- She is asked for a code. -/
def challenged : AuthConfig Realm := after (after confirming [.resume 3 .good]) [.resume 3 .good]

theorem after_one {permitted : AuthConfig Realm → AuthEvent Realm → Prop} {cfg : AuthConfig Realm}
    {event : AuthEvent Realm} (fine : permitted cfg event) (happens : (system.advance cfg event).isSome = true) :
    system.Reach permitted cfg (after cfg [event]) := by
  obtain ⟨next, step⟩ := Option.isSome_iff_exists.mp happens
  have same : after cfg [event] = next := by simp [after, System.run, step]
  exact same ▸ .next .start fine step

theorem challenged_reach : system.Reach ConfirmedFirst start challenged := by
  have early : system.Reach (fun cfg event => unlooked cfg event = true) start confirming :=
    after_reach_allows (by decide +kernel)
  have looks : ConfirmedFirst confirming (.resume 3 .good) := by
    rintro p choice thread email password userId same found - asks -
    cases same
    cases (awaited_of_view found asks).symm.trans (rfl : confirming.awaited 3 = _)
    exact ⟨2, _, "123456", _, rfl, rfl, List.mem_of_getElem? (rfl : confirming.log[7]? = _)⟩
  have last : system.Reach (fun cfg event => unlooked cfg event = true) (after confirming [.resume 3 .good])
      challenged := after_reach_allows (by decide +kernel)
  exact ((early.mono fun _ _ => confirmedFirst_of_unlooked).trans (after_one looks (by decide +kernel))).trans
    (last.mono fun _ _ => confirmedFirst_of_unlooked)

/-- She is challenged, and has confirmed her second factor. -/
theorem binds_once_confirmed_challenged : ∃ thread preAuthToken expiresIn, challenged.threads[3]? = some thread ∧
    thread.state.view = .returned (.login (.twoFactorRequired preAuthToken expiresIn)) ∧
    ∃ userId, PasswordAccepted challenged 3 userId ∧ Confirmed platform challenged userId :=
  ⟨_, _, _, rfl, rfl, (binds_once_confirmed challenged 3 _ _ _ challenged_reach rfl rfl).1 _ _ rfl⟩

end Sample

end KeycloakAuth
