import KeycloakAuth.Directory
import KeycloakAuth.Redemption

namespace KeycloakAuth
open Async

/-- The record that a method fetches of the user for whom it signs tokens. -/
inductive Fetches {κ : Type} (server : KeycloakServer κ) (state : κ) : AuthCall → KcUserRepresentation → Prop
  | authenticate {email password found others} (listed : server.usersByEmail state email = .ok (found :: others)) :
      Fetches server state (.authenticate email password) found
  | refreshToken {token userId found} (subject : token.subject = some userId)
      (looked : server.userById state userId = .ok found) : Fetches server state (.refreshToken token) found
  | issueTokens {userId found} (looked : server.userById state userId = .ok found) :
      Fetches server state (.issueTokens userId) found

section
variable {κ : Type} (server : KeycloakServer κ) (platform : Platform) (options : Deployment)

/-- In the step from `before` to `after` request `p` gets tokens signed for the user whose record is `found`,
and in the end it returns a session. -/
structure SignsFor (permitted : AuthConfig κ → AuthEvent κ → Prop) (before after : AuthConfig κ) (p : Nat)
    (choice : Plan) (call : AuthCall) (found : KcUserRepresentation) : Prop where
  step : (authSystem server platform options).advance before (.resume p choice) = some after
  asks : ∃ thread rest, before.threads[p]? = some thread ∧ thread.state = .awaiting (.auth call) rest
  fetches : Fetches server before.shared.keycloak call found
  returns : ∃ final thread response, (authSystem server platform options).Reach permitted after final ∧
    final.threads[p]? = some thread ∧ thread.state = .returned response ∧ response.session.isSome = true

/-- Whoever gets a session has an account that is enabled when it is fetched for it. -/
def SessionsOfEnabled (permitted : AuthConfig κ → AuthEvent κ → Prop) (clock : Nat) (keycloak : κ) : Prop :=
  ∀ before after p choice call found,
    (authSystem server platform options).Reach permitted (.start clock (.fresh keycloak)) before →
    permitted before (.resume p choice) →
    SignsFor server platform options permitted before after p choice call found →
    (KeycloakAuthProvider.kcUserToUser found before.clock).enabled = true

variable {platform options} (directory : Directory server)

/-- Request `p` has looked up a credential of a user whose account is reported as disabled now. -/
def HoldsDisabled (cfg : AuthConfig κ) (p : Nat) : Prop :=
  ∃ token type record t found, foundEntry p token type record t ∈ cfg.log ∧
    server.userById cfg.shared.keycloak record.userId = .ok found ∧ found.enabled = some false

/-- A request is about to redeem the credential of a disabled account, or to log in where the account listed first
under the address is disabled and is not the one whose password is verified. -/
def AdmitsDisabled (cfg : AuthConfig κ) (p : Nat) : AuthCall → Prop
  | .authenticate email _ => ∃ first, directory.listed cfg.shared.keycloak email = some first ∧
      first.enabled = false ∧ directory.resolve cfg.shared.keycloak email ≠ some first
  | .refreshToken _ => HoldsDisabled server cfg p
  | .issueTokens _ => HoldsDisabled server cfg p
  | _ => False

variable {server} {permitted : AuthConfig κ → AuthEvent κ → Prop} {clock : Nat} {keycloak : κ}
  {before after : AuthConfig κ} {p : Nat} {choice : Plan} {call : AuthCall} {found : KcUserRepresentation}

theorem enabled_iff {now : Nat} : (KeycloakAuthProvider.kcUserToUser found now).enabled = true ↔
    found.enabled ≠ some false := by
  simp only [KeycloakAuthProvider.kcUserToUser]
  cases found.enabled with
  | none => simp
  | some enabled => simp

/-- A redemption fetches the account for which the credential was filed. -/
theorem reach_fetches
    (reach : (authSystem server platform options).Reach permitted (.start clock (.fresh keycloak)) before)
    (asks : ∃ thread rest, before.threads[p]? = some thread ∧ thread.state = .awaiting (.auth call) rest)
    (redeems : (Call.auth call).redeems = true) (fetches : Fetches server before.shared.keycloak call found) :
    (∃ token type record t, foundEntry p token type record t ∈ before.log) ∧
      ∀ token type record t, foundEntry p token type record t ∈ before.log →
        server.userById before.shared.keycloak record.userId = .ok found := by
  obtain ⟨thread, rest, atThread, waiting⟩ := asks
  have phase := reach_phase reach atThread
  rw [waiting] at phase
  obtain ⟨purpose, token, record, t, _, -, own, -, -, -, only, calls⟩ := phase.redeeming redeems
  refine ⟨⟨token, purpose, record, t, (System.mem_history.mp own).1⟩, ?_⟩
  intro _ _ _ _ looked
  obtain ⟨rfl, rfl, rfl⟩ := only _ _ _ _ (System.mem_history.mpr ⟨looked, rfl⟩)
  cases fetches with
  | authenticate listed => cases redeems
  | issueTokens fetched =>
    rcases calls with ⟨no, _⟩ | same | ⟨_, no⟩
    · cases no
    · cases same
      exact fetched
    · cases no
  | refreshToken subject fetched =>
    rcases calls with ⟨same, typed⟩ | no | ⟨_, no⟩
    · cases same
      obtain ⟨earlier, later, split⟩ := List.append_of_mem looked
      obtain ⟨original, saved, stems, rfl, rfl⟩ := reach_found reach split
      have filed : Saved before.log original := saved.mono (by rw [split]; exact List.subset_append_left ..)
      obtain ⟨user, issuedAt, _, named, signed, _⟩ := reach_session reach filed typed
      rw [signed] at subject
      have owner := Option.some.inj subject
      rw [stems.userId_eq, ← named, show user.id = _ from owner]
      exact fetched
    · cases no
    · cases no

/-- A login that ends with a session has been let in by Keycloak. -/
theorem granted_of_returns {final : AuthConfig κ} {thread : Thread Call.Ans Thrown Request Response}
    {response : Response} {email password : String}
    (reach : (authSystem server platform options).Reach permitted (.start clock (.fresh keycloak)) before)
    (step : (authSystem server platform options).advance before (.resume p choice) = some after)
    (asks : ∃ thread rest, before.threads[p]? = some thread ∧
      thread.state = .awaiting (.auth (.authenticate email password)) rest)
    (later : (authSystem server platform options).Reach permitted after final)
    (atThread : final.threads[p]? = some thread) (returned : thread.state = .returned response)
    (session : response.session.isSome = true) :
    server.passwordGrant before.shared.keycloak email password = .ok () := by
  obtain ⟨old, rest, atOld, waiting⟩ := asks
  cases Option.some.inj (step.symm.trans (System.advance_resume choice atOld waiting))
  have reached := (reach.any.next (by trivial) step).trans later.any
  have phase := reach_phase reached atThread
  rw [returned] at phase
  obtain ⟨tokens, session⟩ := Option.isSome_iff_exists.mp session
  obtain ⟨front, record, saved, history, filed⟩ := phase.returned_session session
  have logged := later.log_prefix.subset (List.mem_append_right before.log (List.mem_singleton_self _))
  have asked := System.mem_history.mpr ⟨logged, rfl⟩
  rw [history] at asked
  obtain ⟨result, accepted⟩ := filed.accepted _ _ _ _ (by simpa using asked)
  obtain ⟨-, ok⟩ := answerAuth_authenticate server platform options choice before.clock
    p before.shared email password
  exact (ok result accepted).1

/-- Whether the account that is fetched when tokens are signed is enabled. -/
theorem fetched_enabled_iff
    (reach : (authSystem server platform options).Reach permitted (.start clock (.fresh keycloak)) before)
    (signs : SignsFor server platform options permitted before after p choice call found) :
    (KeycloakAuthProvider.kcUserToUser found before.clock).enabled = true ↔
      ¬ AdmitsDisabled server directory before p call := by
  obtain ⟨step, asks, fetches, final, thread, response, later, atThread, returned, session⟩ := signs
  rw [enabled_iff]
  have redeemed (redeems : (Call.auth call).redeems = true) :
      found.enabled ≠ some false ↔ ¬ HoldsDisabled server before p := by
    obtain ⟨⟨token, type, record, t, looked⟩, fetched⟩ := reach_fetches reach asks redeems fetches
    constructor
    · intro enabled holds
      obtain ⟨token', type', record', t', found', looked', reported, disabled⟩ := holds
      cases Except.ok.inj ((fetched _ _ _ _ looked').symm.trans reported)
      exact enabled disabled
    · intro allowed disabled
      exact allowed ⟨token, type, record, t, found, looked, fetched _ _ _ _ looked, disabled⟩
  cases fetches with
  | refreshToken subject fetched => exact redeemed rfl
  | issueTokens fetched => exact redeemed rfl
  | authenticate listed =>
    obtain ⟨first, atFirst, rfl⟩ := directory.listed_eq_some _ listed
    have granted := granted_of_returns reach step asks later atThread returned session
    obtain ⟨account, resolved, _, admitted⟩ := (directory.grants ..).mp granted
    have enabled := directory.admitted_enabled _ _ admitted
    rw [(directory.reports ..).2]
    constructor
    · intro works holds
      obtain ⟨other, atOther, disabled, _⟩ := holds
      cases Option.some.inj (atFirst.symm.trans atOther)
      exact works (congrArg some disabled)
    · intro allowed disabled
      refine allowed ⟨first, atFirst, Option.some.inj disabled, fun same => ?_⟩
      cases Option.some.inj (resolved.symm.trans same)
      cases enabled.symm.trans (Option.some.inj disabled)

/-- Of the runs of any kind, those give sessions to enabled accounts only in which no credential of a disabled
account is redeemed and no login stands for two accounts of which the one listed first is disabled. -/
theorem sessions_of_enabled_iff :
    SessionsOfEnabled server platform options permitted clock keycloak ↔
      ∀ before after p choice call found,
        (authSystem server platform options).Reach permitted (.start clock (.fresh keycloak)) before →
        permitted before (.resume p choice) →
        SignsFor server platform options permitted before after p choice call found →
        ¬ AdmitsDisabled server directory before p call := by
  constructor
  · intro enabled before after p choice call found reach allowed signs
    exact (fetched_enabled_iff directory reach signs).mp
      (enabled before after p choice call found reach allowed signs)
  · intro admits before after p choice call found reach allowed signs
    exact (fetched_enabled_iff directory reach signs).mpr
      (admits before after p choice call found reach allowed signs)

end

namespace Sample

/-- Ann's account has been disabled. -/
def disabled : Realm := ⟨[{ ann with enabled := false }], true, false⟩

/-- Her session is presented, found and taken. -/
def presentedAgain : AuthConfig Realm :=
  after loggedIn [.disturb (.keycloak disabled), .tick 2000, .arrive (.refresh (session ann 1000)), .resume 1 .good,
    .resume 1 .good]

theorem presentedAgain_reach : system.Reach anyEvent start presentedAgain :=
  loggedIn_reach.trans (after_reach (by simp [anyEvent]) rfl)

theorem sessions_not_of_enabled : ¬ SessionsOfEnabled Realm.server platform options anyEvent 1000 realm := by
  intro enabled
  have ends : system.Reach anyEvent (after presentedAgain [.resume 1 .good])
      (after (after presentedAgain [.resume 1 .good]) [.resume 1 .good]) := after_reach (by simp [anyEvent]) rfl
  have signs : SignsFor Realm.server platform options anyEvent presentedAgain
    (after presentedAgain [.resume 1 .good])
      1 .good (.refreshToken (session ann 1000)) ({ ann with enabled := false } : Account).representation :=
    ⟨rfl, ⟨_, _, rfl, rfl⟩, .refreshToken rfl rfl, _, _, _, ends, rfl, rfl, rfl⟩
  cases enabled _ _ _ _ _ _ presentedAgain_reach trivial signs

end Sample

end KeycloakAuth
