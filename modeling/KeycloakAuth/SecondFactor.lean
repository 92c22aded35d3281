import KeycloakAuth.Sessions
import KeycloakAuth.Realm

namespace KeycloakAuth
open Async LoginUseCase InMemoryTokenStore

def Call.verifies : Call → Bool
  | .auth (.verify2FA _ _) => true
  | _ => false

/-- The user has a secret for one-time codes. -/
def InMemoryTokenStore.Enrolled (store : InMemoryTokenStore) (userId : String) : Prop :=
  Option.any Str.truthy (store.getUserData userId "totpSecret") = true

section
variable {κ : Type} (server : KeycloakServer κ) (platform : Platform) (options : Deployment)

/-- In the step from `before` to `after` request `p` ends with a response that hands out a session. -/
structure HandsOut (before after : AuthConfig κ) (p : Nat) (request : Request)
    (tokens : SessionResponse) : Prop where
  ends : ∃ thread response, after.threads[p]? = some thread ∧ thread.request = request ∧
    thread.state = .returned response ∧ response.session = some tokens
  running : ∀ thread, before.threads[p]? = some thread → thread.state.finished = false

/-- Request `p` has had a code checked against the secret that is stored for the user. -/
def CodeVerified (cfg : AuthConfig κ) (p : Nat) (userId : String) : Prop :=
  ∃ code t secret, ⟨p, .auth (.verify2FA userId code), .ok true, t⟩ ∈ cfg.log ∧
    cfg.shared.store.getUserData userId "totpSecret" = some secret ∧ platform.totpVerify secret code t = true

/-- Whoever has a second factor when a session is handed out, other than by rotation, has shown it to the same
request. -/
def SecondFactorShown (permitted : AuthConfig κ → AuthEvent κ → Prop) (clock : Nat) (keycloak : κ) : Prop :=
  ∀ before event after p request tokens userId,
    (authSystem server platform options).Reach permitted (.start clock (.fresh keycloak)) before →
    permitted before event → (authSystem server platform options).advance before event = some after →
    HandsOut before after p request tokens → (∀ t, request ≠ .refresh t) →
    tokens.refreshToken.subject = some userId → after.shared.store.Enrolled userId →
    CodeVerified platform after p userId

/-- A request that never asks for a code files a session for a user with a second factor: one that verifies a
magic link, or a login whose user had none when the login looked for it and has enrolled since. -/
def FilesWithoutCode (cfg : AuthConfig κ) (event : AuthEvent κ) : Prop :=
  ∃ p choice thread record rest, event = .resume p choice ∧ cfg.threads[p]? = some thread ∧
    thread.state = .awaiting (.store (.save record)) rest ∧ record.type = .refreshToken ∧
    cfg.shared.store.Enrolled record.userId ∧
    ((∃ token, thread.request = .verifyMagicLink token) ∨ ∃ email password, thread.request = .login email password)

variable {server platform options} {permitted : AuthConfig κ → AuthEvent κ → Prop} {clock : Nat} {keycloak : κ}
  {cfg : AuthConfig κ}

/-- The user data that the use cases write are the counters and the locks of logins. -/
theorem Phase.writes {p : Nat} {request : Request} {history : List LogEntry} {call : Call}
    (phase : Phase platform options p request history (.awaiting call)) {user key : String}
    (writes : (∃ value, call = .store (.saveUserData user key value)) ∨ call = .store (.deleteUserData user key)) :
    "totpSecret" ≠ key := by
  have none (other : ∀ value, call ≠ .store (.saveUserData user key value))
      (another : call ≠ .store (.deleteUserData user key)) : False := by
    rcases writes with ⟨value, same⟩ | same
    · exact other value same
    · exact another same
  cases request with
  | login email password =>
    cases phase <;> simp at writes
    all_goals
      obtain ⟨-, rfl⟩ := writes
      simp
  | complete2FA token code => cases phase <;> exact (none (by simp) (by simp)).elim
  | refresh token => cases phase <;> exact (none (by simp) (by simp)).elim
  | forgotPassword email => cases phase <;> exact (none (by simp) (by simp)).elim
  | sendMagicLink email => cases phase <;> exact (none (by simp) (by simp)).elim
  | resetPassword token newPassword => cases phase <;> exact (none (by simp) (by simp)).elim
  | verifyMagicLink token => cases phase <;> exact (none (by simp) (by simp)).elim
  | logout token => cases phase <;> exact (none (by simp) (by simp)).elim
  | register email username password => cases phase <;> exact (none (by simp) (by simp)).elim
  | setup2FA userId => cases phase <;> exact (none (by simp) (by simp)).elim
  | verify2FA userId code => cases phase <;> exact (none (by simp) (by simp)).elim

/-- The secret of a user is stored by a request to `2fa/setup`, and stays as it was otherwise. -/
theorem answerCall_secret_cases {plan : Plan} {now p : Nat} {call : Call} {world : World κ} (userId : String)
    (writes : ∀ user key, (∃ value, call = .store (.saveUserData user key value)) ∨
      call = .store (.deleteUserData user key) → "totpSecret" ≠ key) :
    (answerCall server platform options plan now p call world).2.store.getUserData userId "totpSecret" =
      world.store.getUserData userId "totpSecret" ∨
    call = .auth (.setup2FA userId) ∧ ¬ world.store.Enrolled userId ∧
      (answerCall server platform options plan now p call world).2.store.getUserData userId "totpSecret" =
        some (.random ⟨p, 0⟩) := by
  cases call with
  | store call =>
    left
    cases call with
    | save record => rfl
    | findByToken token type => rfl
    | markConsumed id => exact getUserData_markConsumed ..
    | deleteExpired => rfl
    | deleteAllForUser owner => rfl
    | getUserData user key => rfl
    | saveUserData user key value =>
      exact getUserData_saveUserData_other _ _ (.inr (writes user key (.inl ⟨value, rfl⟩)))
    | deleteUserData user key => exact getUserData_deleteUserData_other _ (.inr (writes user key (.inr rfl)))
  | auth call =>
    by_cases setup : ∃ user, call = .setup2FA user
    · obtain ⟨user, rfl⟩ := setup
      rcases answerAuth_setup2FA server platform options plan now p world user with ⟨_, _, same⟩ | ⟨unset, saved⟩
      · rw [answerCall, same]
        exact .inl rfl
      · rw [answerCall, saved]
        by_cases own : userId = user
        · subst own
          exact .inr ⟨rfl, by simp [Enrolled, unset], getUserData_saveUserData_self ..⟩
        · exact .inl (getUserData_saveUserData_other _ _ (.inl own))
    · rw [answerCall, answerAuth_store _ _ _ _ _ _ _ fun user same => setup ⟨user, same⟩]
      exact .inl rfl
  | render template link => exact .inl rfl
  | send mail => exact .inl rfl

/-- A secret that is stored stays. -/
theorem answerCall_secret {plan : Plan} {now p : Nat} {call : Call} {world : World κ}
    {userId : String} {secret : Str}
    (stored : world.store.getUserData userId "totpSecret" = some secret) (set : secret.truthy = true)
    (writes : ∀ user key, (∃ value, call = .store (.saveUserData user key value)) ∨
      call = .store (.deleteUserData user key) → "totpSecret" ≠ key) :
    (answerCall server platform options plan now p call world).2.store.getUserData userId "totpSecret" =
      some secret := by
  rcases answerCall_secret_cases userId writes with kept | ⟨_, unset, _⟩
  · exact kept.trans stored
  · exact absurd (by simp [Enrolled, stored, set]) unset

/-- A code that was accepted was computed from the secret that is still stored. -/
theorem reach_verified
    (reach : (authSystem server platform options).Reach permitted (.start clock (.fresh keycloak)) cfg) {p t : Nat}
    {userId code : String} (verified : ⟨p, .auth (.verify2FA userId code), .ok true, t⟩ ∈ cfg.log) :
    ∃ secret, cfg.shared.store.getUserData userId "totpSecret" = some secret ∧ secret.truthy = true ∧
      platform.totpVerify secret code t = true := by
  refine reach.invariant (fun shared log => ∀ p userId code t,
    ⟨p, .auth (.verify2FA userId code), .ok true, t⟩ ∈ log → ∃ secret,
      shared.store.getUserData userId "totpSecret" = some secret ∧ secret.truthy = true ∧
        platform.totpVerify secret code t = true) ?_ ?_ ?_ p userId code t verified
  · simp [Config.start]
  · rintro (state | _) now shared log verified
    · exact verified
    · exact verified
  intro cfg p thread call rest choice reach found waiting _ kept q userId code t member
  have phase := reach_phase reach found
  rw [waiting] at phase
  rcases List.mem_append.mp member with old | new
  · obtain ⟨secret, stored, set, right⟩ := kept q userId code t old
    exact ⟨secret, answerCall_secret stored set fun _ _ writes => phase.writes writes, set, right⟩
  · obtain ⟨rfl, rfl, answer, rfl⟩ := Entry.mk.inj (List.mem_singleton.mp new)
    have accepted : (answerCall server platform options choice cfg.clock q (.auth (.verify2FA userId code))
      cfg.shared).1 = .ok true := (eq_of_heq answer).symm
    simp only [answerCall, answerAuth_verify2FA, Except.ok.injEq, Option.any_eq_true] at accepted
    obtain ⟨secret, stored, right⟩ := accepted
    obtain ⟨stored, set⟩ := Option.filter_eq_some_iff.mp stored
    refine ⟨secret, ?_, set, right⟩
    change (answerAuth server platform options choice cfg.clock q (.verify2FA userId code)
      cfg.shared).2.store.getUserData userId "totpSecret" = some secret
    rw [answerAuth_verify2FA]
    exact stored

/-- Neither a magic link nor a login has a code checked. -/
theorem Phase.verifying {p : Nat} {request : Request} {history : List LogEntry} {call : Call}
    (verifies : call.verifies = true) (phase : Phase platform options p request history (.awaiting call)) :
    (∀ token, request ≠ .verifyMagicLink token) ∧ ∀ email password, request ≠ .login email password := by
  constructor
  · rintro token rfl
    cases phase <;> cases verifies
  · rintro email password rfl
    cases phase <;> cases verifies

/-- Whether a request has had a code checked when it hands out a session of a user with a second factor. -/
theorem code_verified_iff {before after : AuthConfig κ} {event : AuthEvent κ} {p : Nat} {request : Request}
    {tokens : SessionResponse} {userId : String}
    (reach : (authSystem server platform options).Reach permitted (.start clock (.fresh keycloak)) before)
    (step : (authSystem server platform options).advance before event = some after)
    (handsOut : HandsOut before after p request tokens) (notRotated : ∀ t, request ≠ .refresh t)
    (subject : tokens.refreshToken.subject = some userId) (enrolled : after.shared.store.Enrolled userId) :
    CodeVerified platform after p userId ↔ ¬ FilesWithoutCode before event := by
  obtain ⟨⟨thread, response, found, rfl, returned, session⟩, running⟩ := handsOut
  have reached : (authSystem server platform options).Reach anyEvent (.start clock (.fresh keycloak)) after :=
    reach.any.next trivial step
  have grows := (System.advance_log step).subset
  have phase := reach_phase reached found
  rw [returned] at phase
  obtain ⟨front, record, saved, history, typed, hashed, _, ways⟩ := phase.returned_session session
  rcases System.advance_ends step found (by rw [returned]; rfl) running with
    ⟨rfl, quiet⟩ | ⟨choice, old, call, rest, rfl, atOld, waiting, same, rfl⟩
  · have fresh := reach.history_fresh
    unfold Config.history at fresh history
    rw [quiet, fresh] at history
    simp at history
  rw [System.resume_history_self] at history
  obtain ⟨rfl, last⟩ := List.append_inj' history rfl
  obtain ⟨_, calls, _⟩ := Entry.mk.inj (List.singleton_inj.mp last)
  subst calls
  have filed : Saved (before.log ++ [⟨p, .store (.save record), .ok (), before.clock⟩]) record :=
    ⟨_, List.mem_append_right _ (List.mem_singleton_self _), rfl⟩
  obtain ⟨user, issuedAt, _, named, signed, _⟩ := reach_session reached filed typed
  have owner : record.userId = userId := by
    rw [← hashed, signed] at subject
    exact named.symm.trans (Option.some.inj subject)
  subst owner
  have wasEnrolled : before.shared.store.Enrolled record.userId := enrolled
  constructor
  · rintro ⟨code, t, _, verified, _⟩ ⟨_, _, other, _, _, ⟨⟩, atOther, _, _, _, kind⟩
    cases Option.some.inj (atOld.symm.trans atOther)
    obtain ⟨i, atEntry⟩ := List.mem_iff_getElem?.mp verified
    obtain ⟨again, atAgain, phase⟩ := reach_phase_at reached atEntry
    cases Option.some.inj (found.symm.trans atAgain)
    obtain ⟨notLink, notLogin⟩ := phase.verifying rfl
    rw [same] at kind
    rcases kind with ⟨token, link⟩ | ⟨email, password, login⟩
    · exact notLink token link
    · exact notLogin email password login
  · intro allowed
    rcases ways with ⟨t, rotated⟩ | ⟨code, t, verified⟩ | without
    · exact absurd rotated (notRotated t)
    · have logged := grows (System.mem_history.mp verified).1
      obtain ⟨secret, stored, _, right⟩ := reach_verified reached logged
      exact ⟨code, t, secret, logged, stored, right⟩
    · rw [← same] at without
      exact absurd ⟨p, choice, old, record, rest, rfl, atOld, waiting, typed, wasEnrolled, without⟩ allowed

/-- Of the runs of any kind, those show the second factor whenever they have to in which every session of a user
with a second factor is filed by a request that asks for a code. -/
theorem second_factor_shown_iff :
    SecondFactorShown server platform options permitted clock keycloak ↔
      ∀ before event after p request tokens userId,
        (authSystem server platform options).Reach permitted (.start clock (.fresh keycloak)) before →
        permitted before event → (authSystem server platform options).advance before event = some after →
        HandsOut before after p request tokens → (∀ t, request ≠ .refresh t) →
        tokens.refreshToken.subject = some userId → after.shared.store.Enrolled userId →
        ¬ FilesWithoutCode before event := by
  constructor
  · intro shown before event after p request tokens userId reach allowed step handsOut notRotated subject enrolled
    have verified := shown before event after p request tokens userId reach allowed step handsOut notRotated subject
      enrolled
    exact (code_verified_iff reach step handsOut notRotated subject enrolled).mp verified
  · intro asks before event after p request tokens userId reach allowed step handsOut notRotated subject enrolled
    have files := asks before event after p request tokens userId reach allowed step handsOut notRotated subject
      enrolled
    exact (code_verified_iff reach step handsOut notRotated subject enrolled).mpr files

end

namespace Sample

/-- Ann has set up a second factor and asked for a magic link. -/
def linked : AuthConfig Realm :=
  system.serve (system.serve loggedIn promptly (.setup2FA "ann")) promptly (.sendMagicLink "ann@mail")

/-- The link is followed, and the session is about to be filed. -/
def followed : AuthConfig Realm :=
  after linked [.arrive (.verifyMagicLink (.random ⟨2, 0⟩)), .resume 3 .good, .resume 3 .good, .resume 3 .good]

theorem followed_reach : system.Reach anyEvent start followed := by
  have linked_reach : system.Reach anyEvent start linked :=
    (loggedIn_reach.trans (System.serve_reach _ _ _)).trans (System.serve_reach _ _ _)
  exact linked_reach.trans (after_reach (by simp [anyEvent]) rfl)

theorem second_factor_not_shown : ¬ SecondFactorShown Realm.server platform options anyEvent 1000 realm := by
  intro shown
  have handsOut : HandsOut followed (after followed [.resume 3 .good]) 3 (.verifyMagicLink (.random ⟨2, 0⟩))
      ((issued options 1000 (KeycloakAuthProvider.kcUserToUser ann.representation 1000)).session) :=
    ⟨⟨_, _, rfl, rfl, rfl, rfl⟩, fun thread found => by cases found; rfl⟩
  obtain ⟨code, t, secret, verified, _⟩ := shown followed (.resume 3 .good) _ _ _ _ "ann" followed_reach
    trivial rfl handsOut (by simp) rfl rfl
  have none : (after followed [.resume 3 .good]).log.any (·.call.verifies) = false := rfl
  exact List.any_eq_false.mp none _ verified rfl

end Sample

end KeycloakAuth
