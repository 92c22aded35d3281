import KeycloakAuth.Sessions
import KeycloakAuth.Realm

namespace KeycloakAuth
open Async Service InMemoryTokenStore

section
variable {κ α : Type} (server : KeycloakServer κ) (platform : Platform) (options : Deployment)
  {allowed : Plan → Prop} {p now drawn : Nat} {Q : Except Thrown α → Nat → World κ → List LogEntry → Prop}
  {world : World κ} {log : List LogEntry}

/-- The store never rejects a call. -/
theorem tokenStore_ensures {call : StoreCall} {next : call.Ans → Service α}
    (answered : ∀ later, now ≤ later → (next (answerStore later call world.store).1).Ensures
      (answerCall server platform options) allowed p Q later drawn
      { world with store := (answerStore later call world.store).2 }
      (log ++ [⟨p, .store call, .ok (answerStore later call world.store).1, later⟩])) :
    ((Program.perform (Call.store call)).bind next).Ensures
      (answerCall server platform options) allowed p Q now drawn world log :=
  fun _ later _ after => answered later after

/-- A request that is served alone ends as its program ensures. -/
theorem served {cfg : AuthConfig κ} {schedule : Schedule Plan} {request : Request}
    {Q : Except Thrown Response → Nat → World κ → List LogEntry → Prop}
    (ensures : (request.body platform options).Ensures (answerCall server platform options) allowed
      cfg.threads.length Q cfg.clock 0 cfg.shared cfg.log) (choices : ∀ index, allowed (schedule index).2) :
    let next := (authSystem server platform options).serve cfg schedule request
    Q ((authSystem server platform options).result cfg schedule request) next.clock next.shared next.log :=
  System.serve_ensures (S := authSystem server platform options) ensures choices

theorem saveRecord_ensures {userId : String} {type : TokenType} {token : Str}
    {ttlMs : Nat} {next : Unit → Service α}
    (answered : ∀ later, now ≤ later → (next ()).Ensures (answerCall server platform options) allowed p Q later
      (drawn + 1) { world with store := world.store.save (freshRecord ⟨p, drawn⟩ userId type token ttlMs now) }
      (log ++ [⟨p, .store (.save (freshRecord ⟨p, drawn⟩ userId type token ttlMs now)), .ok (), later⟩])) :
    ((saveRecord userId type token ttlMs).bind next).Ensures (answerCall server platform options) allowed p Q now
      drawn world log :=
  fun _ later _ after => answered later after

end

section
variable {κ : Type} (server : KeycloakServer κ) (platform : Platform) (options : Deployment) (allowed : Plan → Prop)
  (p : Nat) (t : Str)

/-- What becomes of a refresh with `t` that is served alone as request `p`, from its arrival in the world
`before` on. -/
inductive RefreshRun (arrived : Nat) (before : World κ) : Except Thrown Response → Nat → InMemoryTokenStore → Prop
  | unknown {now} (absent : before.store.findByToken t .refreshToken = none) :
      RefreshRun arrived before (.error (.domain .tokenInvalid "Refresh token not recognized")) now before.store
  | reused {record now} (found : before.store.findByToken t .refreshToken = some record)
      (used : record.consumedAt.isSome = true) :
      RefreshRun arrived before (.error RefreshTokenUseCase.reuseDetected) now
        (before.store.deleteAllForUser record.userId)
  | expired {record looked now} (found : before.store.findByToken t .refreshToken = some record)
      (unused : record.consumedAt = none) (past : record.expiresAt.before looked = true) (order : looked ≤ now) :
      RefreshRun arrived before (.error (.domain .tokenExpired "Refresh token has expired")) now before.store
  | failed {record error now marked asked plan world}
      (found : before.store.findByToken t .refreshToken = some record) (unused : record.consumedAt = none)
      (fine : allowed plan) (same : world.keycloak = before.keycloak) (order : asked ≤ now)
      (refused : (answerAuth server platform options plan asked p (.refreshToken t) world).1 = .error error) :
      RefreshRun arrived before (.error error) now (before.store.markConsumed record.id marked).2
  | rotated {record tokens now marked asked plan world}
      (found : before.store.findByToken t .refreshToken = some record) (unused : record.consumedAt = none)
      (same : world.keycloak = before.keycloak) (since : arrived ≤ asked) (order : asked ≤ now)
      (answered : (answerAuth server platform options plan asked p (.refreshToken t) world).1 = .ok tokens) :
      RefreshRun arrived before (.ok (.refresh ⟨tokens.accessToken, tokens.refreshToken, tokens.expiresIn⟩)) now
        ((before.store.markConsumed record.id marked).2.save (freshRecord ⟨p, 0⟩ record.userId .refreshToken
          tokens.refreshToken options.refreshTokenTtlMs asked))

variable {server platform options allowed p t}

theorem answerAuth_refreshToken_keycloak (plan : Plan) (now request : Nat) (token : Str) (world : World κ) :
    (answerAuth server platform options plan now request (.refreshToken token) world).2.keycloak =
      world.keycloak := by
  rw [answerAuth_refreshToken]
  split
  · rfl
  · rw [answerAuth_issueTokens]
    exact (answerAuth_getUserById server platform options plan now request world _).2.1

/-- The provider was asked for the next session and failed, after the presented token had been consumed. -/
def RefreshFailed (t : Str) (before : World κ) (result : Except Thrown Response)
    (after : InMemoryTokenStore) : Prop :=
  ∃ record marked error, before.store.findByToken t .refreshToken = some record ∧ record.consumedAt = none ∧
    result = .error error ∧ after = (before.store.markConsumed record.id marked).2

theorem refresh_ensures {now : Nat} {world : World κ} {log : List LogEntry} :
    ((Request.refresh t).body platform options).Ensures (answerCall server platform options) allowed p
      (fun result clock shared log' =>
        RefreshRun server platform options allowed p t now world result clock shared.store ∧
        shared.keycloak = world.keycloak ∧ ∀ error asked, ⟨p, .auth (.refreshToken t), .error error, asked⟩ ∈ log' →
          ⟨p, .auth (.refreshToken t), .error error, asked⟩ ∈ log ∨ RefreshFailed t world result shared.store)
      now 0 world log := by
  simp only [Request.body, RefreshTokenUseCase.execute, tokenStore, authProvider,
    Program.bind_eq, Program.bind_assoc]
  refine tokenStore_ensures server platform options fun looked arrived => ?_
  simp only [answerStore]
  cases found : world.store.findByToken t .refreshToken with
  | none => exact ⟨.unknown found, rfl, fun _ _ member => .inl (by simpa using member)⟩
  | some record =>
  by_cases used : record.consumedAt.isSome = true
  · simp only [used, if_true, Program.bind_assoc]
    exact tokenStore_ensures server platform options fun wiped _ =>
      ⟨.reused found used, rfl, fun _ _ member => .inl (by simpa using member)⟩
  have unused : record.consumedAt = none := by simpa using used
  simp only [used, Bool.false_eq_true, if_false, Program.bind_assoc]
  refine .now ?_
  by_cases past : record.expiresAt.before looked = true
  · simp only [past, if_true]
    exact ⟨.expired found unused past (Nat.le_refl _), rfl, fun _ _ member => .inl (by simpa using member)⟩
  simp only [past, Bool.false_eq_true, if_false, Program.bind_assoc]
  refine tokenStore_ensures server platform options fun marked passed => ?_
  have taken := markConsumed_unused marked (findByToken_spec found).1 unused
  simp only [answerStore, taken.1, Bool.not_true, Bool.false_eq_true, if_false, Program.bind_assoc]
  have kept (plan : Plan) (asked : Nat) (taken : World κ) :
      (answerAuth server platform options plan asked p (.refreshToken t) taken).2.store = taken.store :=
    answerAuth_store _ _ _ _ _ _ _ fun _ no => by cases no
  refine .perform ?_ ?_
  · intro plan asked tokens fine since answered
    refine saveRecord_ensures server platform options fun saved after => ⟨?_, ?_, ?_⟩
    · change RefreshRun server platform options allowed p t now world _ saved (InMemoryTokenStore.save
        (answerAuth server platform options plan asked p (.refreshToken t) _).2.store _)
      rw [kept]
      refine .rotated found unused ?_ (by omega) after answered
      rfl
    · exact answerAuth_refreshToken_keycloak ..
    · exact fun _ _ member => .inl (by simpa using member)
  · intro plan asked error fine _ refused
    refine ⟨?_, answerAuth_refreshToken_keycloak .., ?_⟩
    · change RefreshRun server platform options allowed p t now world _ asked
        (answerAuth server platform options plan asked p (.refreshToken t) _).2.store
      rw [kept]
      refine .failed found unused fine ?_ (Nat.le_refl _) refused
      rfl
    · exact fun _ _ _ => .inr ⟨record, marked, error, found, unused, rfl, kept ..⟩

variable (server platform options allowed t) in
theorem serve_refresh (cfg : AuthConfig κ) (schedule : Schedule Plan)
    (choices : ∀ index, allowed (schedule index).2) :
    let next := (authSystem server platform options).serve cfg schedule (.refresh t)
    let result := (authSystem server platform options).result cfg schedule (.refresh t)
    RefreshRun server platform options allowed cfg.threads.length t cfg.clock cfg.shared result next.clock
      next.shared.store ∧
    next.shared.keycloak = cfg.shared.keycloak ∧
    ∀ error asked, ⟨cfg.threads.length, .auth (.refreshToken t), .error error, asked⟩ ∈ next.log →
      ⟨cfg.threads.length, .auth (.refreshToken t), .error error, asked⟩ ∈ cfg.log ∨
        RefreshFailed t cfg.shared result next.shared.store :=
  served server platform options refresh_ensures choices

/-- What a logout does to the store that is served alone. -/
inductive LogoutRun (token : Str) (before : InMemoryTokenStore) : InMemoryTokenStore → Prop
  | kept (spent : ∀ record, before.findByToken token .refreshToken = some record →
      record.consumedAt.isSome = true) :
      LogoutRun token before before
  | taken {record : TokenRecord} (marked : Nat) (found : before.findByToken token .refreshToken = some record)
      (unused : record.consumedAt = none) : LogoutRun token before (before.markConsumed record.id marked).2

variable (platform options) in
/-- The provider's part of a logout never fails. -/
theorem answerAuth_logout (plan : Plan) (now request : Nat) (token : Str) (world : World κ) :
    (answerAuth server platform options plan now request (.logout token) world).1 = .ok () := by
  simp only [answerAuth, evalMethod, KeycloakAuthProvider.logout, KeycloakAuthProvider.http,
    KeycloakAuthProvider.perform, Program.tryCatch_eq, Program.eval_attempt, Program.eval_perform]
  cases (answerProvider server plan (.http (.logout token)) world).1 <;> rfl

theorem logout_ensures {token : Str} {now : Nat} {world : World κ} {log : List LogEntry} :
    ((Request.logout token).body platform options).Ensures (answerCall server platform options) allowed p
      (fun result _ shared _ => result = .ok .loggedOut ∧ LogoutRun token world.store shared.store) now 0 world
      log := by
  have leaving {later : Nat} {taken : World κ} {log : List LogEntry}
    (run : LogoutRun token world.store taken.store) :
      ((Program.perform (Call.auth (.logout token))).bind fun _ => Program.done Response.loggedOut).Ensures
        (answerCall server platform options) allowed p
        (fun result _ shared _ => result = .ok .loggedOut ∧ LogoutRun token world.store shared.store) later 0 taken
        log := by
    refine .perform (fun plan asked _ _ _ _ => ⟨rfl, ?_⟩) fun plan asked _ _ _ failed => ?_
    · change LogoutRun token world.store
        (answerAuth server platform options plan asked p (.logout token) taken).2.store
      rw [answerAuth_store _ _ _ _ _ _ _ fun _ no => by cases no]
      exact run
    · have ends : (answerCall server platform options plan asked p (.auth (.logout token)) taken).1 = .ok () :=
        answerAuth_logout platform options plan asked p token taken
      cases ends.symm.trans failed
  simp only [Request.body, LogoutUseCase.execute, tokenStore, authProvider, Program.bind_eq, Program.bind_assoc]
  refine tokenStore_ensures server platform options fun looked _ => ?_
  simp only [answerStore]
  cases found : world.store.findByToken token .refreshToken with
  | none => exact leaving (.kept fun record no => by cases found.symm.trans no)
  | some record =>
  cases unused : record.consumedAt with
  | none =>
    simp only [unused, Option.isNone_none, if_true, Program.bind_assoc]
    exact tokenStore_ensures server platform options fun marked _ => leaving (.taken marked found unused)
  | some date =>
    simp only [unused, Option.isNone_some, Bool.false_eq_true, if_false]
    refine leaving (.kept fun other same => ?_)
    cases found.symm.trans same
    simp [unused]

variable (server platform options) in
theorem serve_logout (cfg : AuthConfig κ) (schedule : Schedule Plan) (token : Str) :
    (authSystem server platform options).result cfg schedule (.logout token) = .ok .loggedOut ∧
      LogoutRun token cfg.shared.store
        ((authSystem server platform options).serve cfg schedule (.logout token)).shared.store :=
  by
  have ensured {p : Nat} := @logout_ensures κ server platform options (fun _ => True) p token
  exact served server platform options ensured fun _ => trivial

end

end KeycloakAuth
