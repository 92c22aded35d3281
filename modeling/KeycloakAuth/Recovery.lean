import KeycloakAuth.Cleanup
import KeycloakAuth.LockRemoval
import KeycloakAuth.Issuance
import KeycloakAuth.StolenStore

namespace KeycloakAuth
open Async Service LoginUseCase InMemoryTokenStore

/-- Exchanges with Keycloak go through, and mails are rendered and delivered. -/
structure Plan.Works (plan : Plan) : Prop where
  http : ∀ call, plan.http call = none
  renders : ∃ mail, plan.render = .ok mail
  sends : plan.send = .ok ()

/-- Keycloak has the account `id` under that address, and lets it in with the password that it is told to set. -/
structure Hosts {κ : Type} (server : KeycloakServer κ) (email password id : String) (state changed : κ) : Prop where
  credentials : ∃ token, server.clientCredentials state = .ok token
  listed : ∃ account others, server.usersByEmail state email = .ok (account :: others) ∧ account.id = some id
  sets : server.resetPassword state id password = .ok changed
  credentials_after : ∃ token, server.clientCredentials changed = .ok token
  listed_after : ∃ account others, server.usersByEmail changed email = .ok (account :: others) ∧
    account.id = some id
  grants : server.passwordGrant changed email password = .ok ()

/-- Request `p` has looked up the user `id` and has mailed a link with a token of its own to the user's address. -/
def Delivered (p : Nat) (email id page : String) (log : List LogEntry) : Prop :=
  ∃ (user : User) (mail : RenderedEmail) (template : EmailTemplate) (looked rendered sent : Nat), user.id = id ∧
    ⟨p, .auth (.getUserByEmail email), .ok user, looked⟩ ∈ log ∧
    ⟨p, .render template ⟨page, .random ⟨p, 0⟩⟩, .ok mail, rendered⟩ ∈ log ∧
    ⟨p, .send ⟨user.email, mail.subject, mail.html, mail.text⟩, .ok (), sent⟩ ∈ log

section
variable {κ : Type} {server : KeycloakServer κ} {platform : Platform} {options : Deployment}
  {permitted : AuthConfig κ → AuthEvent κ → Prop} {clock : Nat} {keycloak : κ} {cfg : AuthConfig κ}
  {email password id : String} {state changed : κ} {plan : Plan} {now p : Nat} {world : World κ}

/-- The user as the provider sees it. -/
theorem Hosts.getUserByEmail (hosts : Hosts server email password id world.keycloak changed) (works : plan.Works) :
    ∃ user, (answerCall server platform options plan now p (.auth (.getUserByEmail email)) world).1 = .ok user ∧
      user.id = id := by
  obtain ⟨account, others, listed, named⟩ := hosts.listed
  have answered := getUserByEmail_works server platform plan now p world works.http hosts.credentials listed 0
  refine ⟨KeycloakAuthProvider.kcUserToUser account now, answered, ?_⟩
  simp [KeycloakAuthProvider.kcUserToUser, named]

theorem Hosts.completePasswordReset (hosts : Hosts server email password id state changed) (works : plan.Works)
    (same : world.keycloak = state) :
    let answered := answerAuth server platform options plan now p (.completePasswordReset id password) world
    answered.1 = .ok () ∧ answered.2.store = world.store ∧ answered.2.keycloak = changed := by
  subst same
  have serves : serveAdmin server world.keycloak (.resetPassword id password) = .ok ((), changed) := by
    simp only [serveAdmin, hosts.sets]
    rfl
  have answered := adminRequest_works server platform plan now p world works.http hosts.credentials serves 0
  obtain ⟨-, store, result⟩ := adminRequest_spec server platform plan now p world (.resetPassword id password) 0
  refine ⟨answered, store, ?_⟩
  rcases result with ⟨error, failed, -⟩ | ⟨_, -, served⟩
  · cases answered.symm.trans failed
  · exact (congrArg Prod.snd (Except.ok.inj (serves.symm.trans served))).symm

theorem Hosts.authenticate (hosts : Hosts server email password id state world.keycloak) (works : plan.Works) :
    ∃ user, (answerAuth server platform options plan now p (.authenticate email password) world).1 =
      .ok (authenticated options now user) ∧ user.id = id := by
  obtain ⟨account, others, listed, named⟩ := hosts.listed_after
  refine ⟨_, answerAuth_authenticate_works server platform options plan now p world works.http
    hosts.credentials_after hosts.grants listed, ?_⟩
  simp [KeycloakAuthProvider.kcUserToUser, named]

/-- A lock runs from the last answer that the login has got. -/
theorem Phase.locks_since {request : Request} {history : List LogEntry} {value : Str}
    (phase : Phase platform options p request history
      (.awaiting (.store (.saveUserData "system" (lockKey email) value)))) :
    ∃ entry ∈ history, value = .isoDate (entry.time + options.loginUseCase.lockoutDurationMs) := by
  have concerns : (Call.store (.saveUserData "system" (lockKey email) value)).concerns email = true := by
    simp [Call.concerns, Call.counts]
  obtain ⟨name, password, rfl, rfl⟩ := phase.login_of_concerns concerns
  generalize shown : View.awaiting (Call.store (.saveUserData "system"
    (lockKey (normalize platform name)) value)) = view at phase
  cases phase with
  | @locking before message failed entry counted saved passed reached valid =>
    simp only [View.awaiting.injEq, Call.store.injEq, StoreCall.saveUserData.injEq] at shown
    exact ⟨_, List.mem_append_right _ (List.mem_cons_of_mem _
      (List.mem_cons_of_mem _ List.mem_cons_self)), shown.2.2⟩
  | recording passed => simp at shown
  | _ => cases shown

/-- A lock that is stored ends within the lockout duration. -/
theorem reach_lock_ends
    (reach : (authSystem server platform options).Reach permitted
      (.start clock (.fresh keycloak)) cfg) {value : Str}
    (stored : lockOf cfg email = some value) :
    ∃ release, value = .isoDate release ∧ release ≤ cfg.clock + options.loginUseCase.lockoutDurationMs := by
  have logged : ∃ q answer t, (⟨q, .store (.saveUserData "system" (lockKey email) value), answer, t⟩ : LogEntry) ∈
      cfg.log := by
    refine reach.invariant (fun shared log => ∀ value, shared.store.getUserData "system"
      (lockKey email) = some value →
      ∃ q answer t, (⟨q, .store (.saveUserData "system" (lockKey email) value), answer, t⟩ : LogEntry) ∈ log)
      ?_ ?_ ?_ value stored
    · intro value stored
      cases stored
    · rintro (state | _) now shared log origin
      · exact origin
      · exact origin
    intro cfg q thread call rest choice _ found waiting _ origin value stored
    by_cases saves : ∃ written, call = .store (.saveUserData "system" (lockKey email) written)
    · obtain ⟨written, rfl⟩ := saves
      cases Option.some.inj ((getUserData_saveUserData_self ..).symm.trans stored)
      exact ⟨q, _, _, List.mem_append_right _ (List.mem_singleton_self _)⟩
    by_cases deletes : call = .store (.deleteUserData "system" (lockKey email))
    · subst deletes
      cases (getUserData_deleteUserData_self ..).symm.trans stored
    have kept : cfg.shared.store.getUserData "system" (lockKey email) = some value := by
      refine Eq.trans (answerCall_getUserData _ _ _ _ _ _ _ call
        (totpSecret_ne_lockKey email).symm ?_ ?_).symm stored
      · rintro user name written rfl
        by_contra same
        obtain ⟨rfl, rfl⟩ := not_or.mp same |>.imp not_not.mp not_not.mp
        exact saves ⟨written, rfl⟩
      · rintro user name rfl
        by_contra same
        obtain ⟨rfl, rfl⟩ := not_or.mp same |>.imp not_not.mp not_not.mp
        exact deletes rfl
    obtain ⟨q', answer, t, member⟩ := origin value kept
    exact ⟨q', answer, t, List.mem_append_left _ member⟩
  obtain ⟨q, answer, t, member⟩ := logged
  obtain ⟨i, at_entry⟩ := List.mem_iff_getElem?.mp member
  obtain ⟨thread, _, phase⟩ := reach_phase_at reach at_entry
  obtain ⟨counted, own, release⟩ := phase.locks_since
  have time := reach.time_le counted (List.mem_of_mem_take (System.mem_ownEntries.mp own).1)
  exact ⟨_, release, Nat.add_le_add_right time _⟩

/-- Asked for a reset link, the module files a token for the user and mails it. -/
theorem forgotPassword_ensures {log : List LogEntry}
    (hosts : Hosts server email password id world.keycloak changed) :
    ((Request.forgotPassword email).body platform options).Ensures (answerCall server platform options) Plan.Works p
      (fun result finish after logged =>
        result = .ok (.linkSent "Password reset email sent if the account exists." (some id)) ∧
        Delivered p email id (options.baseUrl ++ "/reset-password?token=") logged ∧
        ∃ filed, now ≤ filed ∧ filed ≤ finish ∧ after.keycloak = world.keycloak ∧ after.store = world.store.save
          (freshRecord ⟨p, 1⟩ id .resetPassword (.random ⟨p, 0⟩) (60 * 60 * 1000) filed)) now 0 world log := by
  simp only [Request.body, ForgotPasswordUseCase.execute, sendLink, authProvider, Program.bind_eq,
    Program.tryCatch_eq, Program.bind_assoc]
  intro plan filed works since
  obtain ⟨user, answered, named⟩ : ∃ user, (answerCall server platform options plan filed p
      (.auth (.getUserByEmail email)) world).1 = .ok user ∧ user.id = id := hosts.getUserByEmail works
  have store : (answerCall server platform options plan filed p (.auth (.getUserByEmail email)) world).2.store =
      world.store := answerAuth_store server platform options _ _ _ _ fun _ no => by cases no
  have keycloak : (answerCall server platform options plan filed p
    (.auth (.getUserByEmail email)) world).2.keycloak =
      world.keycloak := (getUserByEmail_spec server platform plan filed p world email 0).1
  generalize (answerCall server platform options plan filed p (.auth (.getUserByEmail email)) world).2 = looked
    at store keycloak
  rw [answered]
  simp only [Program.ofExcept_ok, Program.attempt, Program.done_bind, Program.pure_eq, randomHex, Program.bind_eq,
    Program.bind_assoc]
  refine .random ?_
  refine saveRecord_ensures server platform options fun saved after => ?_
  intro plan rendered works after'
  obtain ⟨mail, renders⟩ := works.renders
  simp only [answerCall, renders, Program.ofExcept_ok, Program.done_bind]
  intro plan sent works after''
  simp only [answerCall, works.sends, Program.ofExcept_ok, Program.done_bind]
  subst named
  refine ⟨rfl, ⟨user, mail, .forgotPassword, filed, rendered, sent, rfl, ?_, ?_, ?_⟩,
    filed, since, by omega, keycloak,
    congrArg (InMemoryTokenStore.save · _) store⟩ <;> simp

/-- Presented in time, the link sets the new password and ends all sessions of the user. -/
theorem resetPassword_ensures {log : List LogEntry} {token : Str} {record : TokenRecord} {deadline : Nat}
    (hosts : Hosts server email password id world.keycloak changed)
    (strong : Password.create password = .ok password)
    (found : world.store.findByToken token .resetPassword = some record) (unused : record.consumedAt = none)
    (own : record.userId = id) (expires : record.expiresAt = .ofMs deadline) :
    ((Request.resetPassword token password).body platform options).Ensures (answerCall server platform options)
      Plan.Works p (fun result finish after _ => finish ≤ deadline →
        result = .ok (.passwordReset "Password has been reset successfully." id) ∧ after.keycloak = changed ∧
          ∃ taken, after.store = (world.store.markConsumed record.id taken).2.deleteAllForUser id)
            now 0 world log := by
  simp only [Request.body, ResetPasswordUseCase.execute, tokenStore, authProvider,
    Program.bind_eq, Program.bind_assoc,
    strong, Program.ofExcept_ok, Program.done_bind]
  refine tokenStore_ensures server platform options fun asked _ => ?_
  simp only [answerStore, found, unused, Option.isSome_none, Bool.false_eq_true, if_false, Program.bind_assoc,
    Program.pure_eq]
  refine .now ?_
  by_cases late : record.expiresAt.before asked = true
  · simp only [late, if_true]
    intro early
    rw [expires] at late
    exact absurd (Date.lt_of_before_ofMs late) (by omega)
  simp only [late, Bool.false_eq_true, if_false, Program.bind_assoc]
  refine tokenStore_ensures server platform options fun taken _ => ?_
  have marked := markConsumed_unused taken (findByToken_spec found).1 unused
  simp only [answerStore, marked.1, Bool.not_true, Bool.false_eq_true, if_false, Program.bind_assoc]
  intro plan changing works _
  subst own
  let marks : World κ := { world with store := (world.store.markConsumed record.id taken).2 }
  have answers : let answer := (answerAuth server platform options plan changing p
        (.completePasswordReset record.userId password) marks)
      answer.1 = .ok () ∧ answer.2.store = marks.store ∧ answer.2.keycloak = changed :=
        hosts.completePasswordReset works rfl
  obtain ⟨answered, store, keycloak⟩ := answers
  simp only [answerCall]
  generalize answerAuth server platform options plan changing p (.completePasswordReset record.userId password)
    marks = reset at answered store keycloak ⊢
  rw [answered]
  simp only [Program.ofExcept_ok, Program.done_bind]
  refine tokenStore_ensures server platform options fun wiped _ _ => ⟨rfl, keycloak, taken, ?_⟩
  exact congrArg (InMemoryTokenStore.deleteAllForUser · record.userId) store

/-- How a login ends whose password Keycloak accepts: with a challenge where the user has a second factor, and
with a session otherwise. -/
def LetIn (store : InMemoryTokenStore) (id : String) (ended : LoginResult) : Prop :=
  (store.Enrolled id → ∃ preAuthToken expiresIn, ended = .twoFactorRequired preAuthToken expiresIn) ∧
    (¬ store.Enrolled id → ∃ tokens user, ended = .success tokens user ∧ user.id = id ∧
      tokens.accessToken.subject = some id ∧ tokens.refreshToken.subject = some id)

theorem issue_ensures {log : List LogEntry} {result : AuthenticateResponse} {drawn : Nat}
    {wrap : LoginResult → Response}
    (own : result.user.id = id) (signed : result = authenticated options now result.user) :
    ((options.loginUseCase.issue email result).bind fun ended => .done (wrap ended)).Ensures
      (answerCall server platform options) Plan.Works p
      (fun answer _ _ _ => ∃ ended, answer = .ok (wrap ended) ∧
        LetIn world.store id ended) now drawn world log := by
  have access : result.accessToken.subject = some id := by rw [signed, ← own]; rfl
  have refresh : result.refreshToken.subject = some id := by rw [signed, ← own]; rfl
  simp only [issue, tokenStore, Program.bind_eq, Program.bind_assoc]
  refine tokenStore_ensures server platform options fun cleared _ => ?_
  refine tokenStore_ensures server platform options fun unlocked _ => ?_
  refine tokenStore_ensures server platform options fun looked _ => ?_
  have kept : ((world.store.deleteUserData "system" (failedKey email)).deleteUserData
    "system" (lockKey email)).getUserData
      result.user.id "totpSecret" = world.store.getUserData id "totpSecret" := by
    rw [getUserData_deleteUserData_other _ (.inr (totpSecret_ne_lockKey email)),
      getUserData_deleteUserData_other _ (.inr (totpSecret_ne_failedKey email)), own]
  simp only [answerStore, kept]
  by_cases enrolled : Option.any Str.truthy (world.store.getUserData id "totpSecret") = true
  · simp only [enrolled, if_true, randomHex, Program.bind_eq, Program.bind_assoc,
      Program.pure_eq, Program.done_bind]
    refine .random ?_
    refine saveRecord_ensures server platform options fun _ _ => ⟨_, rfl, fun _ => ⟨_, _, rfl⟩, ?_⟩
    exact fun plain => absurd enrolled plain
  · simp only [enrolled, Bool.false_eq_true, if_false, Program.bind_assoc, Program.pure_eq, Program.done_bind]
    refine saveRecord_ensures server platform options fun _ _ => ⟨_, rfl, fun second => absurd second enrolled, ?_⟩
    exact fun _ => ⟨_, _, rfl, own, access, refresh⟩

/-- The rest of a login whose address is not locked. -/
theorem authenticate_ensures {log : List LogEntry} (hosts : Hosts server email password id state world.keycloak) :
    ((options.loginUseCase.authenticate email password).bind fun result =>
      (options.loginUseCase.issue email result).bind fun ended => .done (Response.login ended)).Ensures
      (answerCall server platform options) Plan.Works p
      (fun answer _ _ _ => ∃ ended, answer = .ok (.login ended) ∧ LetIn world.store id ended) now 0 world log := by
  simp only [LoginUseCase.authenticate, authProvider, Program.bind_eq, Program.tryCatch_eq]
  intro plan asked works _
  obtain ⟨user, answered, named⟩ : ∃ user, (answerCall server platform options plan asked p
      (.auth (.authenticate email password)) world).1 = .ok (authenticated options asked user) ∧ user.id = id :=
    hosts.authenticate works
  have store : (answerCall server platform options plan asked p
    (.auth (.authenticate email password)) world).2.store =
      world.store := answerAuth_store server platform options _ _ _ _ fun _ no => by cases no
  rw [answered]
  simp only [Program.ofExcept_ok, Program.attempt, Program.done_bind]
  rw [← store]
  exact issue_ensures named rfl

/-- With a password that Keycloak accepts, whoever is not locked out is let in. -/
theorem login_lets_in {log : List LogEntry} {name : String} (own : normalize platform name = email)
    (hosts : Hosts server email password id state world.keycloak)
    (lapsed : ∀ value, world.store.getUserData "system" (lockKey email) = some value →
      ∃ release, value = .isoDate release ∧ release ≤ now) :
    ((Request.login name password).body platform options).Ensures (answerCall server platform options) Plan.Works p
      (fun answer _ _ _ => ∃ ended, answer = .ok (.login ended) ∧ LetIn world.store id ended) now 0 world log := by
  subst own
  simp only [Request.body, execute, checkLock, tokenStore, Program.bind_eq, Program.bind_assoc]
  refine tokenStore_ensures server platform options fun looked since => ?_
  simp only [answerStore]
  cases present : (world.store.getUserData "system" (lockKey (normalize platform name))).filter Str.truthy with
  | none =>
    simp only [Program.pure_eq, Program.done_bind]
    exact authenticate_ensures hosts
  | some text =>
    obtain ⟨release, rfl, past⟩ := lapsed text (Option.filter_eq_some_iff.mp present).1
    have free : lockedAt (.isoDate release) looked = false := by
      simp only [lockedAt, Date.parse, Date.ofMs]
      split <;> simp
      omega
    simp only [Program.bind_assoc]
    refine .now ?_
    simp only [free, Bool.false_eq_true, if_false, Program.bind_assoc]
    refine tokenStore_ensures server platform options fun unlocked _ => ?_
    refine tokenStore_ensures server platform options fun cleared _ => ?_
    have factor : ((world.store.deleteUserData "system" (lockKey (normalize platform name))).deleteUserData "system"
        (failedKey (normalize platform name))).Enrolled id ↔ world.store.Enrolled id := by
      rw [InMemoryTokenStore.Enrolled, InMemoryTokenStore.Enrolled,
        getUserData_deleteUserData_other _ (.inr (totpSecret_ne_failedKey _)),
        getUserData_deleteUserData_other _ (.inr (totpSecret_ne_lockKey _))]
    refine Program.Ensures.mono ?_ (authenticate_ensures hosts)
    rintro answer _ _ _ ⟨ended, same, challenged, entered⟩
    exact ⟨ended, same, fun enrolled => challenged (factor.mpr enrolled),
      fun plain => entered fun enrolled => plain (factor.mp enrolled)⟩

/-- The token that the next request draws is filed under no record. -/
theorem reach_drawn_next
    (reach : (authSystem server platform options).Reach permitted (.start clock (.fresh keycloak)) cfg)
    {type : TokenType}
    {filed ttlMs : Nat} :
    let record := freshRecord ⟨cfg.threads.length, 1⟩ id type (.random ⟨cfg.threads.length, 0⟩) ttlMs filed
    (cfg.shared.store.save record).findByToken record.token type =
      some { record with token := hashToken record.token } := by
  intro record
  have fresh : ∀ old ∈ cfg.shared.store.records, old.id ≠ record.id := fun old member =>
    reach_unused_id reach member 1
  have other : ∀ old ∈ cfg.shared.store.records, old.token ≠ hashToken record.token := by
    intro old member same
    obtain ⟨original, saved, _, rfl⟩ := (reach_ledger reach).stems old member
    obtain ⟨_, _, thread, _, found, _⟩ := reach_filed_random reach saved (Str.sha256.inj same)
    exact absurd (List.getElem?_eq_some_iff.mp found).1 (Nat.lt_irrefl _)
  have none : cfg.shared.store.records.find? (fun old =>
    old.token = hashToken record.token ∧ old.type = type) = none := by
    refine List.find?_eq_none.mpr fun old member => ?_
    simp [other old member]
  rw [findByToken_eq, save_records_of_fresh fresh, List.find?_append, none]
  simp [record]

variable {schedule : Schedule Plan}

theorem serve_forgotPassword (hosts : Hosts server email password id cfg.shared.keycloak changed)
    (works : ∀ index, (schedule index).2.Works) :
    let next := (authSystem server platform options).serve cfg schedule (.forgotPassword email)
    (authSystem server platform options).result cfg schedule (.forgotPassword email) =
        .ok (.linkSent "Password reset email sent if the account exists." (some id)) ∧
      Delivered cfg.threads.length email id (options.baseUrl ++ "/reset-password?token=") next.log ∧
      ∃ filed, cfg.clock ≤ filed ∧ filed ≤ next.clock ∧ next.shared.keycloak = cfg.shared.keycloak ∧
        next.shared.store = cfg.shared.store.save (freshRecord ⟨cfg.threads.length, 1⟩ id .resetPassword
          (.random ⟨cfg.threads.length, 0⟩) (60 * 60 * 1000) filed) :=
  served server platform options (forgotPassword_ensures hosts) works

theorem serve_resetPassword {token : Str} {record : TokenRecord} {deadline : Nat}
    (hosts : Hosts server email password id cfg.shared.keycloak changed)
    (strong : Password.create password = .ok password) (found : cfg.shared.store.findByToken token .resetPassword =
      some record) (unused : record.consumedAt = none)
    (owner : record.userId = id) (expires : record.expiresAt = .ofMs deadline)
    (works : ∀ index, (schedule index).2.Works) :
    let next := (authSystem server platform options).serve cfg schedule (.resetPassword token password)
    next.clock ≤ deadline → (authSystem server platform options).result cfg schedule
      (.resetPassword token password) =
        .ok (.passwordReset "Password has been reset successfully." id) ∧ next.shared.keycloak = changed ∧
      ∃ taken, next.shared.store = (cfg.shared.store.markConsumed record.id taken).2.deleteAllForUser id :=
  served server platform options (resetPassword_ensures hosts strong found unused owner expires) works

theorem serve_login {name : String} (own : normalize platform name = email)
    (hosts : Hosts server email password id state cfg.shared.keycloak)
    (lapsed : ∀ value, lockOf cfg email = some value → ∃ release, value = .isoDate release ∧ release ≤ cfg.clock)
    (works : ∀ index, (schedule index).2.Works) :
    ∃ ended, (authSystem server platform options).result cfg schedule (.login name password) = .ok (.login ended) ∧
      LetIn cfg.shared.store id ended :=
  served server platform options (login_lets_in own hosts lapsed) works

/-- When the lockout duration has passed, no lock keeps out the user whose password Keycloak accepts. -/
theorem serve_login_after_pause {name : String} {pause : Nat}
    (reach : (authSystem server platform options).Reach permitted (.start clock (.fresh keycloak)) cfg)
    (own : normalize platform name = email) (hosts : Hosts server email password id state cfg.shared.keycloak)
    (waited : options.loginUseCase.lockoutDurationMs ≤ pause) (works : ∀ index, (schedule index).2.Works) :
    ∃ ended, (authSystem server platform options).result (later cfg pause) schedule (.login name password) =
      .ok (.login ended) ∧ LetIn cfg.shared.store id ended := by
  have lapsed : ∀ value, lockOf (later cfg pause) email = some value →
      ∃ release, value = .isoDate release ∧ release ≤ (later cfg pause).clock := by
    intro value locked
    obtain ⟨release, same, ends⟩ := reach_lock_ends reach locked
    exact ⟨release, same, Nat.le_trans ends (Nat.add_le_add_left waited _)⟩
  have hosts' : Hosts server email password id state (later cfg pause).shared.keycloak := hosts
  exact serve_login own hosts' lapsed works

/-- Whatever has happened in the module, and whatever requests are left unfinished: once Keycloak and the mailer
work, the user who can read the mail sent to the address gets a new password with it within the hour, all old
sessions are gone, and when the lockout duration has passed the password gets the user in. The three requests
are served one after the other. -/
theorem account_recoverable {name : String} {asking resetting entering : Schedule Plan} {wait pause : Nat}
    (reach : (authSystem server platform options).Reach permitted (.start clock (.fresh keycloak)) cfg)
    (hosts : Hosts server email password id cfg.shared.keycloak changed)
    (strong : Password.create password = .ok password) (own : normalize platform name = email)
    (works : ∀ index, (asking index).2.Works ∧ (resetting index).2.Works ∧ (entering index).2.Works) :
    let system := authSystem server platform options
    let link := Str.random ⟨cfg.threads.length, 0⟩
    let asked := system.serve cfg asking (.forgotPassword email)
    let reset := system.serve (later asked wait) resetting (.resetPassword link password)
    reset.clock ≤ cfg.clock + 60 * 60 * 1000 → options.loginUseCase.lockoutDurationMs ≤ pause →
    system.result cfg asking (.forgotPassword email) =
        .ok (.linkSent "Password reset email sent if the account exists." (some id)) ∧
      Delivered cfg.threads.length email id (options.baseUrl ++ "/reset-password?token=") asked.log ∧
      system.result (later asked wait) resetting (.resetPassword link password) =
        .ok (.passwordReset "Password has been reset successfully." id) ∧
      (∀ record ∈ reset.shared.store.records, record.userId ≠ id) ∧
      ∃ ended, system.result (later reset pause) entering (.login name password) = .ok (.login ended) ∧
        LetIn reset.shared.store id ended := by
  intro system link asked reset inTime waited
  obtain ⟨sent, delivered, filed, since, -, sameKeycloak, store⟩ :=
    @serve_forgotPassword κ server platform options cfg email password id changed asking hosts
      fun index => (works index).1
  have found : (cfg.shared.store.save (freshRecord ⟨cfg.threads.length, 1⟩ id .resetPassword link (60 * 60 * 1000)
      filed)).findByToken link .resetPassword = some { freshRecord ⟨cfg.threads.length, 1⟩ id .resetPassword link
        (60 * 60 * 1000) filed with token := hashToken link } := reach_drawn_next reach
  rw [← store] at found
  have hosts' : Hosts server email password id (later asked wait).shared.keycloak changed := by
    rw [show (later asked wait).shared.keycloak = cfg.shared.keycloak from sameKeycloak]
    exact hosts
  have bound : reset.clock ≤ filed + 60 * 60 * 1000 := by omega
  obtain ⟨set, changedKeycloak, taken, wiped⟩ :=
    serve_resetPassword hosts' strong found rfl rfl rfl (fun index => (works index).2.1) bound
  have reached : system.Reach anyEvent (.start clock (.fresh keycloak)) reset := by
    have waiting : system.Reach anyEvent asked (later asked wait) :=
      .next .start trivial (show system.advance asked (.tick wait) = some (later asked wait) from rfl)
    exact reach.any.trans ((System.serve_reach ..).trans (waiting.trans (System.serve_reach ..)))
  refine ⟨sent, delivered, set, fun record member => ?_, ?_⟩
  · rw [show reset.shared.store = _ from wiped, deleteAllForUser_records] at member
    simpa using (List.mem_filter.mp member).2
  · rw [← changedKeycloak] at hosts
    exact serve_login_after_pause reached own hosts waited fun index => (works index).2.2

end

namespace Sample

/-- Somebody has got in with Ann's password, and five wrong passwords have locked her out. -/
def lockedOutOf : AuthConfig Realm := after loggedIn (lockingGuesses 1 4)

theorem lockedOutOf_reach : system.Reach anyEvent start lockedOutOf :=
  loggedIn_reach.trans (after_reach (fun _ _ _ => trivial) (by decide +kernel))

/-- The realm with another password for Ann. -/
def renewed : Realm := { realm with accounts := [{ ann with password := "New Password 1!" }] }

theorem realm_hosts_ann : Hosts Realm.server "ann@mail" "New Password 1!" "ann" realm renewed where
  credentials := ⟨_, rfl⟩
  listed := ⟨_, _, rfl, rfl⟩
  sets := by decide
  credentials_after := ⟨_, rfl⟩
  listed_after := ⟨_, _, rfl, rfl⟩
  grants := by decide

theorem good_works : Plan.good.Works := ⟨fun _ => rfl, ⟨_, rfl⟩, rfl⟩

/-- She has had a link sent to her address, and has set another password with it. -/
def passwordRenewed : AuthConfig Realm :=
  system.serve (later (system.serve lockedOutOf promptly (.forgotPassword "ann@mail")) 0) promptly
    (.resetPassword (.random ⟨lockedOutOf.threads.length, 0⟩) "New Password 1!")

/-- A quarter of an hour later that password gets her in. -/
theorem account_recoverable_lockedOutOf :
    system.result lockedOutOf promptly (.login "ann@mail" "ann password") =
        .error (.domain .accountLocked "Account is temporarily locked due to too many failed attempts") ∧
      (∀ record ∈ passwordRenewed.shared.store.records, record.userId ≠ "ann") ∧
      ∃ tokens user, system.result (later passwordRenewed 900000) promptly (.login "ann@mail" "New Password 1!") =
        .ok (.login (.success tokens user)) ∧ user.id = "ann" := by
  refine ⟨by decide +kernel, ?_⟩
  have hosts : Hosts Realm.server "ann@mail" "New Password 1!" "ann" lockedOutOf.shared.keycloak renewed := by
    rw [show lockedOutOf.shared.keycloak = realm by decide +kernel]
    exact realm_hosts_ann
  have works : ∀ index, (promptly index).2.Works ∧ (promptly index).2.Works ∧ (promptly index).2.Works :=
    fun _ => ⟨good_works, good_works, good_works⟩
  have own : normalize platform "ann@mail" = "ann@mail" := by decide
  have inTime : passwordRenewed.clock ≤ lockedOutOf.clock + 60 * 60 * 1000 := by decide +kernel
  obtain ⟨-, -, -, wiped, ended, entered, -, session⟩ :=
    account_recoverable lockedOutOf_reach hosts (by decide) own works inTime (Nat.le_refl 900000)
  have single : (passwordRenewed.shared.store.getUserData "ann" "totpSecret").any Str.truthy = false := by
    decide +kernel
  obtain ⟨tokens, user, rfl, same, -⟩ := session (Bool.eq_false_iff.mp single)
  exact ⟨wiped, tokens, user, entered, same⟩

end Sample

end KeycloakAuth
