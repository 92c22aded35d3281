import Mathlib.Data.List.Find
import KeycloakAuth.Confinement
import KeycloakAuth.LoginHistories

namespace KeycloakAuth
open Async InMemoryTokenStore KeycloakAuthProvider LoginUseCase

/-- The user behind an address, as Keycloak lists the accounts. -/
def KeycloakServer.owner {κ : Type} (server : KeycloakServer κ) (keycloak : κ) (email : String) : Option String :=
  match server.usersByEmail keycloak email with
  | .ok (found :: _) => found.id
  | _ => none

/-- Accounts as documented: the directory is fixed, a password is checked against the account of the address, and
nothing that is done with one account touches another. -/
structure Accounts {κ α : Type} (server : KeycloakServer κ) (account : κ → String → α) : Prop where
  users : ∀ state other email, server.usersByEmail other email = server.usersByEmail state email
  byId : ∀ state other id, server.userById other id = server.userById state id
  grants : ∀ state other email password id, server.owner state email = some id →
    account other id = account state id →
    server.passwordGrant other email password = server.passwordGrant state email password
  resets : ∀ state other id value, account other id = account state id →
    (server.resetPassword other id value).map (account · id) =
      (server.resetPassword state id value).map (account · id)
  spares : ∀ state next id value user, server.resetPassword state id value = .ok next → user ≠ id →
    account next user = account state user
  stays : ∀ state next token user, server.logout state token = .ok next → account next user = account state user

/-- Keycloak grants the module an admin token whenever it asks, and treats all that it grants alike. -/
structure Steady {κ : Type} (server : KeycloakServer κ) (plan : Plan) : Prop where
  credentials : ∀ state, ∃ token, server.clientCredentials state = .ok token
  granted : plan.http .clientCredentials = none
  alike : ∀ token other request, plan.http (.admin token request) = plan.http (.admin other request)

/-- The records filed for a user. -/
def InMemoryTokenStore.recordsOf (store : InMemoryTokenStore) (userId : String) : List TokenRecord :=
  store.records.filter (·.userId = userId)

namespace InMemoryTokenStore
variable {store other : InMemoryTokenStore} {v : String}

theorem mem_recordsOf {record : TokenRecord} :
    record ∈ store.recordsOf v ↔ record ∈ store.records ∧ record.userId = v := by
  rw [recordsOf, List.mem_filter, decide_eq_true_eq]

theorem recordsOf_save {record : TokenRecord} (fresh : ∀ old ∈ store.records, old.id ≠ record.id) :
    (store.save record).recordsOf v =
      store.recordsOf v ++ if record.userId = v then [{ record with token := hashToken record.token }] else [] := by
  rw [recordsOf, save_records_of_fresh fresh, List.filter_append, recordsOf]
  congr 1
  by_cases own : record.userId = v <;> simp [own]

theorem recordsOf_deleteRecords (doomed : TokenRecord → Bool) :
    (store.deleteRecords doomed).recordsOf v = (store.recordsOf v).filter fun record => !doomed record :=
  filter_deleteRecords ..

theorem recordsOf_consume {after : InMemoryTokenStore} {id : Str} {now : Nat}
    (marked : after.records = store.records.map (consume id now)) :
    after.recordsOf v = (store.recordsOf v).map (consume id now) := by
  rw [recordsOf, recordsOf, marked]
  exact filter_consume (fun record => by rw [consume_userId]) _

/-- A user notices nothing when a record is taken that is not filed for it. -/
theorem recordsOf_markConsumed_other {id : Str} (now : Nat)
    (others : ∀ record ∈ store.recordsOf v, record.id ≠ id) :
    (store.markConsumed id now).2.recordsOf v = store.recordsOf v := by
  rcases markConsumed_cases store id now with ⟨_, _, _, _, _, marked⟩ | ⟨_, same⟩
  · rw [recordsOf_consume marked]
    refine (List.map_congr_left fun record member => ?_).trans (List.map_id _)
    rw [consume_other now (others record member), id_eq]
  · rw [same]

/-- What becomes of a record filed for a user depends on the records of that user. -/
theorem markConsumed_recordsOf {id : Str} (now : Nat) (same : other.recordsOf v = store.recordsOf v)
    (own : ∀ record ∈ store.records, record.id = id → record.userId = v)
    (own' : ∀ record ∈ other.records, record.id = id → record.userId = v) :
    (other.markConsumed id now).1 = (store.markConsumed id now).1 ∧
      (other.markConsumed id now).2.recordsOf v = (store.markConsumed id now).2.recordsOf v := by
  rcases markConsumed_cases store id now with ⟨record, member, named, unused, taken, marked⟩ | ⟨used, failed⟩
  · rcases markConsumed_cases other id now with ⟨_, _, _, _, taken', marked'⟩ | ⟨used', _⟩
    · exact ⟨taken'.trans taken.symm, by rw [recordsOf_consume marked, recordsOf_consume marked', same]⟩
    · have mine : record ∈ other.recordsOf v := same ▸ mem_recordsOf.mpr ⟨member, own record member named⟩
      have marked := used' record (mem_recordsOf.mp mine).1 named
      simp [unused] at marked
  · rcases markConsumed_cases other id now with ⟨record, member, named, unused, _⟩ | ⟨_, failed'⟩
    · have mine : record ∈ store.recordsOf v := same ▸ mem_recordsOf.mpr ⟨member, own' record member named⟩
      have marked := used record (mem_recordsOf.mp mine).1 named
      simp [unused] at marked
    · rw [failed, failed']
      exact ⟨rfl, same⟩

/-- A token of a user is looked up among the records of that user. -/
theorem findByToken_recordsOf {token : Str} {type : TokenType}
    (own : ∀ record ∈ store.records, record.token = hashToken token → record.userId = v) :
    store.findByToken token type =
      (store.recordsOf v).find? fun record => record.token = hashToken token ∧ record.type = type := by
  rw [findByToken_eq, recordsOf, List.find?_filter]
  refine List.find?_congr fun record member => ?_
  by_cases hashed : record.token = hashToken token
  · simp [hashed, own record member hashed]
  · simp [hashed]

end InMemoryTokenStore

section
variable {κ α : Type}

/-- Two worlds that look the same to a user, with its account in the same state. -/
structure Alike (roster : Roster) (account : κ → String → α) (v : String) (world other : World κ) : Prop where
  records : other.store.recordsOf v = world.store.recordsOf v
  secret : other.store.getUserData v "totpSecret" = world.store.getUserData v "totpSecret"
  counters : ∀ userId key, roster.CounterOf (some v) userId key →
    other.store.getUserData userId key = world.store.getUserData userId key
  account : account other.keycloak v = account world.keycloak v

variable {roster : Roster} {account : κ → String → α} {v : String} {world other : World κ}

theorem Roster.CounterOf.ne_secret {subject : Option String} {userId key : String}
    (counter : roster.CounterOf subject userId key) : key ≠ "totpSecret" := by
  obtain ⟨-, email, -, rfl | rfl⟩ := counter
  · exact (totpSecret_ne_failedKey email).symm
  · exact (totpSecret_ne_lockKey email).symm

/-- Counters of different users are kept under different keys. -/
theorem Roster.CounterOf.key_ne {subject owner : Option String} {userId other key name : String}
    (counter : roster.CounterOf subject userId key) (another : roster.CounterOf owner other name)
    (different : subject ≠ owner) : key ≠ name := by
  obtain ⟨-, email, rfl, rfl | rfl⟩ := counter
  all_goals
    obtain ⟨-, address, rfl, rfl | rfl⟩ := another
    all_goals
      intro same
      simp only [failedKey_eq_iff, lockKey_eq_iff, failedKey_ne_lockKey, lockKey_ne_failedKey] at same
      try exact different (congrArg roster.owner same)

namespace Alike

theorem refl (world : World κ) : Alike roster account v world world := ⟨rfl, rfl, fun _ _ _ => rfl, rfl⟩

theorem symm (alike : Alike roster account v world other) : Alike roster account v other world :=
  ⟨alike.records.symm, alike.secret.symm, fun userId key counter => (alike.counters userId key counter).symm,
    alike.account.symm⟩

theorem trans {third : World κ} (first : Alike roster account v world other)
    (second : Alike roster account v other third) : Alike roster account v world third :=
  ⟨second.records.trans first.records, second.secret.trans first.secret,
    fun userId key counter => (second.counters userId key counter).trans (first.counters userId key counter),
    second.account.trans first.account⟩

/-- What leaves the store and the accounts alone is not noticed. -/
theorem of_same {after : World κ} (store : after.store = world.store)
    (same : account after.keycloak v = account world.keycloak v) : Alike roster account v world after :=
  ⟨by rw [store], by rw [store], fun _ _ _ => by rw [store], same⟩

theorem saveUserData (alike : Alike roster account v world other) (userId key : String) (value : Str) :
    Alike roster account v { world with store := world.store.saveUserData userId key value }
      { other with store := other.store.saveUserData userId key value } := by
  have kept (owner name : String) (same : other.store.getUserData owner name = world.store.getUserData owner name) :
      (other.store.saveUserData userId key value).getUserData owner name =
        (world.store.saveUserData userId key value).getUserData owner name := by
    by_cases own : owner = userId ∧ name = key
    · obtain ⟨rfl, rfl⟩ := own
      rw [getUserData_saveUserData_self, getUserData_saveUserData_self]
    · have different : owner ≠ userId ∨ name ≠ key := by tauto
      rw [getUserData_saveUserData_other _ _ different, getUserData_saveUserData_other _ _ different, same]
  exact ⟨alike.records, kept _ _ alike.secret, fun owner name counter =>
    kept _ _ (alike.counters owner name counter),
    alike.account⟩

theorem deleteUserData (alike : Alike roster account v world other) (userId key : String) :
    Alike roster account v { world with store := world.store.deleteUserData userId key }
      { other with store := other.store.deleteUserData userId key } := by
  have kept (owner name : String) (same : other.store.getUserData owner name = world.store.getUserData owner name) :
      (other.store.deleteUserData userId key).getUserData owner name =
        (world.store.deleteUserData userId key).getUserData owner name := by
    by_cases own : owner = userId ∧ name = key
    · obtain ⟨rfl, rfl⟩ := own
      rw [getUserData_deleteUserData_self, getUserData_deleteUserData_self]
    · have different : owner ≠ userId ∨ name ≠ key := by tauto
      rw [getUserData_deleteUserData_other _ different, getUserData_deleteUserData_other _ different, same]
  refine ⟨?_, kept _ _ alike.secret, fun owner name counter => kept _ _ (alike.counters owner name counter),
    alike.account⟩
  simp only [recordsOf, deleteUserData_records]
  exact alike.records

/-- An entry of the user data is not missed by those whom it is not about. -/
theorem of_entry {after : World κ} (userId key : String) (records : after.store.records = world.store.records)
    (kept : ∀ owner name, owner ≠ userId ∨ name ≠ key →
      after.store.getUserData owner name = world.store.getUserData owner name)
    (secret : v ≠ userId ∨ key ≠ "totpSecret")
    (counters : ∀ owner name, roster.CounterOf (some v) owner name → owner ≠ userId ∨ name ≠ key)
    (same : account after.keycloak v = account world.keycloak v) : Alike roster account v world after := by
  refine ⟨by simp only [recordsOf, records], kept _ _ (secret.imp id Ne.symm), ?_, same⟩
  exact fun owner name counter => kept owner name (counters owner name counter)

theorem same_stores {after after' : World κ} (alike : Alike roster account v world other)
    (store : after.store = world.store) (store' : after'.store = other.store)
    (same : account after'.keycloak v = account after.keycloak v) : Alike roster account v after after' := by
  refine ⟨?_, ?_, fun userId key counter => ?_, same⟩
  · rw [store, store', alike.records]
  · rw [store, store', alike.secret]
  · rw [store, store', alike.counters userId key counter]

end Alike

variable {server : KeycloakServer κ} {platform : Platform} {options : Deployment} {plan : Plan} {now request : Nat}

/-- An admin request goes alike where Keycloak serves it alike, whichever token it is made with. -/
theorem adminRequest_agrees (steady : Steady server plan) {admin : AdminRequest}
    (serves : ∀ state other, account other v = account state v →
      (serveAdmin server other admin).map (fun served => (served.1, account served.2 v)) =
        (serveAdmin server state admin).map fun served => (served.1, account served.2 v)) :
    (adminRequest platform admin).Agrees (answerProvider server plan) now request (Alike roster account v) := by
  intro drawn world other alike
  have served := serves world.keycloak other.keycloak alike.account
  have answers (token token' : String) : adminAnswer server platform plan token' other.keycloak admin =
      adminAnswer server platform plan token world.keycloak admin := by
    simp only [adminAnswer, steady.alike token' token]
    cases plan.http (.admin token admin) with
    | some response => cases response <;> rfl
    | none =>
      cases first : serveAdmin server world.keycloak admin with
      | error response =>
        cases second : serveAdmin server other.keycloak admin with
        | error _ =>
          simp only [first, second, Except.map, Except.error.injEq] at served
          simp only [served]
        | ok _ => simp [first, second, Except.map] at served
      | ok answered =>
        cases second : serveAdmin server other.keycloak admin with
        | error _ => simp [first, second, Except.map] at served
        | ok _ =>
          simp only [first, second, Except.map, Except.ok.injEq, Prod.mk.injEq] at served
          simp only [served.1]
  obtain ⟨token, granted⟩ :=
    getAdminToken_works server plan now request world steady.granted (steady.credentials _) drawn
  obtain ⟨token', granted'⟩ :=
    getAdminToken_works server plan now request other steady.granted (steady.credentials _) drawn
  have result : ((adminRequest platform admin).eval (answerProvider server plan) now request drawn other).result =
      ((adminRequest platform admin).eval (answerProvider server plan) now request drawn world).result := by
    rw [adminRequest_result, adminRequest_result, granted, granted']
    exact answers token token'
  obtain ⟨counted, store, ended⟩ := adminRequest_spec server platform plan now request world admin drawn
  obtain ⟨counted', store', ended'⟩ := adminRequest_spec server platform plan now request other admin drawn
  refine ⟨result, counted'.trans counted.symm, alike.same_stores store store' ?_⟩
  rcases ended with ⟨error, failed, same⟩ | ⟨answer, ok, serving⟩
  · rcases ended' with ⟨_, _, same'⟩ | ⟨_, ok', _⟩
    · rw [same, same', alike.account]
    · cases (result.trans failed).symm.trans ok'
  · rcases ended' with ⟨_, failed', _⟩ | ⟨_, _, serving'⟩
    · cases (result.trans ok).symm.trans failed'
    · rw [serving, serving'] at served
      exact congrArg Prod.snd (Except.ok.inj served)

section
variable (accounts : Accounts server account) (steady : Steady server plan)
include accounts steady

theorem getUserById_agrees (id : String) :
    (getUserById platform id).Agrees (answerProvider server plan) now request (Alike roster account v) := by
  refine .bind (adminRequest_agrees steady fun state other same => ?_) fun found => .now (.done _)
  simp only [serveAdmin, accounts.byId state other id]
  cases server.userById state id with
  | error response => rfl
  | ok found => simp only [Except.map, same]

theorem getUserByEmail_agrees (email : String) :
    (getUserByEmail platform email).Agrees (answerProvider server plan) now request (Alike roster account v) := by
  refine .bind (adminRequest_agrees steady fun state other same => ?_) fun users => ?_
  · simp only [serveAdmin, accounts.users state other email]
    cases server.usersByEmail state email with
    | error response => rfl
    | ok users => simp only [Except.map, same]
  · cases users with
    | nil => exact .fail _
    | cons found others => exact .now (.done _)

theorem completePasswordReset_agrees (newPassword : String) :
    (completePasswordReset platform v newPassword).Agrees (answerProvider server plan) now request
      (Alike roster account v) := by
  refine adminRequest_agrees steady fun state other same => ?_
  have resets := accounts.resets state other v newPassword same
  simp only [serveAdmin]
  cases first : server.resetPassword state v newPassword with
  | error response =>
    cases second : server.resetPassword other v newPassword with
    | error _ => simpa [first, second, Except.map] using resets
    | ok _ => simp [first, second, Except.map] at resets
  | ok next =>
    cases second : server.resetPassword other v newPassword with
    | error _ => simp [first, second, Except.map] at resets
    | ok _ => simpa [first, second, Except.map] using resets

theorem issueTokens_agrees (config : JwtConfig) (userId : String) :
    (issueTokens platform config userId).Agrees (answerProvider server plan) now request (Alike roster account v) :=
  .bind (getUserById_agrees accounts steady userId) fun _ => .now (.now (.done _))

theorem refreshToken_agrees (config : JwtConfig) (token : Str) :
    (refreshToken platform config token).Agrees (answerProvider server plan) now request
      (Alike roster account v) := by
  refine .bind (.now ?_) fun payload => .bind (getUserById_agrees accounts steady payload.sub) fun _ =>
    .now (.now (.done _))
  split
  · exact .fail _
  · exact .fail _
  · split
    · exact .fail _
    · exact .done _

theorem authenticate_agrees (config : JwtConfig) {email : String} (password : String)
    (own : ∀ state, server.owner state email = some v) :
    (KeycloakAuthProvider.authenticate platform config email password).Agrees
      (answerProvider server plan) now request
      (Alike roster account v) := by
  refine .bind (.attempt (.perform fun world other alike => ?_) fun error => ?_) fun _ =>
    .bind (getUserByEmail_agrees accounts steady email) fun user => .now (.now (.done _))
  · have grants := accounts.grants world.keycloak other.keycloak email password v (own _) alike.account
    simp only [answerProvider, answerHttp, serveHttp, grants]
    cases plan.http (.passwordGrant email password) with
    | some response => exact ⟨rfl, alike⟩
    | none =>
      cases server.passwordGrant world.keycloak email password with
      | error response => exact ⟨rfl, alike⟩
      | ok granted => exact ⟨rfl, alike⟩
  · split
    · exact .fail _
    · exact .fail _

end

theorem setup2FA_agrees :
    (setup2FA v).Agrees (answerProvider server plan) now request (Alike roster account v) := by
  refine .bind (.perform fun world other alike => ⟨congrArg Except.ok alike.secret, alike⟩) fun existing => ?_
  split
  · exact .fail _
  · refine .random fun index => .bind (.perform fun world other alike => ⟨rfl, ?_⟩) fun _ =>
      .bind (.perform fun world other alike => ⟨rfl, alike⟩) fun _ => .done _
    exact alike.saveUserData v "totpSecret" _

theorem verify2FA_agrees (code : String) :
    (verify2FA platform v code).Agrees (answerProvider server plan) now request (Alike roster account v) := by
  refine .bind (.perform fun world other alike => ⟨congrArg Except.ok alike.secret, alike⟩) fun secret => ?_
  split
  · exact .done _
  · exact .now (.done _)

variable (plan now request) in
theorem logout_spec (accounts : Accounts server account) (token : Str) (drawn : Nat) (world : World κ) :
    let outcome := (KeycloakAuthProvider.logout token).eval (answerProvider server plan) now request drawn world
    outcome.result = .ok () ∧ outcome.drawn = drawn ∧ outcome.state.store = world.store ∧
      ∀ user, account outcome.state.keycloak user = account world.keycloak user := by
  simp only [KeycloakAuthProvider.logout, http, KeycloakAuthProvider.perform,
    Program.tryCatch_eq, Program.eval_attempt,
    Program.eval_perform, answerProvider, answerHttp, serveHttp]
  cases plan.http (.logout token) with
  | some response => exact ⟨rfl, rfl, rfl, fun _ => rfl⟩
  | none =>
    cases ended : server.logout world.keycloak token with
    | error response => exact ⟨rfl, rfl, rfl, fun _ => rfl⟩
    | ok next => exact ⟨rfl, rfl, rfl, fun user => accounts.stays _ _ _ user ended⟩

theorem logout_agrees (accounts : Accounts server account) (token : Str) :
    (KeycloakAuthProvider.logout token).Agrees (answerProvider server plan) now request
      (Alike roster account v) := by
  intro drawn world other alike
  obtain ⟨result, counted, store, stays⟩ := logout_spec plan now request accounts token drawn world
  obtain ⟨result', counted', store', stays'⟩ := logout_spec plan now request accounts token drawn other
  refine ⟨result'.trans result.symm, counted'.trans counted.symm, alike.same_stores store store' ?_⟩
  rw [stays, stays', alike.account]

/-- What the provider answers to a request about the user depends on what the user can see. -/
theorem answerAuth_agrees (accounts : Accounts server account) (steady : Steady server plan)
    (owner : ∀ state email, server.owner state email = roster.owner email) {p : Nat} {call : AuthCall}
    (scope : roster.Scope p (some v) (.auth call)) (alike : Alike roster account v world other) :
    (answerAuth server platform options plan now request call other).1 =
        (answerAuth server platform options plan now request call world).1 ∧
      Alike roster account v (answerAuth server platform options plan now request call world).2
        (answerAuth server platform options plan now request call other).2 := by
  have agree {β : Type} {method : Method β}
      (agrees : method.Agrees (answerProvider server plan) now request (Alike roster account v)) :
      (evalMethod server plan now request method other).1 = (evalMethod server plan now request method world).1 ∧
        Alike roster account v (evalMethod server plan now request method world).2
          (evalMethod server plan now request method other).2 := by
    obtain ⟨result, -, after⟩ := agrees 0 world other alike
    exact ⟨result, after⟩
  cases call with
  | register req => exact scope.elim
  | authenticate email password =>
    exact agree (authenticate_agrees accounts steady options.jwt password fun state =>
      (owner state email).trans scope)
  | refreshToken token => exact agree (refreshToken_agrees accounts steady options.jwt token)
  | logout token => exact agree (logout_agrees accounts token)
  | completePasswordReset userId newPassword =>
    cases Option.some.inj scope
    exact agree (completePasswordReset_agrees accounts steady newPassword)
  | getUserById id => exact agree (getUserById_agrees accounts steady id)
  | getUserByEmail email => exact agree (getUserByEmail_agrees accounts steady email)
  | setup2FA userId =>
    cases Option.some.inj scope
    exact agree setup2FA_agrees
  | verify2FA userId code =>
    cases Option.some.inj scope
    exact agree (verify2FA_agrees code)
  | sendVerifyEmail userId => exact scope.elim
  | issueTokens userId => exact agree (issueTokens_agrees accounts steady options.jwt userId)

theorem answerAuth_setup2FA_keycloak (world : World κ) (userId : String) :
    (answerAuth server platform options plan now request (.setup2FA userId) world).2.keycloak = world.keycloak := by
  have only : (setup2FA userId).Only fun call => ∀ exchange, call ≠ .http exchange := by
    refine .bind (.perform (by simp)) fun existing => ?_
    split
    · trivial
    · refine fun nonce => ?_
      simp only [Program.done_bind]
      exact .bind (.perform (by simp)) fun _ => .bind (.perform (by simp)) fun _ => (by trivial)
  refine only.eval (fun after : World κ => after.keycloak = world.keycloak) (fun call after apart same => ?_) rfl
  cases call with
  | http exchange => exact absurd rfl (apart exchange)
  | getUserData => exact same
  | saveUserData => exact same
  | deleteUserData => exact same
  | readAdminTokenCache => exact same
  | writeAdminTokenCache => exact same
  | toDataURL => exact same

/-- What the provider does for others is not noticed. -/
theorem answerAuth_hidden (accounts : Accounts server account) {p : Nat} {subject : Option String} {call : AuthCall}
    (scope : roster.Scope p subject (.auth call)) (different : subject ≠ some v) (world : World κ) :
    Alike roster account v world (answerAuth server platform options plan now request call world).2 := by
  have kept (notSetup : ∀ userId, call ≠ .setup2FA userId)
      (same : account (answerAuth server platform options plan now request call world).2.keycloak v =
        account world.keycloak v) :
      Alike roster account v world (answerAuth server platform options plan now request call world).2 :=
    .of_same (answerAuth_store _ _ _ _ _ _ _ notSetup) same
  have looked (id : String) :
      (answerAuth server platform options plan now request (.issueTokens id) world).2.keycloak =
        world.keycloak := by
    rw [answerAuth_issueTokens]
    exact (answerAuth_getUserById server platform options plan now request world id).2.1
  cases call with
  | register req => exact scope.elim
  | authenticate email password =>
    refine kept (fun _ no => by cases no) (congrArg (account · v) ?_)
    exact (answerAuth_authenticate server platform options plan now request world email password).1
  | refreshToken token =>
    refine kept (fun _ no => by cases no) (congrArg (account · v) ?_)
    rw [answerAuth_refreshToken]
    cases refreshClaims options now token with
    | error error => rfl
    | ok payload => exact looked payload.sub
  | logout token =>
    refine kept (fun _ no => by cases no) ?_
    exact (logout_spec plan now request accounts token 0 world).2.2.2 v
  | completePasswordReset userId newPassword =>
    refine kept (fun _ no => by cases no) ?_
    obtain ⟨-, -, ended⟩ := adminRequest_spec server platform plan now request world
      (.resetPassword userId newPassword) 0
    rcases ended with ⟨_, _, same⟩ | ⟨_, _, served⟩
    · exact congrArg (account · v) same
    · have theirs : v ≠ userId := fun same => different (scope.trans (congrArg some same.symm))
      simp only [serveAdmin] at served
      cases reset : server.resetPassword world.keycloak userId newPassword with
      | error response => simp [reset, Except.map] at served
      | ok next =>
        simp only [reset, Except.map, Except.ok.injEq, Prod.mk.injEq, true_and] at served
        exact served ▸ accounts.spares _ _ _ _ v reset theirs
  | getUserById id =>
    refine kept (fun _ no => by cases no) (congrArg (account · v) ?_)
    exact (answerAuth_getUserById server platform options plan now request world id).2.1
  | getUserByEmail email =>
    refine kept (fun _ no => by cases no) (congrArg (account · v) ?_)
    exact (getUserByEmail_spec server platform plan now request world email 0).1
  | setup2FA userId =>
    have theirs : v ≠ userId := fun same => different (scope.trans (congrArg some same.symm))
    rcases answerAuth_setup2FA server platform options plan now request world userId with ⟨_, _, same⟩ | ⟨_, saved⟩
    · rw [same]
      exact .refl world
    · refine .of_entry userId "totpSecret" (by rw [saved]; rfl) (fun owner name other => ?_)
        (.inl theirs) (fun _ _ counter => .inr counter.ne_secret)
        (congrArg (account · v) (answerAuth_setup2FA_keycloak world userId))
      rw [saved, getUserData_saveUserData_other _ _ other]
  | verify2FA userId code =>
    rw [answerAuth_verify2FA]
    exact .refl world
  | sendVerifyEmail userId => exact scope.elim
  | issueTokens userId => exact kept (fun _ no => by cases no) (congrArg (account · v) (looked userId))

/-- No record on file has the id of the record that the call saves. -/
def SavesFresh (call : Call) (store : InMemoryTokenStore) : Prop :=
  ∀ record, call = .store (.save record) → ∀ old ∈ store.records, old.id ≠ record.id

variable (platform options plan now request) in
/-- What a request about others does is not noticed. -/
theorem answerCall_hidden (accounts : Accounts server account) {p : Nat} {subject : Option String} {call : Call}
    (filed : roster.Filed world.store) (fresh : SavesFresh call world.store) (scope : roster.Scope p subject call)
    (different : subject ≠ some v) :
    Alike roster account v world (answerCall server platform options plan now request call world).2 := by
  cases call with
  | store call =>
    cases call with
    | save record =>
      have theirs : record.userId ≠ v := fun same => different (scope.1.trans (congrArg some same))
      refine ⟨?_, rfl, fun _ _ _ => rfl, rfl⟩
      exact (recordsOf_save (fresh record rfl)).trans (by rw [if_neg theirs, List.append_nil])
    | findByToken token type => exact .refl world
    | markConsumed id =>
      refine ⟨recordsOf_markConsumed_other now fun record member same => ?_, getUserData_markConsumed ..,
        fun _ _ _ => getUserData_markConsumed .., rfl⟩
      obtain ⟨onFile, own⟩ := mem_recordsOf.mp member
      have drawn := (filed record onFile).1
      rw [same, own] at drawn
      exact different (scope.symm.trans drawn)
    | deleteExpired => exact scope.elim
    | deleteAllForUser userId =>
      refine ⟨(recordsOf_deleteRecords _).trans (List.filter_eq_self.mpr fun record member => ?_), rfl,
        fun _ _ _ => rfl, rfl⟩
      have theirs : record.userId ≠ userId := by
        intro same
        exact different (scope.trans (congrArg some (same.symm.trans (mem_recordsOf.mp member).2)))
      simp [theirs]
    | saveUserData userId key value =>
      exact .of_entry userId key rfl (fun _ _ => getUserData_saveUserData_other _ _) (.inr scope.ne_secret)
        (fun _ _ counter => .inr (counter.key_ne scope different.symm)) rfl
    | getUserData userId key => exact .refl world
    | deleteUserData userId key =>
      exact .of_entry userId key (deleteUserData_records ..) (fun _ _ => getUserData_deleteUserData_other _)
        (.inr scope.ne_secret)
        (fun _ _ counter => .inr (counter.key_ne scope different.symm)) rfl
  | auth call => exact answerAuth_hidden accounts scope different world
  | render template link => exact .refl world
  | send req => exact .refl world

variable (platform options now request) in
/-- What a request about the user is answered depends on what the user can see. -/
theorem answerCall_agrees (accounts : Accounts server account) (steady : Steady server plan)
    (owner : ∀ state email, server.owner state email = roster.owner email) {p : Nat} {call : Call}
    (filed : roster.Filed world.store) (filed' : roster.Filed other.store) (fresh : SavesFresh call world.store)
    (fresh' : SavesFresh call other.store) (scope : roster.Scope p (some v) call)
    (alike : Alike roster account v world other) :
    (answerCall server platform options plan now request call other).1 =
        (answerCall server platform options plan now request call world).1 ∧
      Alike roster account v (answerCall server platform options plan now request call world).2
        (answerCall server platform options plan now request call other).2 := by
  cases call with
  | store call =>
    cases call with
    | save record =>
      refine ⟨rfl, ?_, alike.secret, alike.counters, alike.account⟩
      simp only [answerCall, answerStore, recordsOf_save (fresh record rfl), recordsOf_save (fresh' record rfl),
        alike.records]
    | findByToken token type =>
      have own {store : InMemoryTokenStore} (filed : roster.Filed store) :
          ∀ record ∈ store.records, record.token = hashToken token → record.userId = v := by
        intro record member hashed
        exact Option.some.inj (((filed record member).2 token hashed).symm.trans scope)
      refine ⟨?_, alike⟩
      simp only [answerCall, answerStore, findByToken_recordsOf (own filed), findByToken_recordsOf (own filed'),
        alike.records]
    | markConsumed id =>
      have own {store : InMemoryTokenStore} (filed : roster.Filed store) :
          ∀ record ∈ store.records, record.id = id → record.userId = v := by
        rintro record member rfl
        exact Option.some.inj ((filed record member).1.symm.trans scope)
      obtain ⟨answer, records⟩ := markConsumed_recordsOf now alike.records (own filed) (own filed')
      refine ⟨congrArg Except.ok answer, records, ?_, fun userId key counter => ?_, alike.account⟩
      · simp only [answerCall, answerStore, getUserData_markConsumed, alike.secret]
      · simp only [answerCall, answerStore, getUserData_markConsumed, alike.counters userId key counter]
    | deleteExpired => exact scope.elim
    | deleteAllForUser userId =>
      refine ⟨rfl, ?_, alike.secret, alike.counters, alike.account⟩
      simp only [answerCall, answerStore, deleteAllForUser, recordsOf_deleteRecords, alike.records]
    | saveUserData userId key value => exact ⟨rfl, alike.saveUserData userId key value⟩
    | getUserData userId key =>
      refine ⟨congrArg Except.ok ?_, alike⟩
      rcases scope with counter | ⟨own, rfl⟩
      · exact alike.counters userId key counter
      · cases Option.some.inj own
        exact alike.secret
    | deleteUserData userId key => exact ⟨rfl, alike.deleteUserData userId key⟩
  | auth call => exact answerAuth_agrees accounts steady owner scope alike
  | render template link => exact ⟨rfl, alike⟩
  | send req => exact ⟨rfl, alike⟩

end

end KeycloakAuth
