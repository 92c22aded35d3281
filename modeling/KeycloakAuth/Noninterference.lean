import KeycloakAuth.Realm
import KeycloakAuth.Separation

namespace KeycloakAuth
open Async InMemoryTokenStore LoginUseCase

/-- What a user can see: the answers to its requests, its records, its second factor, and the failure counters
and locks of its addresses. -/
structure SameFor {κ : Type} (roster : Roster) (v : String) (cfg other : AuthConfig κ) : Prop where
  answers : ∀ (p : Nat) (thread : Thread Call.Ans Thrown Request Response), cfg.threads[p]? = some thread →
    roster.user thread.request = some v → other.threads[p]? = some thread
  records : other.shared.store.recordsOf v = cfg.shared.store.recordsOf v
  secret : other.shared.store.getUserData v "totpSecret" = cfg.shared.store.getUserData v "totpSecret"
  failures : ∀ email, roster.owner email = some v →
    other.shared.store.getUserData "system" (failedKey email) =
      cfg.shared.store.getUserData "system" (failedKey email)
  lock : ∀ email, roster.owner email = some v →
    other.shared.store.getUserData "system" (lockKey email) = cfg.shared.store.getUserData "system" (lockKey email)

namespace Roster
variable (roster : Roster) (v : String)

/-- Requests that are not about `v` are not served. They keep their numbers, since random values are named by
them. -/
def keeps {κ : Type} : AuthEvent κ → Bool
  | .resume p _ => roster.requests[p]?.bind roster.user = some v
  | _ => true

end Roster

section
variable {κ : Type} (server : KeycloakServer κ) (platform : Platform)
  (options : Deployment) (clock : Nat) (keycloak : κ)

/-- The requests of a run that has led to `last`, in the directory that Keycloak starts with. -/
def rosterOf (last : AuthConfig κ) : Roster := ⟨platform, server.owner keycloak, last.threads.map (·.request)⟩

/-- Without the requests about others, the run looks the same to `v`. -/
def UnchangedFor (v : String) (events : List (AuthEvent κ)) : Prop :=
  ∀ last, (authSystem server platform options).run (.start clock (.fresh keycloak)) events = some last →
    ∃ reduced, (authSystem server platform options).run (.start clock (.fresh keycloak))
        (events.filter ((rosterOf server platform keycloak last).keeps v)) = some reduced ∧
      SameFor (rosterOf server platform keycloak last) v last reduced

/-- No registrations arrive. -/
def NoRegistration (events : List (AuthEvent κ)) : Prop :=
  ∀ email username password, .arrive (.register email username password) ∉ events

/-- No user is disturbed by the others in any run, over accounts that are kept as documented. -/
def UsersDoNotInterfere {α : Type} (account : κ → String → α) : Prop :=
  Accounts server account → ∀ v events, NoRegistration events →
    UnchangedFor server platform options clock keycloak v events

/-- Whenever a request about `v` needs an admin token it gets one, and any will do. -/
def SteadyFor (v : String) (events : List (AuthEvent κ)) : Prop :=
  ∀ last, (authSystem server platform options).run (.start clock (.fresh keycloak)) events = some last →
    ∀ p plan, .resume p plan ∈ events → (rosterOf server platform keycloak last).keeps v
      (.resume p plan : AuthEvent κ) →
      Steady server plan

end

section
variable {κ α : Type} {server : KeycloakServer κ} {platform : Platform} {options : Deployment} {clock : Nat}
  {keycloak : κ} {account : κ → String → α} {roster : Roster} {v : String}

theorem Accounts.owner_eq (accounts : Accounts server account) (state other : κ) (email : String) :
    server.owner state email = server.owner other email := by
  rw [KeycloakServer.owner, KeycloakServer.owner, accounts.users state other]

theorem Accounts.lists (accounts : Accounts server account) (last : AuthConfig κ) :
    (rosterOf server platform keycloak last).Lists server := by
  intro state email found others listed
  have same := accounts.owner_eq state keycloak email
  rw [KeycloakServer.owner, listed] at same
  exact same

/-- The id of a record about to be saved is new to the store. -/
theorem reach_saves_fresh {permitted : AuthConfig κ → AuthEvent κ → Prop} {cfg : AuthConfig κ}
    (reach : (authSystem server platform options).Reach permitted (.start clock (.fresh keycloak)) cfg) {p : Nat}
    {thread : Thread Call.Ans Thrown Request Response} (found : cfg.threads[p]? = some thread) {call : Call} {rest}
    (waiting : thread.state = .awaiting call rest) : SavesFresh call cfg.shared.store := by
  rintro record rfl old member
  obtain ⟨original, saved, stems⟩ := (reach_ledger reach).stems old member
  rw [stems.id_eq]
  exact reach_save_fresh reach found waiting original saved

/-- The requests of a configuration are the first of those of a later one. -/
theorem served_of_reach {permitted : AuthConfig κ → AuthEvent κ → Prop} {cfg last : AuthConfig κ}
    (reach : (authSystem server platform options).Reach permitted cfg last) {p : Nat}
    {thread : Thread Call.Ans Thrown Request Response} (found : cfg.threads[p]? = some thread) :
    (rosterOf server platform keycloak last).requests[p]? = some thread.request := by
  obtain ⟨later, atLast, same⟩ := reach.request_kept found
  rw [rosterOf, List.getElem?_map, atLast, Option.map_some, same]

theorem SameFor.thread_eq {cfg other : AuthConfig κ} (same : SameFor roster v cfg other) {p : Nat}
    (about : (cfg.threads[p]?.bind fun thread => roster.user thread.request) = some v) :
    other.threads[p]? = cfg.threads[p]? := by
  obtain ⟨thread, found, own⟩ := Option.bind_eq_some_iff.mp about
  rw [found, same.answers p thread found own]

variable (server platform options clock keycloak account roster v) in
/-- Two configurations that the module can reach and that look the same to `v`, down to what its requests have
yet to do. -/
structure Beside (cfg other : AuthConfig κ) : Prop where
  reach : (authSystem server platform options).Reach anyEvent (.start clock (.fresh keycloak)) cfg
  reach' : (authSystem server platform options).Reach anyEvent (.start clock (.fresh keycloak)) other
  kept : roster.Kept cfg
  kept' : roster.Kept other
  along : cfg.Alongside (fun request => roster.user request = some v) (Alike roster account v) other

theorem Beside.sameFor {cfg other : AuthConfig κ}
    (beside : Beside server platform options clock keycloak account roster v cfg other) :
      SameFor roster v cfg other where
  answers := beside.along.threads
  records := beside.along.shared.records
  secret := beside.along.shared.secret
  failures email own := beside.along.shared.counters _ _ ⟨rfl, email, own, .inl rfl⟩
  lock email own := beside.along.shared.counters _ _ ⟨rfl, email, own, .inr rfl⟩

theorem Beside.start (roster : Roster) (account : κ → String → α) (v : String) :
    Beside server platform options clock keycloak account roster v (.start clock (.fresh keycloak))
      (.start clock (.fresh keycloak)) where
  reach := .start
  reach' := .start
  kept := .start roster clock keycloak
  kept' := .start roster clock keycloak
  along := ⟨rfl, rfl, fun _ _ found _ => found, .refl _⟩

variable (server v) in
/-- No registration arrives, and Keycloak answers the requests about `v` whichever admin token they come with. -/
def Permitted (roster : Roster) (event : AuthEvent κ) : Prop :=
  (∀ email username password, event ≠ .arrive (.register email username password)) ∧
    ∀ p plan, event = .resume p plan → roster.keeps v event = true → Steady server plan

section
variable {cfg other next last : AuthConfig κ} {event : AuthEvent κ} (accounts : Accounts server account)
  (beside : Beside server platform options clock keycloak account
    (rosterOf server platform keycloak last) v cfg other)
  (permitted : Permitted server v (rosterOf server platform keycloak last) event)
  (step : (authSystem server platform options).advance cfg event = some next)
  (reach : (authSystem server platform options).Reach anyEvent next last)
include accounts beside permitted step reach

/-- A step of a request about others is not noticed. -/
theorem Beside.hidden (hides : (rosterOf server platform keycloak last).keeps v event = false) :
    Beside server platform options clock keycloak account
      (rosterOf server platform keycloak last) v next other := by
  have kept : (rosterOf server platform keycloak last).Kept next :=
    beside.kept.advance (accounts.lists last) permitted.1 (fun _ _ found => served_of_reach reach found) step
  refine ⟨beside.reach.next trivial step, beside.reach', kept, beside.kept', ?_⟩
  rcases System.advance_cases step with ⟨delay, rfl, rfl⟩ | ⟨change, rfl, rfl⟩ | ⟨request, rfl, rfl⟩ |
    ⟨p, plan, thread, call, rest, rfl, found, waiting, rfl⟩
  · cases hides
  · cases hides
  · cases hides
  · have served := beside.kept.served p thread found
    have others : (rosterOf server platform keycloak last).user thread.request ≠ some v := by
      simpa [Roster.keeps, served] using hides
    have unseen := answerCall_hidden platform options plan cfg.clock p accounts beside.kept.filed
      (reach_saves_fresh beside.reach found waiting) (beside.kept.scopes.in_scope found waiting) others
    exact beside.along.resume_left found others (unseen.symm.trans beside.along.shared)

/-- A step of a request about the user, and what happens on its own, go alike. -/
theorem Beside.visible (keeps : (rosterOf server platform keycloak last).keeps v event = true) :
    ∃ after, (authSystem server platform options).advance other event = some after ∧
      Beside server platform options clock keycloak account
        (rosterOf server platform keycloak last) v next after := by
  have kept : (rosterOf server platform keycloak last).Kept next :=
    beside.kept.advance (accounts.lists last) permitted.1 (fun _ _ found => served_of_reach reach found) step
  have goes_on (after : AuthConfig κ) (step' : (authSystem server platform options).advance other
    event = some after)
      (along : next.Alongside (fun request => (rosterOf server platform keycloak last).user request = some v)
        (Alike (rosterOf server platform keycloak last) account v) after) :
      ∃ after, (authSystem server platform options).advance other event = some after ∧
        Beside server platform options clock keycloak account
          (rosterOf server platform keycloak last) v next after := by
    refine ⟨after, step', beside.reach.next trivial step, beside.reach'.next trivial step', kept,
      beside.kept'.advance (accounts.lists last) permitted.1 (fun p thread found => ?_) step', along⟩
    obtain ⟨twin, atTwin, same⟩ := along.request_eq found
    rw [← same]
    exact served_of_reach reach atTwin
  rcases System.advance_cases step with ⟨delay, rfl, rfl⟩ | ⟨change, rfl, rfl⟩ | ⟨request, rfl, rfl⟩ |
    ⟨p, plan, thread, call, rest, rfl, found, waiting, rfl⟩
  · exact goes_on _ rfl (beside.along.tick delay)
  · refine goes_on _ rfl ⟨beside.along.clock, beside.along.requests, beside.along.threads, ?_⟩
    have alike := beside.along.shared
    cases change with
    | keycloak state => exact ⟨alike.records, alike.secret, alike.counters, rfl⟩
    | deleteExpired =>
      refine ⟨?_, alike.secret, alike.counters, alike.account⟩
      simp only [authSystem, deleteExpired, recordsOf_deleteRecords, alike.records, beside.along.clock]
  · exact goes_on _ rfl (beside.along.arrive request)
  · have served := beside.kept.served p thread found
    have about : (rosterOf server platform keycloak last).user thread.request = some v := by
      simpa [Roster.keeps, served] using keeps
    have found' := beside.along.threads p thread found about
    have scope := beside.kept.scopes.in_scope found waiting
    rw [about] at scope
    obtain ⟨answer, alike⟩ := answerCall_agrees platform options cfg.clock p accounts (permitted.2 p plan rfl keeps)
      (fun state => accounts.owner_eq state keycloak) beside.kept.filed beside.kept'.filed
      (reach_saves_fresh beside.reach found waiting) (reach_saves_fresh beside.reach' found' waiting) scope
      beside.along.shared
    exact goes_on _ (System.advance_resume plan found' waiting) (beside.along.resume_both found about answer alike)

end

variable {events : List (AuthEvent κ)} in
/-- Users do not interfere but through the admin token that the module keeps. -/
theorem users_do_not_interfere_when_steady (accounts : Accounts server account) (registers : NoRegistration events)
    (steady : SteadyFor server platform options clock keycloak v events) :
    UnchangedFor server platform options clock keycloak v events := by
  intro last ran
  have each : ∀ event ∈ events, Permitted server v (rosterOf server platform keycloak last) event := by
    refine fun event member => ⟨fun email username password same => ?_, fun p plan same keeps => ?_⟩
    · exact registers email username password (same ▸ member)
    · exact steady last ran p plan (same ▸ member) (same ▸ keeps)
  obtain ⟨reduced, ran', beside⟩ := System.unwind
    (fun cfg other next event fine hides step reach
      (beside : Beside server platform options clock keycloak account (rosterOf server platform keycloak last) v cfg
        other) => beside.hidden accounts fine step reach hides)
    (fun cfg other next event fine keeps step reach beside => beside.visible accounts fine step reach keeps) each
    (.start (rosterOf server platform keycloak last) account v) ran
  exact ⟨reduced, ran', beside.sameFor⟩

end

namespace Sample

def bob : Account := ⟨"bob", "bob", "bob@mail", "bob password", true, true, by decide⟩

def setPassword (passwords : String → String) (account : Account) : Account :=
  { account with password := passwords account.id }

/-- Ann and Bob with their passwords as they are now. -/
def couple (passwords : String → String) : Realm := ⟨[ann, bob].map (setPassword passwords), true, false⟩

/-- A realm in which nothing changes but the passwords. -/
def coupleServer : KeycloakServer (String → String) where
  clientCredentials _ := .ok ⟨"admin", 60⟩
  passwordGrant passwords := (couple passwords).passwordGrant
  usersByEmail passwords := (couple passwords).usersByEmail
  userById passwords := (couple passwords).userById
  createUser _ _ := .error ⟨403, none⟩
  resetPassword passwords id value :=
    ((couple passwords).userById id).map fun _ other => if other = id then value else passwords other
  sendVerifyEmail passwords id := ((couple passwords).userById id).map fun _ => ()
  logout passwords _ := .ok passwords
  userById_id _ _ _ found := Realm.userById_id found
  usersByEmail_id _ _ _ listed := Realm.usersByEmail_id listed

theorem couple_userById (passwords : String → String) (id : String) :
    (couple passwords).userById id =
      ([ann, bob].find? (·.id = id)).elim (.error Realm.notFound) fun account => .ok account.representation := by
  have kept : (fun account : Account => decide (account.id = id)) ∘ setPassword passwords =
      fun account => decide (account.id = id) := rfl
  rw [Realm.userById, couple, List.find?_map, kept]
  cases [ann, bob].find? (·.id = id) <;> rfl

theorem couple_usersByEmail (passwords : String → String) (email : String) :
    (couple passwords).usersByEmail email =
      .ok (([ann, bob].filter fun account => account.email = email).map Account.representation) := by
  have kept : (fun account : Account => decide (account.email = email)) ∘ setPassword passwords =
      fun account => decide (account.email = email) := rfl
  rw [Realm.usersByEmail, couple, List.filter_map, kept, List.map_map]
  rfl

theorem couple_owner {passwords : String → String} {email id : String}
    (owned : coupleServer.owner passwords email = some id) :
    ∃ account ∈ [ann, bob], account.email = email ∧ account.id = id := by
  simp only [KeycloakServer.owner, coupleServer, couple_usersByEmail] at owned
  cases listed : [ann, bob].filter fun account => account.email = email with
  | nil => simp [listed] at owned
  | cons account others =>
    have first : account ∈ [ann, bob].filter fun account => account.email = email := by simp [listed]
    obtain ⟨member, addressed⟩ := List.mem_filter.mp first
    simp only [listed, List.map_cons] at owned
    exact ⟨account, member, of_decide_eq_true addressed, Option.some.inj owned⟩

theorem couple_passwordGrant (passwords : String → String) {account : Account} (member : account ∈ [ann, bob])
    (password : String) : (couple passwords).passwordGrant account.email password =
      if passwords account.id ≠ password then .error (Realm.invalidGrant 401
        "Invalid user credentials") else .ok () := by
  rcases List.mem_pair.mp member with rfl | rfl <;> rfl

theorem couple_accounts : Accounts coupleServer fun passwords id => passwords id where
  users passwords other email := by simp only [coupleServer, couple_usersByEmail]
  byId passwords other id := by simp only [coupleServer, couple_userById]
  grants passwords other email password id owned same := by
    obtain ⟨account, member, rfl, rfl⟩ := couple_owner owned
    simp only [coupleServer, couple_passwordGrant _ member, same]
  resets passwords other id value same := by
    simp only [coupleServer, couple_userById]
    cases [ann, bob].find? (·.id = id) <;> simp [Except.map]
  spares passwords next id value user reset different := by
    simp only [coupleServer] at reset
    cases looked : (couple passwords).userById id with
    | error response => simp [looked, Except.map] at reset
    | ok found =>
      simp only [looked, Except.map, Except.ok.injEq] at reset
      subst reset
      simp [different]
  stays passwords next token user ended := by
    cases ended
    rfl

/-- The passwords that Ann and Bob start with. -/
def initial (id : String) : String := id ++ " password"

abbrev coupleSystem := authSystem coupleServer platform options

/-- Bob asks for a reset link while Ann logs in. -/
def mingled : List (AuthEvent (String → String)) :=
  [.arrive (.forgotPassword "bob@mail"), .arrive (.login "ann@mail" "ann password"),
    .resume 1 .good, .resume 0 .good,
    .resume 1 .good, .resume 0 .good, .resume 1 .good]

/-- Ann's login goes on alike without Bob's request. -/
theorem users_do_not_interfere_when_steady_mingled :
    ∃ last reduced, coupleSystem.run (.start 1000 (.fresh initial)) mingled = some last ∧
      coupleSystem.run (.start 1000 (.fresh initial))
        (mingled.filter ((rosterOf coupleServer platform initial last).keeps "ann")) = some reduced ∧
      SameFor (rosterOf coupleServer platform initial last) "ann" last reduced := by
  have good (p : Nat) (plan : Plan) (member : .resume p plan ∈ mingled) : plan = .good := by
    simp only [mingled, List.mem_cons, reduceCtorEq, Event.resume.injEq,
      List.not_mem_nil, false_or, or_false] at member
    tauto
  obtain ⟨reduced, ran, same⟩ := users_do_not_interfere_when_steady (v := "ann") couple_accounts
    (by simp [NoRegistration, mingled])
    (fun last _ p plan member _ => good p plan member ▸ ⟨fun _ => ⟨_, rfl⟩, rfl, fun _ _ _ => rfl⟩) _
    (show coupleSystem.run (.start 1000 (.fresh initial)) mingled = some _ from rfl)
  exact ⟨_, reduced, rfl, ran, same⟩

/-- Keycloak does not grant the module an admin token. -/
def refusing : Plan := { Plan.good with http := fun call => if call = .clientCredentials then some none else none }

/-- Ann asks for a reset link, and while the admin token for that is still good, Bob asks for one. -/
def sharing : List (AuthEvent (String → String)) :=
  [.arrive (.forgotPassword "ann@mail"), .resume 0 .good, .arrive (.forgotPassword "bob@mail"), .resume 1 refusing]

/-- Bob's request has looked him up. -/
def shared : AuthConfig (String → String) :=
  (coupleSystem.run (.start 1000 (.fresh initial)) sharing).getD (.start 1000 (.fresh initial))

def ended (p : Nat) (cfg : AuthConfig (String → String)) : Option Bool :=
  cfg.threads[p]?.map fun thread => thread.state.finished

/-- Without Ann's request there is no admin token for Bob's, and it fails. -/
theorem users_do_interfere : ¬ UsersDoNotInterfere coupleServer platform options 1000 initial
    fun passwords id => passwords id := by
  intro apart
  obtain ⟨reduced, ran, same⟩ := apart couple_accounts "bob" sharing (by simp [NoRegistration, sharing]) shared rfl
  have running : ended 1 reduced = ended 1 shared := by rw [ended, ended, same.thread_eq rfl]
  have failed : some (some true) = some (ended 1 reduced) := congrArg (Option.map (ended 1)) ran
  cases (Option.some.inj failed).trans running

end Sample

end KeycloakAuth
