import KeycloakAuth.LoginHistories
import KeycloakAuth.Provider
import KeycloakAuth.Realm

namespace KeycloakAuth
open Async LoginUseCase InMemoryTokenStore

/-- Keycloak was asked about a password for `email` and answered that it is wrong. -/
def guessRejected (email : String) : LogEntry → Bool
  | ⟨_, .auth (.authenticate name _), .error (.domain .invalidCredentials _), _⟩ => name = email
  | _ => false

def guessAccepted (email : String) : LogEntry → Bool
  | ⟨_, .auth (.authenticate name _), .ok _, _⟩ => name = email
  | _ => false

theorem guessRejected_spec {email : String} {entry : LogEntry} (rejected : guessRejected email entry = true) :
    ∃ password message, entry = ⟨entry.request, .auth (.authenticate email password),
      .error (.domain .invalidCredentials message), entry.time⟩ := by
  unfold guessRejected at rejected
  split at rejected
  · cases of_decide_eq_true rejected
    exact ⟨_, _, rfl⟩
  · cases rejected

/-- The wrong passwords for `email` that were checked in a half-open window. -/
def rejectedGuesses (email : String) (a b : Nat) (log : List LogEntry) : Nat :=
  log.countP fun entry => guessRejected email entry ∧ a ≤ entry.time ∧ entry.time < b

namespace Call

/-- The call is a step of counting a failure for `email`, up to the lock that it may end with. -/
def counts (email : String) : Call → Bool
  | .store (.getUserData user key) => user = "system" ∧ key = failedKey email
  | .store (.saveUserData user key _) => user = "system" ∧ (key = failedKey email ∨ key = lockKey email)
  | _ => false

/-- The call removes the counter or the lock of `email`. -/
def clears (email : String) : Call → Bool
  | .store (.deleteUserData user key) => user = "system" ∧ (key = failedKey email ∨ key = lockKey email)
  | _ => false

/-- The call is the look at the lock with which a login for `email` begins. -/
def checksLock (email : String) : Call → Bool
  | .store (.getUserData user key) => user = "system" ∧ key = lockKey email
  | _ => false

/-- The calls that a login for `email` comes to once it has found no lock, or taken one away. -/
def unlocked (email : String) : Call → Bool
  | .auth (.authenticate name _) => name = email
  | .store (.deleteUserData user key) => user = "system" ∧ key = failedKey email
  | _ => false

/-- The call is about logins for `email`. -/
def concerns (email : String) : Call → Bool
  | .auth (.authenticate name _) => name = email
  | call => call.counts email || call.clears email

theorem concerns_of_busy {email : String} {call : Call} (busy : call.counts email = true ∨
    call.clears email = true) :
    call.concerns email = true := by
  unfold concerns
  split
  · simp [counts, clears] at busy
  · simpa using busy

end Call

/-- Only a login for the address makes such calls. -/
theorem Phase.login_of_concerns {platform : Platform} {options : Deployment} {p : Nat} {request : Request}
    {history : List LogEntry} {call : Call} {email : String}
    (phase : Phase platform options p request history (.awaiting call)) (concerns : call.concerns email = true) :
    ∃ name password, request = .login name password ∧ normalize platform name = email := by
  cases request with
  | login name password =>
    refine ⟨name, password, rfl, ?_⟩
    cases phase <;> simp [Call.concerns, Call.counts, Call.clears] at concerns <;> exact concerns
  | complete2FA token code => cases phase <;> cases concerns
  | refresh token => cases phase <;> cases concerns
  | forgotPassword email => cases phase <;> cases concerns
  | sendMagicLink email => cases phase <;> cases concerns
  | resetPassword token newPassword => cases phase <;> cases concerns
  | verifyMagicLink token => cases phase <;> cases concerns
  | logout token => cases phase <;> cases concerns
  | register email username password => cases phase <;> cases concerns
  | setup2FA userId => cases phase <;> cases concerns
  | verify2FA userId code => cases phase <;> cases concerns

/-- How a login comes to such a call: from its look at the lock, or from another call of that kind. -/
theorem LoginPhase.enters {p : Nat} {self : LoginUseCase} {email password : String} {history : List LogEntry}
    {call : Call} (phase : LoginPhase p self email password history (.awaiting call))
    (concerns : call.concerns email = true) : ∃ entry, history.getLast? = some entry ∧
      (entry.call.checksLock email = true ∨ entry.call.concerns email = true) ∧
      (call.unlocked email = true →
        (∃ found, entry = ⟨entry.request, .store (.getUserData "system" (lockKey email)), .ok found, entry.time⟩ ∧
          found.filter Str.truthy = none) ∨
        entry.call = .store (.deleteUserData "system" (lockKey email)) ∨ entry.call.unlocked email = true) := by
  cases phase with
  | lock => simp [Call.concerns, Call.counts, Call.clears] at concerns
  | clearingLock past => exact ⟨_, rfl, .inl (by simp [Call.checksLock]), by simp [Call.unlocked]⟩
  | clearingCount past =>
    exact ⟨_, rfl, .inr (by simp [Call.concerns, Call.clears]), fun _ => .inr (.inl rfl)⟩
  | checking passed =>
    cases passed with
    | @unlocked entry t absent =>
      exact ⟨_, rfl, .inl (by simp [Call.checksLock]), fun _ => .inl ⟨entry, rfl, absent⟩⟩
    | expired past =>
      exact ⟨_, rfl, .inr (by simp [Call.concerns, Call.clears]), fun _ => .inr (.inr (by simp [Call.unlocked]))⟩
  | counting passed =>
    exact ⟨_, List.getLast?_concat, .inr (by simp [Call.concerns]), by simp [Call.unlocked]⟩
  | recording passed =>
    exact ⟨_, by rw [List.getLast?_append]; rfl, .inr (by simp [Call.concerns,
      Call.counts]), by simp [Call.unlocked]⟩
  | locking passed reached valid =>
    exact ⟨_, by rw [List.getLast?_append]; rfl, .inr (by simp [Call.concerns,
      Call.counts]), by simp [Call.unlocked]⟩
  | accepted passed =>
    exact ⟨_, List.getLast?_concat, .inr (by simp [Call.concerns]), fun _ => .inr (.inr (by simp [Call.unlocked]))⟩
  | unlocking passed =>
    exact ⟨_, by rw [List.getLast?_append]; rfl, .inr (by simp [Call.concerns,
      Call.clears]), by simp [Call.unlocked]⟩
  | secondFactor passed => simp [Call.concerns, Call.counts, Call.clears] at concerns
  | challenging passed enrolled => cases concerns
  | saving passed notEnrolled => cases concerns

/-- What a login does next is what the counter demands. -/
theorem LoginPhase.due_eq {p : Nat} {self : LoginUseCase} {email password : String} {history : List LogEntry}
    {view : ServiceView} (phase : LoginPhase p self email password history view) :
    (∀ call, self.due email history = some call → view = .awaiting call) ∧
    ∀ call, view = .awaiting call → call.counts email = true → self.due email history = some call := by
  cases phase with
  | lock => simp [due, Call.counts]
  | clearingLock past => simp [due, dueAfter, Call.counts]
  | clearingCount past => simp [due, dueAfter, Call.counts]
  | checking passed => cases passed <;> simp [due, dueAfter, Call.counts]
  | counting passed => simp [due, dueAfter, Call.counts]
  | recording passed => simp [due, dueAfter, Call.counts]
  | locking passed reached valid =>
    simp [due, dueAfter, Call.counts, plusOne_stringify_atLeast, reached, valid]
  | accepted passed => simp [due, dueAfter, Call.counts]
  | unlocking passed => simp [due, dueAfter, Call.counts]
  | secondFactor passed => simp [due, dueAfter, Call.counts]
  | challenging passed enrolled => simp [due, dueAfter, Call.counts]
  | saving passed notEnrolled => simp [due, dueAfter, Call.counts]
  | challenged settled => simp [settled]
  | returned passed notEnrolled => simp [due, dueAfter, Call.counts]
  | threw settled => simp [settled]

/-- The entries after which a login removes the counter or the lock. -/
def startsClearing (email : String) (entry : LogEntry) : Prop :=
  (∃ text, entry.call = .store (.getUserData "system" (lockKey email)) ∧
    entry = ⟨entry.request, .store (.getUserData "system" (lockKey email)), .ok (some text), entry.time⟩ ∧
    lockedAt text entry.time = false) ∨
  entry.call.clears email = true ∨ guessAccepted email entry = true

theorem LoginPhase.clearing {p : Nat} {self : LoginUseCase} {email password : String} {history : List LogEntry}
    {call : Call} (phase : LoginPhase p self email password history (.awaiting call))
    (clears : call.clears email = true) : ∃ entry, history.getLast? = some entry ∧ startsClearing email entry := by
  cases phase with
  | lock => cases clears
  | clearingLock past => exact ⟨_, rfl, .inl ⟨_, rfl, rfl, past⟩⟩
  | clearingCount past => exact ⟨_, rfl, .inr (.inl (by simp [Call.clears]))⟩
  | checking passed => cases clears
  | counting passed => cases clears
  | recording passed => cases clears
  | locking passed reached valid => cases clears
  | accepted passed => exact ⟨_, by rw [List.getLast?_append]; rfl, .inr (.inr (by simp [guessAccepted]))⟩
  | unlocking passed => exact ⟨_, by rw [List.getLast?_append]; rfl, .inr (.inl (by simp [Call.clears]))⟩
  | secondFactor passed => cases clears
  | challenging passed enrolled => cases clears
  | saving passed notEnrolled => cases clears

theorem dueAfter_cases {self : LoginUseCase} {email : String} {entry : LogEntry} {call : Call}
    (due : self.dueAfter email entry = some call) :
    (∃ p password message t, entry = ⟨p, .auth (.authenticate email password),
        .error (.domain .invalidCredentials message), t⟩ ∧
      call = .store (.getUserData "system" (failedKey email))) ∨
    (∃ p found t, entry = ⟨p, .store (.getUserData "system" (failedKey email)), .ok found, t⟩ ∧
      call = .store (.saveUserData "system" (failedKey email)
        (.failedAttempts (self.attemptsIn found t).plusOne.stringify t))) ∨
    (∃ p count updatedAt t, entry = ⟨p, .store (.saveUserData "system" (failedKey email)
        (.failedAttempts count updatedAt)), .ok (), t⟩ ∧
      (count.elim JsValue.nan .number).atLeast self.maxFailedAttempts = true ∧
      call = .store (.saveUserData "system" (lockKey email) (.isoDate (t + self.lockoutDurationMs)))) := by
  unfold dueAfter at due
  split at due
  · split at due
    · rename_i same
      subst same
      exact .inl ⟨_, _, _, _, rfl, (Option.some.inj due).symm⟩
    · cases due
  · split at due
    · rename_i same
      obtain ⟨rfl, rfl⟩ := same
      exact .inr (.inl ⟨_, _, _, rfl, (Option.some.inj due).symm⟩)
    · cases due
  · split at due
    · rename_i reached
      obtain ⟨⟨rfl, rfl⟩, -, reached⟩ := reached
      exact .inr (.inr ⟨_, _, _, _, rfl, reached, (Option.some.inj due).symm⟩)
    · cases due
  · cases due

/-- The change to the counter or the lock of `email` that a request is about to make. -/
def pendingCall (email : String) : ServiceView → Option Call
  | .awaiting call => if call.counts email ∨ call.clears email then some call else none
  | _ => none

section
variable {κ : Type}

def pendingAt (cfg : AuthConfig κ) (email : String) (p : Nat) : Option Call :=
  cfg.threads[p]?.bind fun thread => pendingCall email thread.state.view

/-- The entry obliges its request to `call`, as far as the counter and the lock of `email` go. -/
def LoginUseCase.LeadsTo (self : LoginUseCase) (email : String) (entry : LogEntry) (call : Call) : Prop :=
  self.dueAfter email entry = some call ∨ startsClearing email entry

variable {server : KeycloakServer κ} {platform : Platform} {options : Deployment} {plan : Plan}
  {permitted : AuthConfig κ → AuthEvent κ → Prop} {clock : Nat} {world : World κ} {cfg : AuthConfig κ}
  {email : String}

theorem Phase.pending {p : Nat} {request : Request} {history : List LogEntry} {view : ServiceView} {call : Call}
    (phase : Phase platform options p request history view) (waits : pendingCall email view = some call) :
    ∃ entry, history.getLast? = some entry ∧ options.loginUseCase.LeadsTo email entry call := by
  unfold pendingCall at waits
  split at waits
  · split at waits
    · rename_i concerned
      cases waits
      obtain ⟨name, password, rfl, rfl⟩ := phase.login_of_concerns (Call.concerns_of_busy concerned)
      rcases concerned with counts | clears
      · have due := LoginPhase.due_eq phase |>.2 _ rfl counts
        obtain ⟨entry, last, due⟩ := Option.bind_eq_some_iff.mp due
        exact ⟨entry, last, .inl due⟩
      · obtain ⟨entry, last, starts⟩ := LoginPhase.clearing phase clears
        exact ⟨entry, last, .inr starts⟩
    · cases waits
  · cases waits

theorem pendingAt_eq_some {p : Nat} {call : Call} : pendingAt cfg email p = some call ↔
    ∃ thread rest, cfg.threads[p]? = some thread ∧ thread.state = .awaiting call rest ∧
      (call.counts email = true ∨ call.clears email = true) := by
  rw [pendingAt, Option.bind_eq_some_iff]
  constructor
  · intro waitsAt
    obtain ⟨⟨request, drawn, state⟩, found, waits⟩ := waitsAt
    cases state with
    | returned value => cases waits
    | threw error => cases waits
    | awaiting other rest =>
      simp only [Suspended.view, pendingCall, Option.ite_none_right_eq_some, Option.some.injEq] at waits
      obtain ⟨concerned, rfl⟩ := waits
      exact ⟨_, rest, found, rfl, concerned⟩
  · intro waitsAt
    obtain ⟨thread, rest, found, waiting, concerned⟩ := waitsAt
    exact ⟨thread, found, by rw [waiting]; exact if_pos concerned⟩

theorem pendingAt_resume_other {q p : Nat} {thread : Thread Call.Ans Thrown Request Response} {call : Call}
    {rest : Except Thrown call.Ans → Service Response} (other : q ≠ p) :
    pendingAt ((authSystem server platform options).resume cfg q thread call rest plan) email p =
      pendingAt cfg email p := by
  simp only [pendingAt, System.resume, List.getElem?_set_ne other]

/-- What a request is about to do to the counter or the lock after a step of its own. -/
theorem pendingAt_resume_self
    (reach : (authSystem server platform options).Reach permitted (.start clock world) cfg) {q : Nat}
    {thread : Thread Call.Ans Thrown Request Response} {call : Call}
    {rest : Except Thrown call.Ans → Service Response} (found : cfg.threads[q]? = some thread)
    (waiting : thread.state = .awaiting call rest) :
    let answered := (answerCall server platform options plan cfg.clock q call cfg.shared).1
    let entry : LogEntry := ⟨q, call, answered, cfg.clock⟩
    let next := (authSystem server platform options).resume cfg q thread call rest plan
    (∀ due, options.loginUseCase.dueAfter email entry = some due → pendingAt next email q = some due) ∧
    ∀ due, pendingAt next email q = some due → options.loginUseCase.LeadsTo email entry due := by
  intro answered entry next
  have after : (authSystem server platform options).Reach anyEvent (.start clock world) next :=
    reach.any.next trivial (System.advance_resume plan found waiting)
  have at_next : next.threads[q]? = some _ := List.getElem?_set_self (List.getElem?_eq_some_iff.mp found).1
  have phase := reach_phase after at_next
  have history : next.history q = cfg.history q ++ [entry] := System.resume_history_self ..
  rw [history] at phase
  constructor
  · intro due obliged
    have before := reach_phase reach found
    rw [waiting] at before
    have concerns : call.concerns email = true := by
      change entry.call.concerns email = true
      rcases dueAfter_cases obliged with ⟨_, _, _, _, same, _⟩ | ⟨_, _, _, same, _⟩ | ⟨_, _, _, _, same, _, _⟩ <;>
        simp [same, Call.concerns, Call.counts]
    obtain ⟨name, password, login, rfl⟩ := before.login_of_concerns concerns
    rw [login] at phase
    have shows := (LoginPhase.due_eq phase).1 due (by rw [due_concat]; exact obliged)
    have counts : due.counts (normalize platform name) = true := by
      rcases dueAfter_cases obliged with ⟨_, _, _, _, _, rfl⟩ | ⟨_, _, _, _, rfl⟩ | ⟨_, _, _, _, _, _, rfl⟩ <;>
        simp [Call.counts]
    simp only [pendingAt, at_next, Option.bind_some, shows, pendingCall, counts, true_or, if_true]
  · intro due waits
    simp only [pendingAt, at_next, Option.bind_some] at waits
    obtain ⟨last, at_end, leads⟩ := phase.pending waits
    rw [List.getLast?_concat] at at_end
    cases at_end
    exact leads

def counterOf (cfg : AuthConfig κ) (email : String) : Option Str :=
  cfg.shared.store.getUserData "system" (failedKey email)

def lockOf (cfg : AuthConfig κ) (email : String) : Option Str :=
  cfg.shared.store.getUserData "system" (lockKey email)

/-- A call that is no step of the bookkeeping leaves the counter and the lock alone. -/
theorem answerCall_untouched {q now : Nat} {call : Call} {world : World κ} (counts : call.counts email = false)
    (clears : call.clears email = false) {key : String} (own : key = failedKey email ∨ key = lockKey email) :
    (answerCall server platform options plan now q call world).2.store.getUserData "system" key =
      world.store.getUserData "system" key := by
  refine answerCall_getUserData _ _ _ _ _ _ _ call ?_ ?_ ?_
  · rcases own with rfl | rfl
    · exact (totpSecret_ne_failedKey email).symm
    · exact (totpSecret_ne_lockKey email).symm
  · rintro user name value rfl
    by_contra same
    obtain ⟨rfl, rfl⟩ := not_or.mp same |>.imp not_not.mp not_not.mp
    simp [Call.counts, own] at counts
  · rintro user name rfl
    by_contra same
    obtain ⟨rfl, rfl⟩ := not_or.mp same |>.imp not_not.mp not_not.mp
    simp [Call.clears, own] at clears

variable (server platform options plan) in
/-- What a call makes of the counter or the lock: it stores a value, or takes it away, or leaves it alone. -/
theorem answerCall_entry (now q : Nat) (call : Call) (world : World κ) {key : String} (other : key ≠ "totpSecret") :
    let after := (answerCall server platform options plan now q call world).2.store.getUserData "system" key
    (∃ value, call = .store (.saveUserData "system" key value) ∧ after = some value) ∨ after = none ∨
      after = world.store.getUserData "system" key := by
  intro after
  by_cases saves : ∃ value, call = .store (.saveUserData "system" key value)
  · obtain ⟨value, rfl⟩ := saves
    exact .inl ⟨value, rfl, getUserData_saveUserData_self ..⟩
  by_cases deletes : call = .store (.deleteUserData "system" key)
  · subst deletes
    exact .inr (.inl (getUserData_deleteUserData_self ..))
  refine .inr (.inr (answerCall_getUserData _ _ _ _ _ _ _ call other ?_ ?_))
  · rintro user name value rfl
    by_contra same
    obtain ⟨rfl, rfl⟩ := not_or.mp same |>.imp not_not.mp not_not.mp
    exact saves ⟨value, rfl⟩
  · rintro user name rfl
    by_contra same
    obtain ⟨rfl, rfl⟩ := not_or.mp same |>.imp not_not.mp not_not.mp
    exact deletes rfl

/-- Only counters that hold a number are ever stored. -/
def Countable (counter : Option Str) : Prop :=
  ∀ text, counter = some text → ∃ count updatedAt, text = .failedAttempts (some count) updatedAt

theorem Countable.attemptsIn {counter : Option Str} (countable : Countable counter)
    (self : LoginUseCase) (now : Nat) :
    ∃ count, self.attemptsIn counter now = .number count := by
  cases counter with
  | none => exact ⟨0, rfl⟩
  | some text =>
    obtain ⟨count, updatedAt, rfl⟩ := countable text rfl
    rw [LoginUseCase.attemptsIn_failedAttempts]
    split
    · exact ⟨0, rfl⟩
    · exact ⟨count, rfl⟩

theorem LoginPhase.saving_countable {p : Nat} {self : LoginUseCase} {email password : String}
    {history : List LogEntry} {value : Str}
    (phase : LoginPhase p self email password history
      (.awaiting (.store (.saveUserData "system" (failedKey email) value))))
    (reads : ∀ entry ∈ history, ∀ p found t,
      entry = ⟨p, .store (.getUserData "system" (failedKey email)), .ok found, t⟩ → Countable found) :
    ∃ count updatedAt, value = .failedAttempts (some count) updatedAt := by
  generalize shown : View.awaiting (Call.store (.saveUserData "system" (failedKey email) value)) = view at phase
  cases phase with
  | recording passed =>
    cases shown
    obtain ⟨count, number⟩ := (reads _ (List.mem_append_right _ (List.mem_cons_of_mem _
      (List.mem_singleton_self _))) _ _ _ rfl).attemptsIn self _
    exact ⟨if count < 2 ^ 53 then count + 1 else count, _, by rw [number]; rfl⟩
  | locking passed reached valid => simp at shown
  | _ => cases shown

theorem reach_countable {keycloak : κ}
    (reach : (authSystem server platform options).Reach permitted (.start clock (.fresh keycloak)) cfg) :
    Countable (counterOf cfg email) := by
  refine reach.invariant (fun shared log => Countable (shared.store.getUserData "system" (failedKey email)) ∧
    ∀ entry ∈ log, ∀ p found t, entry = ⟨p, .store (.getUserData "system" (failedKey email)), .ok found, t⟩ →
      Countable found) ?_ ?_ ?_ |>.1
  · exact ⟨fun text no => (by cases no), fun entry no => (by cases no)⟩
  · rintro (state | _) now shared log held
    · exact held
    · exact held
  · intro cfg q thread call rest choice reach found waiting _ held
    obtain ⟨stored, reads⟩ := held
    refine ⟨?_, ?_⟩
    · intro text present
      rcases answerCall_entry server platform options choice cfg.clock q call cfg.shared
        (totpSecret_ne_failedKey email).symm with ⟨value, rfl, saved⟩ | cleared | kept
      · have phase := reach_phase reach found
        rw [waiting] at phase
        have concerns : (Call.store (.saveUserData "system" (failedKey email) value)).concerns email = true := by
          simp [Call.concerns, Call.counts]
        obtain ⟨name, password, login, rfl⟩ := phase.login_of_concerns concerns
        rw [login] at phase
        obtain rfl := Option.some.inj (saved.symm.trans present)
        exact LoginPhase.saving_countable phase fun entry member => reads entry (System.mem_history.mp member).1
      · cases cleared.symm.trans present
      · exact stored text (kept.symm.trans present)
    · intro entry member p found t same
      rcases List.mem_append.mp member with old | new
      · exact reads entry old p found t same
      · rw [List.mem_singleton.mp new] at same
        cases same
        exact stored

/-- The stored counter has counted that many failures since `a` and is below the bound. -/
def Counted (self : LoginUseCase) (a failed : Nat) (counter : Option Str) : Prop :=
  ∃ count updatedAt, counter = some (.failedAttempts (some count) updatedAt) ∧ failed ≤ count ∧
    count < self.maxFailedAttempts ∧ a ≤ updatedAt

/-- Where the bookkeeping for `email` stands once `failed` wrong passwords have been checked since `a`: each
is counted, or the one request that is at work on it will count it, or the address is locked. -/
inductive Standing (self : LoginUseCase) (email : String) (a failed : Nat) (counter lock : Option Str)
    (pending : Nat → Option Call) : Prop
  | resting (idle : ∀ q, pending q = none) (unlocked : lock = none) (counted : Counted self a failed counter)
  | counting {p earlier} (own : pending p = some (.store (.getUserData "system" (failedKey email))))
      (alone : ∀ q, p ≠ q → pending q = none) (unlocked : lock = none) (more : failed = earlier + 1)
      (counted : earlier = 0 ∨ Counted self a earlier counter)
  | recording {p count updatedAt} (own : pending p = some (.store (.saveUserData "system" (failedKey email)
        (.failedAttempts (some count) updatedAt))))
      (alone : ∀ q, p ≠ q → pending q = none) (unlocked : lock = none) (enough : failed ≤ count)
      (recent : a ≤ updatedAt)
  | locking {p release} (own : pending p = some (.store (.saveUserData "system" (lockKey email)
      (.isoDate release))))
      (alone : ∀ q, p ≠ q → pending q = none) (unlocked : lock = none) (long : a + self.lockoutDurationMs ≤ release)
      (valid : release ≤ Date.maxTime)
  | locked {release} (idle : ∀ q, pending q = none) (stored : lock = some (.isoDate release))
      (long : a + self.lockoutDurationMs ≤ release) (valid : release ≤ Date.maxTime)

theorem Counted.attemptsIn {self : LoginUseCase} {a failed now : Nat} {counter : Option Str}
    (counted : Counted self a failed counter) (within : now < a + self.lockoutDurationMs) :
    ∃ count, self.attemptsIn counter now = .number count ∧ failed ≤ count := by
  obtain ⟨count, updatedAt, rfl, enough, _, recent⟩ := counted
  have fresh : ¬ now - updatedAt > self.lockoutDurationMs := by omega
  refine ⟨count, ?_, enough⟩
  rw [LoginUseCase.attemptsIn_failedAttempts, if_neg fresh, Option.elim_some]

/-- A step that is none of the bookkeeping for `email` and decides about no password changes nothing of it. -/
theorem resume_bystander (reach : (authSystem server platform options).Reach permitted (.start clock world) cfg)
    {q : Nat} {thread : Thread Call.Ans Thrown Request Response} {call : Call}
    {rest : Except Thrown call.Ans → Service Response} (found : cfg.threads[q]? = some thread)
    (waiting : thread.state = .awaiting call rest) (free : pendingAt cfg email q = none)
    (notRejected : guessRejected email ⟨q, call, (answerCall server platform options plan cfg.clock q call
      cfg.shared).1, cfg.clock⟩ = false)
    (notAccepted : guessAccepted email ⟨q, call, (answerCall server platform options plan cfg.clock q call
      cfg.shared).1, cfg.clock⟩ = false)
    (holding : ∀ text, lockOf cfg email = some text → lockedAt text cfg.clock = true) :
    let next := (authSystem server platform options).resume cfg q thread call rest plan
    pendingAt next email = pendingAt cfg email ∧ counterOf next email = counterOf cfg email ∧
      lockOf next email = lockOf cfg email := by
  intro next
  have idle : call.counts email = false ∧ call.clears email = false := by
    by_contra busy
    have concerned : call.counts email = true ∨ call.clears email = true := by
      cases counts : call.counts email <;> simp_all
    exact absurd (pendingAt_eq_some.mpr ⟨thread, rest, found, waiting, concerned⟩) (by simp [free])
  refine ⟨?_, answerCall_untouched idle.1 idle.2 (.inl rfl), answerCall_untouched idle.1 idle.2 (.inr rfl)⟩
  funext p
  by_cases own : q = p
  swap
  · exact pendingAt_resume_other own
  subst own
  rw [free]
  refine Option.eq_none_iff_forall_ne_some.mpr fun due waits => ?_
  rcases (pendingAt_resume_self reach found waiting).2 due waits with
    obliged | ⟨text, same, entry, past⟩ | clears | accepted
  · rcases dueAfter_cases obliged with ⟨_, _, _, _, same, _⟩ | ⟨_, _, _, same, _⟩ | ⟨_, _, _, _, same, _⟩
    · rw [same] at notRejected
      simp [guessRejected] at notRejected
    · have counts := congrArg Entry.call same
      simp only at counts
      simp [counts, Call.counts] at idle
    · have counts := congrArg Entry.call same
      simp only at counts
      simp [counts, Call.counts] at idle
  · simp only at same past
    subst same
    simp only [answerCall, answerStore, Entry.mk.injEq, heq_eq_eq, true_and, Except.ok.injEq, and_true] at entry
    rw [holding text entry] at past
    cases past
  · simp only at clears
    rw [idle.2] at clears
    cases clears
  · rw [accepted] at notAccepted
    cases notAccepted

theorem pendingAt_call {q : Nat} {thread : Thread Call.Ans Thrown Request Response} {call due : Call}
    {rest : Except Thrown call.Ans → Service Response} (found : cfg.threads[q]? = some thread)
    (waiting : thread.state = .awaiting call rest) (own : pendingAt cfg email q = some due) : call = due := by
  obtain ⟨same, _, at_q, waits, _⟩ := pendingAt_eq_some.mp own
  cases Option.some.inj (found.symm.trans at_q)
  rw [waiting] at waits
  cases waits
  rfl

section
variable {q : Nat} {thread : Thread Call.Ans Thrown Request Response}

theorem resume_others {call : Call} {rest : Except Thrown call.Ans → Service Response}
    (alone : ∀ r, q ≠ r → pendingAt cfg email r = none) :
    ∀ r, q ≠ r → pendingAt ((authSystem server platform options).resume cfg q thread call rest plan)
      email r = none := by
  intro r other
  rw [pendingAt_resume_other other]
  exact alone r other

/-- Once the only request at work on the bookkeeping takes a step that leads to nothing, none is at work on it. -/
theorem resume_idle {call : Call} {rest : Except Thrown call.Ans → Service Response}
    (reach : (authSystem server platform options).Reach permitted (.start clock world) cfg)
    (found : cfg.threads[q]? = some thread) (waiting : thread.state = .awaiting call rest)
    (alone : ∀ r, q ≠ r → pendingAt cfg email r = none)
    (free : ∀ due, ¬ options.loginUseCase.LeadsTo email ⟨q, call, (answerCall server platform options plan
      cfg.clock q call cfg.shared).1, cfg.clock⟩ due) :
    ∀ r, pendingAt ((authSystem server platform options).resume cfg q thread call rest plan) email r = none := by
  intro r
  by_cases self : q = r
  · subst self
    exact Option.eq_none_iff_forall_ne_some.mpr fun due waits =>
      free due ((pendingAt_resume_self reach found waiting).2 due waits)
  · exact resume_others alone r self

/-- The request that reads the counter will write it back with one more failure. -/
theorem Standing.counted {keycloak : κ} {a failed earlier : Nat}
    (small : options.loginUseCase.maxFailedAttempts ≤ 2 ^ 53)
    {rest : Except Thrown (Call.store (.getUserData "system" (failedKey email))).Ans → Service Response}
    (reach : (authSystem server platform options).Reach permitted (.start clock (.fresh keycloak)) cfg)
    (found : cfg.threads[q]? = some thread)
    (waiting : thread.state = .awaiting (.store (.getUserData "system" (failedKey email))) rest)
    (alone : ∀ r, q ≠ r → pendingAt cfg email r = none) (unlocked : lockOf cfg email = none)
    (more : failed = earlier + 1)
    (counted : earlier = 0 ∨ Counted options.loginUseCase a earlier (counterOf cfg email))
    (since : a ≤ cfg.clock) (within : cfg.clock < a + options.loginUseCase.lockoutDurationMs) :
    let next := (authSystem server platform options).resume cfg q thread _ rest plan
    Standing options.loginUseCase email a failed (counterOf next email) (lockOf next email)
      (pendingAt next email) := by
  have counted : ∃ count, options.loginUseCase.attemptsIn (counterOf cfg email) cfg.clock = .number count ∧
      earlier ≤ count ∧ earlier < 2 ^ 53 := by
    rcases counted with rfl | counted
    · obtain ⟨count, number⟩ := (reach_countable reach).attemptsIn options.loginUseCase cfg.clock
      exact ⟨count, number, Nat.zero_le _, by decide⟩
    · obtain ⟨count, number, enough⟩ := counted.attemptsIn within
      obtain ⟨_, _, _, more, short, _⟩ := counted
      exact ⟨count, number, enough, by omega⟩
  obtain ⟨count, number, enough, exact⟩ := counted
  have grown : failed ≤ if count < 2 ^ 53 then count + 1 else count := by split <;> omega
  refine .recording ((pendingAt_resume_self reach found waiting).1 _ ?_) (resume_others alone) unlocked grown since
  change (if _ then some (Call.store (.saveUserData "system" (failedKey email) (.failedAttempts
    (options.loginUseCase.attemptsIn (counterOf cfg email) cfg.clock).plusOne.stringify cfg.clock))) else none) = _
  simp only [number, JsValue.plusOne, JsValue.stringify, and_self, if_true]

/-- The request that writes the counter goes on to lock the address once the bound is reached. -/
theorem Standing.recorded {a failed count updatedAt : Nat}
    {rest : Except Thrown (Call.store (.saveUserData "system" (failedKey email)
      (.failedAttempts (some count) updatedAt))).Ans → Service Response}
    (reach : (authSystem server platform options).Reach permitted (.start clock world) cfg)
    (found : cfg.threads[q]? = some thread)
    (waiting : thread.state = .awaiting (.store (.saveUserData "system" (failedKey email)
      (.failedAttempts (some count) updatedAt))) rest)
    (alone : ∀ r, q ≠ r → pendingAt cfg email r = none) (unlocked : lockOf cfg email = none)
    (enough : failed ≤ count) (recent : a ≤ updatedAt) (since : a ≤ cfg.clock)
    (valid : cfg.clock + options.loginUseCase.lockoutDurationMs ≤ Date.maxTime) :
    let next := (authSystem server platform options).resume cfg q thread _ rest plan
    Standing options.loginUseCase email a failed (counterOf next email) (lockOf next email)
      (pendingAt next email) := by
  intro next
  have stored : counterOf next email = some (.failedAttempts (some count) updatedAt) :=
    getUserData_saveUserData_self ..
  have stillUnlocked : lockOf next email = none :=
    (getUserData_saveUserData_other _ _ (.inr (lockKey_ne_failedKey email email))).trans unlocked
  by_cases reached : options.loginUseCase.maxFailedAttempts ≤ count
  · refine .locking ((pendingAt_resume_self reach found waiting).1 _ ?_) (resume_others alone) stillUnlocked
      (Nat.add_le_add_right since _) valid
    simp [dueAfter, answerCall, answerStore, JsValue.atLeast, reached, valid]
  · refine .resting (resume_idle reach found waiting alone fun due leads => ?_) stillUnlocked
      ⟨count, updatedAt, stored, enough, Nat.not_le.mp reached, recent⟩
    rcases leads with obliged | ⟨text, same, _⟩ | clears | accepted
    · simp [dueAfter, answerCall, answerStore, JsValue.atLeast, reached] at obliged
    · cases same
    · cases clears
    · cases accepted

/-- The request that writes the lock is done with the bookkeeping. -/
theorem Standing.lockedOut {a failed : Nat} {release : Nat}
    {rest : Except Thrown (Call.store (.saveUserData "system" (lockKey email) (.isoDate release))).Ans →
      Service Response}
    (reach : (authSystem server platform options).Reach permitted (.start clock world) cfg)
    (found : cfg.threads[q]? = some thread)
    (waiting : thread.state = .awaiting (.store (.saveUserData "system" (lockKey email) (.isoDate release))) rest)
    (alone : ∀ r, q ≠ r → pendingAt cfg email r = none)
    (long : a + options.loginUseCase.lockoutDurationMs ≤ release) (valid : release ≤ Date.maxTime) :
    let next := (authSystem server platform options).resume cfg q thread _ rest plan
    Standing options.loginUseCase email a failed (counterOf next email) (lockOf next email)
      (pendingAt next email) := by
  refine .locked (resume_idle reach found waiting alone fun due leads => ?_) (getUserData_saveUserData_self ..) long
    valid
  rcases leads with obliged | ⟨text, same, _⟩ | clears | accepted
  · simp [dueAfter] at obliged
  · cases same
  · cases clears
  · cases accepted

end

/-- Inside the window every step that decides about no password keeps the bookkeeping in order. -/
theorem Standing.next {keycloak : κ} {a failed : Nat}
    (standing : Standing options.loginUseCase email a failed (counterOf cfg email) (lockOf cfg email)
      (pendingAt cfg email))
    (reach : (authSystem server platform options).Reach permitted (.start clock (.fresh keycloak)) cfg)
    (small : options.loginUseCase.maxFailedAttempts ≤ 2 ^ 53) {q : Nat}
    {thread : Thread Call.Ans Thrown Request Response} {call : Call}
    {rest : Except Thrown call.Ans → Service Response} (found : cfg.threads[q]? = some thread)
    (waiting : thread.state = .awaiting call rest)
    (notRejected : guessRejected email ⟨q, call, (answerCall server platform options plan cfg.clock q call
      cfg.shared).1, cfg.clock⟩ = false)
    (notAccepted : guessAccepted email ⟨q, call, (answerCall server platform options plan cfg.clock q call
      cfg.shared).1, cfg.clock⟩ = false)
    (since : a ≤ cfg.clock) (within : cfg.clock < a + options.loginUseCase.lockoutDurationMs)
    (valid : cfg.clock + options.loginUseCase.lockoutDurationMs ≤ Date.maxTime) :
    let next := (authSystem server platform options).resume cfg q thread call rest plan
    Standing options.loginUseCase email a failed (counterOf next email) (lockOf next email)
      (pendingAt next email) := by
  intro next
  have bystander (free : pendingAt cfg email q = none)
      (holding : ∀ text, lockOf cfg email = some text → lockedAt text cfg.clock = true) :
      Standing options.loginUseCase email a failed (counterOf next email) (lockOf next email)
        (pendingAt next email) := by
    obtain ⟨samePending, sameCounter, sameLock⟩ :=
      resume_bystander reach found waiting free notRejected notAccepted holding
    rw [samePending, sameCounter, sameLock]
    exact standing
  have unlockedHolds (unlocked : lockOf cfg email = none) :
      ∀ text, lockOf cfg email = some text → lockedAt text cfg.clock = true := by
    intro text stored
    rw [unlocked] at stored
    cases stored
  cases standing with
  | resting idle unlocked counted => exact bystander (idle q) (unlockedHolds unlocked)
  | @counting p earlier own alone unlocked more counted =>
    by_cases active : p = q
    swap
    · exact bystander (alone q active) (unlockedHolds unlocked)
    subst active
    obtain rfl := pendingAt_call found waiting own
    exact .counted small reach found waiting alone unlocked more counted since within
  | @recording p count updatedAt own alone unlocked enough recent =>
    by_cases active : p = q
    swap
    · exact bystander (alone q active) (unlockedHolds unlocked)
    subst active
    obtain rfl := pendingAt_call found waiting own
    exact .recorded reach found waiting alone unlocked enough recent since valid
  | @locking p release own alone unlocked long valid =>
    by_cases active : p = q
    swap
    · exact bystander (alone q active) (unlockedHolds unlocked)
    subst active
    obtain rfl := pendingAt_call found waiting own
    exact .lockedOut reach found waiting alone long valid
  | @locked release idle stored long valid =>
    refine bystander (idle q) fun text present => ?_
    rw [stored] at present
    cases present
    simp only [lockedAt, Date.parse, Date.ofMs, valid, if_true, Option.any_some, decide_eq_true_eq]
    omega

/-- Whatever is stored as a lock is a valid date. -/
theorem Phase.locks {p : Nat} {request : Request} {history : List LogEntry} {value : Str}
    (phase : Phase platform options p request history
      (.awaiting (.store (.saveUserData "system" (lockKey email) value)))) :
    ∃ release, value = .isoDate release ∧ release ≤ Date.maxTime := by
  have concerns : (Call.store (.saveUserData "system" (lockKey email) value)).concerns email = true := by
    simp [Call.concerns, Call.counts]
  obtain ⟨name, password, rfl, -⟩ := phase.login_of_concerns concerns
  generalize shown : View.awaiting (Call.store (.saveUserData "system" (lockKey email) value)) = view at phase
  cases phase with
  | locking passed reached valid =>
    simp only [View.awaiting.injEq, Call.store.injEq, StoreCall.saveUserData.injEq] at shown
    exact ⟨_, shown.2.2, valid⟩
  | recording passed => simp at shown
  | _ => cases shown

theorem reach_lock {keycloak : κ}
    (reach : (authSystem server platform options).Reach permitted (.start clock (.fresh keycloak)) cfg) {text : Str}
    (stored : lockOf cfg email = some text) : text.truthy = true := by
  refine reach.invariant (fun shared _ => ∀ text, shared.store.getUserData "system" (lockKey email) = some text →
    text.truthy = true) ?_ ?_ ?_ text stored
  · exact fun text no => by cases no
  · rintro (state | _) now shared log held
    · exact held
    · exact held
  · intro cfg q thread call rest choice reach found waiting _ held text present
    rcases answerCall_entry server platform options choice cfg.clock q call cfg.shared
      (totpSecret_ne_lockKey email).symm with ⟨value, rfl, saved⟩ | cleared | kept
    · have phase := reach_phase reach found
      rw [waiting] at phase
      obtain ⟨release, rfl, -⟩ := phase.locks
      cases saved.symm.trans present
      rfl
    · cases cleared.symm.trans present
    · exact held text (kept.symm.trans present)

/-- The request is a login for `email` that is past its look at the lock, and not done with the password and the
bookkeeping. -/
def underWay (cfg : AuthConfig κ) (email : String) (p : Nat) : Bool := (cfg.awaited p).any (Call.concerns email)

variable (options) in
/-- A login for `email` comes to look at the lock only while no other one is under way. Deadlines are dates. -/
def oneGuessAtATime (email : String) (cfg : AuthConfig κ) (event : AuthEvent κ) : Prop :=
  cfg.clock + options.loginUseCase.lockoutDurationMs ≤ Date.maxTime ∧
  ∀ q plan, event = .resume q plan → (cfg.awaited q).any (Call.checksLock email) = true →
    ∀ p, underWay cfg email p = false

theorem underWay_lt {p : Nat} (active : underWay cfg email p = true) : p < cfg.threads.length := by
  rw [underWay, Option.any_eq_true] at active
  obtain ⟨call, waits, -⟩ := active
  obtain ⟨thread, rest, found, -⟩ := System.awaited_eq_some.mp waits
  exact (List.getElem?_eq_some_iff.mp found).1

instance (event : AuthEvent κ) : Decidable (oneGuessAtATime options email cfg event) :=
  match event with
  | .resume q plan => decidable_of_iff (cfg.clock + options.loginUseCase.lockoutDurationMs ≤ Date.maxTime ∧
      ((cfg.awaited q).any (Call.checksLock email) = true → ∀ p < cfg.threads.length,
        underWay cfg email p = false)) <| by
    refine and_congr_right fun _ => ⟨?_, fun alone looks p _ => alone q plan rfl looks p⟩
    rintro alone _ _ ⟨⟩ looks p
    exact Bool.eq_false_iff.mpr fun active => Bool.eq_false_iff.mp (alone looks p (underWay_lt active)) active
  | .tick delay => decidable_of_iff (cfg.clock + options.loginUseCase.lockoutDurationMs ≤ Date.maxTime) <|
    (and_iff_left fun _ _ no => by cases no).symm
  | .disturb change => decidable_of_iff (cfg.clock + options.loginUseCase.lockoutDurationMs ≤ Date.maxTime) <|
    (and_iff_left fun _ _ no => by cases no).symm
  | .arrive request => decidable_of_iff (cfg.clock + options.loginUseCase.lockoutDurationMs ≤ Date.maxTime) <|
    (and_iff_left fun _ _ no => by cases no).symm

/-- At most one login for `email` is under way, and it has left no lock behind it. -/
structure Alone (cfg : AuthConfig κ) (email : String) : Prop where
  one : ∀ p q, underWay cfg email p = true → underWay cfg email q = true → p = q
  unlocked : ∀ p call, cfg.awaited p = some call → call.unlocked email = true → lockOf cfg email = none

theorem underWay_eq_true {p : Nat} : underWay cfg email p = true ↔
    ∃ call, cfg.awaited p = some call ∧ call.concerns email = true := by
  rw [underWay, Option.any_eq_true]

theorem Call.concerns_of_unlocked {call : Call} (unlocked : call.unlocked email = true) :
    call.concerns email = true := by
  unfold Call.unlocked at unlocked
  split at unlocked <;> simp_all [Call.concerns, Call.clears]

/-- A request that is about to make a call for `email` has made one before, or has just looked at the lock. -/
theorem reach_entered
    (reach : (authSystem server platform options).Reach permitted (.start clock world) cfg) {p : Nat} {call : Call}
    (waits : cfg.awaited p = some call) (concerns : call.concerns email = true) : ∃ entry,
      (cfg.history p).getLast? = some entry ∧
      (entry.call.checksLock email = true ∨ entry.call.concerns email = true) ∧
      (call.unlocked email = true →
        (∃ found, entry = ⟨entry.request, .store (.getUserData "system" (lockKey email)), .ok found, entry.time⟩ ∧
          found.filter Str.truthy = none) ∨
        entry.call = .store (.deleteUserData "system" (lockKey email)) ∨ entry.call.unlocked email = true) := by
  obtain ⟨thread, rest, found, waiting⟩ := System.awaited_eq_some.mp waits
  have phase := reach_phase reach found
  rw [waiting] at phase
  obtain ⟨name, password, login, rfl⟩ := phase.login_of_concerns concerns
  rw [login] at phase
  exact LoginPhase.enters phase concerns

theorem Alone.kept {next : AuthConfig κ} (alone : Alone cfg email)
    (same : ∀ p call, next.awaited p = some call → call.concerns email = true → cfg.awaited p = some call)
    (lock : lockOf next email = lockOf cfg email) : Alone next email where
  one p q first second := by
    obtain ⟨call, waits, concerns⟩ := underWay_eq_true.mp first
    obtain ⟨call', waits', concerns'⟩ := underWay_eq_true.mp second
    exact alone.one p q (underWay_eq_true.mpr ⟨call, same p call waits concerns, concerns⟩)
      (underWay_eq_true.mpr ⟨call', same q call' waits' concerns', concerns'⟩)
  unlocked p call waits past := by
    rw [lock]
    exact alone.unlocked p call (same p call waits (Call.concerns_of_unlocked past)) past

/-- A step of a login that is under way, or gets under way while no other is. -/
theorem Alone.resume {keycloak : κ} (alone : Alone cfg email)
    (reach : (authSystem server platform options).Reach permitted (.start clock (.fresh keycloak)) cfg) {q : Nat}
    {thread : Thread Call.Ans Thrown Request Response} {call : Call}
    {rest : Except Thrown call.Ans → Service Response} (found : cfg.threads[q]? = some thread)
    (waiting : thread.state = .awaiting call rest) (others : ∀ p, q ≠ p → underWay cfg email p = false) :
    Alone ((authSystem server platform options).resume cfg q thread call rest plan) email := by
  have self {p : Nat} (active : underWay ((authSystem server platform options).resume cfg q thread call rest plan)
      email p = true) : q = p := by
    by_contra different
    rw [underWay, System.awaited_resume_other different] at active
    rw [← underWay, others p different] at active
    cases active
  refine ⟨fun p r first second => (self first).symm.trans (self second), fun p due waits past => ?_⟩
  have concerns := Call.concerns_of_unlocked past
  obtain rfl := self (underWay_eq_true.mpr ⟨due, waits, concerns⟩)
  obtain ⟨entry, last, -, ways⟩ := reach_entered
    (reach.any.next trivial (System.advance_resume plan found waiting)) waits concerns
  rw [System.resume_history_self, List.getLast?_concat] at last
  cases last
  rcases ways past with ⟨text, same, absent⟩ | removed | still
  · simp only [Entry.mk.injEq, true_and] at same
    obtain ⟨rfl, answer, -⟩ := same
    have looked : lockOf cfg email = text := Except.ok.inj (eq_of_heq answer)
    change lockOf cfg email = none
    refine Option.eq_none_iff_forall_ne_some.mpr fun lock stored => ?_
    rw [← looked, stored, Option.filter_some, if_pos (reach_lock reach stored)] at absent
    cases absent
  · simp only at removed
    subst removed
    exact getUserData_deleteUserData_self ..
  · have before := alone.unlocked q call (System.awaited_eq_some.mpr ⟨thread, rest, found, waiting⟩) still
    rcases answerCall_entry server platform options plan cfg.clock q call cfg.shared
      (totpSecret_ne_lockKey email).symm with ⟨value, rfl, -⟩ | cleared | kept
    · cases still
    · exact cleared
    · exact kept.trans before

/-- By induction on the run: whoever looks at the lock finds nobody under way, and is alone from then on. -/
theorem reach_alone {keycloak : κ} (reach : (authSystem server platform options).Reach
    (oneGuessAtATime options email) (.start clock (.fresh keycloak)) cfg) : Alone cfg email := by
  induction reach with
  | start => exact ⟨fun _ _ no => (by cases no), fun _ _ no => (by cases no)⟩
  | @next before after event previous allowed step ih =>
    rcases System.advance_cases step with ⟨delay, _, rfl⟩ | ⟨change, _, rfl⟩ | ⟨request, rfl, rfl⟩ |
      ⟨q, plan, thread, call, rest, rfl, found, waiting, rfl⟩
    · exact ⟨ih.one, ih.unlocked⟩
    · cases change <;> exact ⟨ih.one, ih.unlocked⟩
    · refine ih.kept (fun p call waits concerns => ?_) rfl
      rcases Nat.lt_trichotomy p before.threads.length with earlier | rfl | later
      · rwa [Config.awaited, System.arrive, List.getElem?_append_left earlier] at waits
      · obtain ⟨entry, last, -⟩ := reach_entered (previous.any.next trivial step) waits concerns
        have fresh : ((authSystem server platform options).arrive before request).history
          before.threads.length = [] :=
          previous.history_fresh
        rw [fresh] at last
        cases last
      · rw [Config.awaited, System.arrive, List.getElem?_eq_none (by simpa using Nat.succ_le_of_lt later)] at waits
        cases waits
    · have waits : before.awaited q = some call := System.awaited_eq_some.mpr ⟨thread, rest, found, waiting⟩
      by_cases looks : call.checksLock email = true
      · exact ih.resume previous found waiting fun p _ => allowed.2 q plan rfl (by rw [waits]; exact looks) p
      by_cases concerns : call.concerns email = true
      · refine ih.resume previous found waiting fun p different => Bool.eq_false_iff.mpr fun active => different ?_
        exact ih.one q p (underWay_eq_true.mpr ⟨call, waits, concerns⟩) active
      have idle : call.counts email = false ∧ call.clears email = false := by
        rw [Bool.eq_false_iff, Bool.eq_false_iff, ← not_or]
        exact fun busy => concerns (Call.concerns_of_busy busy)
      refine ih.kept (fun p due waits due_concerns => ?_) (answerCall_untouched idle.1 idle.2 (.inr rfl))
      by_cases own : q = p
      · subst own
        obtain ⟨entry, last, entered, -⟩ := reach_entered (previous.any.next trivial step) waits due_concerns
        rw [System.resume_history_self, List.getLast?_concat] at last
        cases last
        rcases entered with looked | made
        · exact absurd looked looks
        · exact absurd made concerns
      · rwa [System.awaited_resume_other own] at waits

/-- A refused guess of a login that is alone is the next one to be counted. -/
theorem Standing.guess {keycloak : κ} {a failed : Nat}
    (standing : failed = 0 ∨ Standing options.loginUseCase email a failed (counterOf cfg email) (lockOf cfg email)
      (pendingAt cfg email)) (positive : 1 ≤ options.loginUseCase.maxFailedAttempts)
    (reach : (authSystem server platform options).Reach permitted (.start clock (.fresh keycloak)) cfg) {q : Nat}
    {thread : Thread Call.Ans Thrown Request Response} {call : Call}
    {rest : Except Thrown call.Ans → Service Response} (found : cfg.threads[q]? = some thread)
    (waiting : thread.state = .awaiting call rest)
    (rejected : guessRejected email ⟨q, call, (answerCall server platform options plan cfg.clock q call
      cfg.shared).1, cfg.clock⟩ = true)
    (alone : Alone cfg email) :
    let next := (authSystem server platform options).resume cfg q thread call rest plan
    failed + 1 ≤ options.loginUseCase.maxFailedAttempts ∧ Standing options.loginUseCase email a (failed + 1)
      (counterOf next email) (lockOf next email) (pendingAt next email) := by
  intro next
  obtain ⟨password, message, same⟩ := guessRejected_spec rejected
  simp only [Entry.mk.injEq, true_and, and_true] at same
  obtain ⟨rfl, answer⟩ := same
  have waits : cfg.awaited q = some (.auth (.authenticate email password)) :=
    System.awaited_eq_some.mpr ⟨thread, rest, found, waiting⟩
  have unlocked : lockOf cfg email = none := alone.unlocked q _ waits (by simp [Call.unlocked])
  have idle (p : Nat) : pendingAt cfg email p = none := by
    refine Option.eq_none_iff_forall_ne_some.mpr fun due pending => ?_
    obtain ⟨other, more, at_p, busy, concerned⟩ := pendingAt_eq_some.mp pending
    have active := underWay_eq_true.mpr
      ⟨due, System.awaited_eq_some.mpr ⟨other, more, at_p, busy⟩, Call.concerns_of_busy concerned⟩
    obtain rfl := alone.one q p (underWay_eq_true.mpr ⟨_, waits, by simp [Call.concerns]⟩) active
    obtain rfl := pendingAt_call found waiting pending
    simp [Call.counts, Call.clears] at concerned
  have counted : failed = 0 ∨ Counted options.loginUseCase a failed (counterOf cfg email) := by
    rcases standing with none | standing
    · exact .inl none
    cases standing with
    | resting idle unlocked counted => exact .inr counted
    | counting own => simp [idle] at own
    | recording own => simp [idle] at own
    | locking own => simp [idle] at own
    | locked idle stored => simp [unlocked] at stored
  have below : failed + 1 ≤ options.loginUseCase.maxFailedAttempts := by
    rcases counted with rfl | ⟨count, updatedAt, _, enough, short, _⟩
    · exact positive
    · omega
  have sameCounter : counterOf next email = counterOf cfg email := answerCall_untouched rfl rfl (.inl rfl)
  have sameLock : lockOf next email = none := (answerCall_untouched rfl rfl (.inr rfl)).trans unlocked
  refine ⟨below, .counting ((pendingAt_resume_self reach found waiting).1 _ ?_) (fun r different => ?_) sameLock rfl
    (sameCounter ▸ counted)⟩
  · rw [eq_of_heq answer]
    simp [dueAfter]
  · rw [pendingAt_resume_other different]
    exact idle r

theorem pendingAt_arrive (request : Request) :
    pendingAt ((authSystem server platform options).arrive cfg request) email = pendingAt cfg email := by
  funext p
  simp only [pendingAt, System.arrive]
  rcases Nat.lt_trichotomy p cfg.threads.length with earlier | rfl | later
  · rw [List.getElem?_append_left earlier]
  · rw [List.getElem?_concat_length, List.getElem?_eq_none (Nat.le_refl _)]
    refine Option.eq_none_iff_forall_ne_some.mpr fun due waits => ?_
    have phase := (phase_along platform options cfg.threads.length cfg.clock request).settle.holds
    obtain ⟨entry, last, _⟩ := phase.pending waits
    cases last
  · rw [List.getElem?_eq_none (by simpa using Nat.succ_le_of_lt later), List.getElem?_eq_none (Nat.le_of_lt later)]

theorem reach_standing {keycloak : κ} {a : Nat} (positive : 1 ≤ options.loginUseCase.maxFailedAttempts)
    (small : options.loginUseCase.maxFailedAttempts ≤ 2 ^ 53)
    (reach : (authSystem server platform options).Reach (oneGuessAtATime options email)
      (.start clock (.fresh keycloak)) cfg)
    (refused : ∀ entry ∈ cfg.log, guessAccepted email entry = true →
      ¬ (a ≤ entry.time ∧ entry.time < a + options.loginUseCase.lockoutDurationMs)) :
    let failed := rejectedGuesses email a (a + options.loginUseCase.lockoutDurationMs) cfg.log
    failed ≤ options.loginUseCase.maxFailedAttempts ∧
      (cfg.clock < a + options.loginUseCase.lockoutDurationMs → failed = 0 ∨
        Standing options.loginUseCase email a failed (counterOf cfg email)
          (lockOf cfg email) (pendingAt cfg email)) := by
  induction reach with
  | start => exact ⟨Nat.zero_le _, fun _ => .inl rfl⟩
  | @next before after event previous allowed step ih =>
    rcases System.advance_cases step with ⟨delay, _, rfl⟩ | ⟨change, _, rfl⟩ | ⟨request, _, rfl⟩ |
      ⟨q, plan, thread, call, rest, rfl, found, waiting, rfl⟩
    · obtain ⟨bound, standing⟩ := ih refused
      exact ⟨bound, fun within => standing (Nat.lt_of_le_of_lt (Nat.le_add_right _ _) within)⟩
    · cases change <;> exact ih refused
    · obtain ⟨bound, standing⟩ := ih refused
      refine ⟨bound, fun within => (standing within).imp_right fun standing => ?_⟩
      rw [pendingAt_arrive]
      exact standing
    · let entry : LogEntry := ⟨q, call, (answerCall server platform options plan before.clock q call
        before.shared).1, before.clock⟩
      obtain ⟨bound, standing⟩ := ih fun old member => refused old (List.mem_append_left _ member)
      have notAccepted := refused entry (List.mem_append_right _ (List.mem_singleton_self _))
      have more : rejectedGuesses email a (a + options.loginUseCase.lockoutDurationMs)
          ((authSystem server platform options).resume before q thread call rest plan).log =
          rejectedGuesses email a (a + options.loginUseCase.lockoutDurationMs) before.log +
            if guessRejected email entry ∧ a ≤ before.clock ∧
              before.clock < a + options.loginUseCase.lockoutDurationMs then 1 else 0 := by
        simp [rejectedGuesses, System.resume, List.countP_append, List.countP_singleton, entry, authSystem]
      simp only [more]
      by_cases window : a ≤ before.clock ∧ before.clock < a + options.loginUseCase.lockoutDurationMs
      · by_cases rejected : guessRejected email entry = true
        · rw [if_pos ⟨rejected, window⟩]
          have counted := Standing.guess (standing window.2) positive previous found waiting rejected
            (reach_alone previous)
          exact ⟨counted.1, fun _ => .inr counted.2⟩
        · rw [if_neg fun both => rejected both.1]
          have notRejected : guessRejected email entry = false := by simpa using rejected
          have notAccepted : guessAccepted email entry = false :=
            Bool.eq_false_iff.mpr fun accepted => notAccepted accepted window
          exact ⟨bound, fun within => (standing within).imp_right fun standing =>
            standing.next previous small found waiting notRejected notAccepted window.1 within allowed.1⟩
      · rw [if_neg fun both => window both.2]
        refine ⟨bound, fun within => .inl ?_⟩
        -- the window has not begun, so nothing in the log lies inside it
        refine List.countP_eq_zero.mpr fun old member inside => window ⟨?_, within⟩
        simp only [Bool.decide_and, Bool.and_eq_true, decide_eq_true_eq] at inside
        exact Nat.le_trans inside.2.1 (previous.time_le old member)

variable (server platform options) in
/-- In every run of concurrent requests whose events are `permitted`, a window as long as a lockout in which
no password for `email` is accepted sees at most as many wrong ones as lock the address. -/
def GuessesBounded (permitted : String → AuthConfig κ → AuthEvent κ → Prop) (clock : Nat) (keycloak : κ) : Prop :=
  ∀ cfg email a,
    (authSystem server platform options).Reach (permitted email) (.start clock (.fresh keycloak)) cfg →
    (∀ entry ∈ cfg.log, guessAccepted email entry = true →
      ¬ (a ≤ entry.time ∧ entry.time < a + options.loginUseCase.lockoutDurationMs)) →
    rejectedGuesses email a (a + options.loginUseCase.lockoutDurationMs) cfg.log ≤
      options.loginUseCase.maxFailedAttempts

theorem guesses_bounded_one_at_a_time {keycloak : κ} (positive : 1 ≤ options.loginUseCase.maxFailedAttempts)
    (small : options.loginUseCase.maxFailedAttempts ≤ 2 ^ 53) :
    GuessesBounded server platform options (oneGuessAtATime options) clock keycloak :=
  fun _ _ _ reach refused => (reach_standing positive small reach refused).1

end

namespace Sample

def guess : AuthEvent Realm := .arrive (.login "ann@mail" "a guess")

/-- Five wrong passwords in a row, the last of which locks the address. The first takes that many steps. -/
def lockingGuesses (first steps : Nat) : List (AuthEvent Realm) :=
  guess :: List.replicate steps (.resume first .good) ++
    (List.range' (first + 1) 3).flatMap (fun p => guess :: List.replicate 4 (.resume p .good)) ++
    guess :: List.replicate 5 (.resume (first + 4) .good)

/-- A sixth guess is turned away. -/
def outguessed : AuthConfig Realm := after start (lockingGuesses 0 4 ++ [guess, .resume 5 .good])

theorem outguessed_reach : system.Reach (oneGuessAtATime options "ann@mail") start outguessed :=
  after_reach_allows (by decide +kernel)

theorem guesses_bounded_one_at_a_time_outguessed :
    lockOf outguessed "ann@mail" = some (.isoDate 901000) ∧
      rejectedGuesses "ann@mail" 1000 901000 outguessed.log = options.loginUseCase.maxFailedAttempts := by
  refine ⟨rfl, Nat.le_antisymm (guesses_bounded_one_at_a_time (by decide) (by decide) outguessed "ann@mail" 1000
    outguessed_reach fun entry member accepted => ?_) (by decide +kernel)⟩
  cases (List.all_eq_true.mp (show outguessed.log.all (!guessAccepted "ann@mail" ·) = true from rfl) entry
    member).symm.trans (by rw [accepted])

/-- Six guesses that all find no lock before any of them is checked. -/
def guessing : AuthConfig Realm := after start (List.replicate 6 guess ++
  (List.range 6).map (.resume · .good) ++ (List.range 6).map (.resume · .good))

/-- All six are answered, though five lock the address. -/
theorem guesses_not_bounded : ¬ GuessesBounded Realm.server platform options (fun _ => anyEvent) 1000 realm := by
  intro bounded
  have six := bounded guessing "ann@mail" 1000 (after_reach (fun _ _ _ => trivial) rfl)
    fun entry member accepted => by
    cases (List.all_eq_true.mp (show guessing.log.all (!guessAccepted "ann@mail" ·) = true from rfl) entry
      member).symm.trans (by rw [accepted])
  exact absurd six (by decide +kernel)

end Sample

end KeycloakAuth
