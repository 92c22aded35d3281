import KeycloakAuth.BruteForce
import KeycloakAuth.Lockout

namespace KeycloakAuth
open Async Service LoginUseCase InMemoryTokenStore

/-- Only a login for the address looks at its lock. -/
theorem Phase.login_of_lockRead {platform : Platform} {options : Deployment} {p : Nat} {request : Request}
    {history : List LogEntry} {email : String} (phase : Phase platform options p request history
      (.awaiting (.store (.getUserData "system" (lockKey email))))) :
    ∃ name password, request = .login name password ∧ normalize platform name = email := by
  generalize shown : View.awaiting (Call.store (.getUserData "system" (lockKey email))) = view at phase
  cases request with
  | login name password =>
    refine ⟨name, password, rfl, ?_⟩
    cases phase with
    | lock => simpa [eq_comm] using shown
    | counting passed => simp at shown
    | secondFactor passed => simp [eq_comm] at shown
    | _ => cases shown
  | complete2FA token code => cases phase <;> cases shown
  | refresh token => cases phase <;> cases shown
  | forgotPassword email => cases phase <;> cases shown
  | sendMagicLink email => cases phase <;> cases shown
  | resetPassword token newPassword => cases phase <;> cases shown
  | verifyMagicLink token => cases phase <;> cases shown
  | logout token => cases phase <;> cases shown
  | register email username password => cases phase <;> cases shown
  | setup2FA userId => cases phase <;> cases shown
  | verify2FA userId code => cases phase <;> cases shown

/-- What a program has called once it makes only `allowed` calls. -/
theorem only_along {α : Type} {allowed : Call → Prop} {body : Service α}
    (only : body.Only allowed) {p now drawn : Nat}
    {before : List LogEntry} : body.Along (fun history _ => ∃ more, history = before ++ more ∧
      ∀ entry ∈ more, allowed entry.call) p now drawn before := by
  suffices ∀ more : List LogEntry, (∀ entry ∈ more, allowed entry.call) → body.Along (fun history _ =>
      ∃ more, history = before ++ more ∧ ∀ entry ∈ more, allowed entry.call) p now drawn (before ++ more) by
    simpa using this [] (by simp)
  induction body generalizing now drawn with
  | done value => exact fun more fine => ⟨more, rfl, fine⟩
  | fail error => exact fun more fine => ⟨more, rfl, fine⟩
  | clock rest ih => exact ih now (only now)
  | draw rest ih => exact ih ⟨p, drawn⟩ (only ⟨p, drawn⟩)
  | await call rest ih =>
    refine fun more fine => ⟨⟨more, rfl, fine⟩, fun answer later _ => ?_⟩
    rw [List.append_assoc]
    refine ih answer (only.2 answer) (more ++ [⟨p, call, answer, later⟩]) fun entry member => ?_
    rcases List.mem_append.mp member with old | new
    · exact fine entry old
    · exact List.mem_singleton.mp new ▸ only.1

/-- The entry is a look at the lock of `email` that finds it in force. -/
def findsLock (email : String) (entry : LogEntry) : Prop :=
  ∃ text, entry = ⟨entry.request, .store (.getUserData "system" (lockKey email)), .ok (some text), entry.time⟩ ∧
    text.truthy = true ∧ lockedAt text entry.time = true

section
variable {self : LoginUseCase} {platform : Platform} {email password : String}

/-- The calls that are no look at a lock. -/
def Call.noLockRead (call : Call) : Prop := ∀ email, call ≠ .store (.getUserData "system" (lockKey email))

theorem issue_noLockRead (result : AuthenticateResponse) : (self.issue email result).Only Call.noLockRead := by
  have saves (userId : String) (type : TokenType) (token : Str) (ttlMs : Nat) :
      (saveRecord userId type token ttlMs).Only Call.noLockRead := by
    intro id expiry created
    exact .perform fun other => by simp
  simp only [issue, tokenStore, randomHex, Program.bind_eq, Program.bind_assoc, Program.pure_eq, Program.done_bind]
  refine .bind (.perform fun other => by simp) fun _ => .bind (.perform fun other => by simp) fun _ =>
    .bind (.perform fun other => by simp) fun secret => ?_
  split
  · intro nonce
    simp only [Program.done_bind]
    exact .bind (saves _ _ _ _) fun _ => trivial
  · exact .bind (saves _ _ _ _) fun _ => trivial

/-- A login that finds a lock in force has made no other call, and is over. -/
theorem login_lockRead_along (platform : Platform) (options : Deployment) (p now : Nat) (name password : String) :
    ((Request.login name password).body platform options).Along (fun history view =>
      ∀ entry ∈ history, findsLock (normalize platform name) entry →
        history = [entry] ∧ view = .threw lockedError) p now 0 [] := by
  simp only [Request.body, execute, checkLock, tokenStore, Program.bind_eq, Program.bind_assoc]
  refine ⟨by simp, ?_⟩
  rintro (error | found) t -
  · intro entry member
    obtain rfl := List.mem_singleton.mp member
    rintro ⟨text, same, -⟩
    simp at same
  simp only [Program.ofExcept_ok, Program.done_bind, List.nil_append]
  -- a login that does not find a lock in force never looks at one again
  have passes (passed : ¬ findsLock (normalize platform name)
      ⟨p, .store (.getUserData "system" (lockKey (normalize platform name))), .ok found, t⟩)
        {body : Service Response}
      (only : body.Only Call.noLockRead) : body.Along (fun history view => ∀ entry ∈ history,
        findsLock (normalize platform name) entry → history = [entry] ∧ view = .threw lockedError) p t 0
      [⟨p, .store (.getUserData "system" (lockKey (normalize platform name))), .ok found, t⟩] := by
    refine (only_along only).mono ?_
    rintro _ view ⟨more, rfl, fine⟩ entry member finds
    rcases List.mem_append.mp member with early | late
    · rw [List.mem_singleton.mp early] at finds
      exact absurd finds passed
    · obtain ⟨text, same, -⟩ := finds
      have read := fine entry late (normalize platform name)
      rw [same] at read
      exact absurd rfl read
  have checks : ((options.loginUseCase.authenticate (normalize platform name) password).bind fun result =>
      (options.loginUseCase.issue (normalize platform name) result).bind fun result =>
        (.done (.login result) : Service Response)).Only Call.noLockRead := by
    refine .bind (authenticate_only _ ?_ ?_ ?_) fun result => .bind (issue_noLockRead result) fun _ => trivial
    · exact fun other => by simp
    · exact fun other => by simp
    · exact fun key value other => by simp
  cases present : Option.filter Str.truthy found with
  | none =>
    refine passes ?_ checks
    rintro ⟨text, same, truthy, -⟩
    simp only [Entry.mk.injEq, heq_eq_eq, Except.ok.injEq, true_and, and_true] at same
    simp [same, truthy] at present
  | some text =>
    obtain ⟨rfl, truthy⟩ := Option.filter_eq_some_iff.mp present
    refine .now ?_
    by_cases holds : lockedAt text t = true
    · simp only [Program.done_bind, holds, if_true]
      intro entry member _
      exact ⟨by rw [List.mem_singleton.mp member], rfl⟩
    · simp only [Program.done_bind, holds]
      refine passes ?_ (.bind (.bind (.perform fun other => by simp) fun _ => .perform fun other => by simp)
        fun _ => checks)
      rintro ⟨other, same, -, still⟩
      simp only [Entry.mk.injEq, heq_eq_eq, Except.ok.injEq, Option.some.injEq, true_and, and_true] at same
      exact holds (same ▸ still)

theorem lockRead_along (platform : Platform) (options : Deployment) (p : Nat) (request : Request) (now : Nat) :
    (request.body platform options).Along (fun history view => ∀ name password, request = .login name password →
      ∀ entry ∈ history, findsLock (normalize platform name) entry →
        history = [entry] ∧ view = .threw lockedError) p now 0 [] := by
  cases request with
  | login name password =>
    refine (login_lockRead_along platform options p now name password).mono fun _ _ finds => ?_
    rintro _ _ ⟨⟩
    exact finds
  | _ => exact (phase_along ..).mono fun _ _ _ _ _ no => by cases no

end

section
variable {κ : Type}

/-- The request has been rejected because of a lock, and its password has not been evaluated. -/
def TurnedAway (cfg : AuthConfig κ) (q : Nat) : Prop :=
  (∃ thread, cfg.threads[q]? = some thread ∧ thread.state.view = .threw lockedError) ∧
    ∀ entry ∈ cfg.history q, ∀ name password, entry.call ≠ .auth (.authenticate name password)

/-- Once a lock has been stored for `email`, whoever looks at it before it ends is turned away. -/
def LockHolds (email : String) (cfg : AuthConfig κ) : Prop :=
  ∀ (i j p q release t : Nat) (found : Option Str) (t' : Nat), i < j →
    cfg.log[i]? = some (⟨p, .store (.saveUserData "system" (lockKey email) (.isoDate release)),
      .ok (), t⟩ : LogEntry) →
    cfg.log[j]? = some (⟨q, .store (.getUserData "system" (lockKey email)), .ok found, t'⟩ : LogEntry) →
    t' < release → TurnedAway cfg q

/-- While a lock in force is stored for `email`, no request deletes the entry, and none stores a lock that ends
before it. -/
def sparesLock (email : String) (cfg : AuthConfig κ) (event : AuthEvent κ) : Prop :=
  ∀ q plan thread call rest held, event = .resume q plan → cfg.threads[q]? = some thread →
    thread.state = .awaiting call rest → lockOf cfg email = some (.isoDate held) →
    lockedAt (.isoDate held) cfg.clock = true →
    call ≠ .store (.deleteUserData "system" (lockKey email)) ∧
      ∀ release, call = .store (.saveUserData "system" (lockKey email) (.isoDate release)) → held ≤ release

/-- A lock is stored that lasts at least until `release`. -/
def LockedUntil (email : String) (release : Nat) (cfg : AuthConfig κ) : Prop :=
  ∃ held, lockOf cfg email = some (.isoDate held) ∧ release ≤ held ∧ held ≤ Date.maxTime

variable {server : KeycloakServer κ} {platform : Platform} {options : Deployment} {clock : Nat} {world : World κ}
  {permitted : AuthConfig κ → AuthEvent κ → Prop} {cfg final : AuthConfig κ} {email : String} {release : Nat}

theorem lockedAt_isoDate {held now : Nat} (valid : held ≤ Date.maxTime) :
    lockedAt (.isoDate held) now = true ↔ now < held := by
  simp [lockedAt, Date.parse, Date.ofMs, valid]

/-- A step that spares the lock leaves one that lasts as long. -/
theorem LockedUntil.resume (locked : LockedUntil email release cfg) (within : cfg.clock < release)
    (reach : (authSystem server platform options).Reach permitted (.start clock world) cfg) {q : Nat}
    {thread : Thread Call.Ans Thrown Request Response} {call : Call}
    {rest : Except Thrown call.Ans → Service Response}
    {plan : Plan} (found : cfg.threads[q]? = some thread) (waiting : thread.state = .awaiting call rest)
    (spares : sparesLock email cfg (.resume q plan)) :
    LockedUntil email release ((authSystem server platform options).resume cfg q thread call rest plan) := by
  obtain ⟨held, stored, long, valid⟩ := locked
  obtain ⟨kept, outlasts⟩ := spares q plan thread call rest held rfl found waiting stored
    ((lockedAt_isoDate valid).mpr (by omega))
  by_cases saves : ∃ value, call = .store (.saveUserData "system" (lockKey email) value)
  · obtain ⟨value, rfl⟩ := saves
    have phase := reach_phase reach found
    rw [waiting] at phase
    obtain ⟨later, rfl, valid⟩ := phase.locks
    exact ⟨later, getUserData_saveUserData_self .., Nat.le_trans long (outlasts later rfl), valid⟩
  · refine ⟨held, ?_, long, valid⟩
    rw [← stored]
    refine answerCall_getUserData _ _ _ _ _ _ _ call (totpSecret_ne_lockKey email).symm ?_ ?_
    · rintro user name value rfl
      by_contra same
      obtain ⟨rfl, rfl⟩ := not_or.mp same |>.imp not_not.mp not_not.mp
      exact saves ⟨value, rfl⟩
    · rintro user name rfl
      by_contra same
      obtain ⟨rfl, rfl⟩ := not_or.mp same |>.imp not_not.mp not_not.mp
      exact kept rfl

/-- By induction on the run: until it ends, a lock is only ever replaced by one that lasts as long. -/
theorem LockedUntil.along (locked : LockedUntil email release cfg)
    (reach : (authSystem server platform options).Reach permitted (.start clock world) cfg)
    (later : (authSystem server platform options).Reach (sparesLock email) cfg final)
    (within : final.clock < release) :
    LockedUntil email release final := by
  induction later with
  | start => exact locked
  | @next before after event previous spares step ih =>
    rcases System.advance_cases step with ⟨delay, rfl, rfl⟩ | ⟨change, rfl, rfl⟩ | ⟨request, rfl, rfl⟩ |
      ⟨q, plan, thread, call, rest, rfl, found, waiting, rfl⟩
    · exact ih (Nat.lt_of_le_of_lt (Nat.le_add_right _ _) within)
    · cases change <;> exact ih within
    · exact ih within
    · exact (ih within).resume within (reach.any.trans previous.any) found waiting spares

/-- The step behind an entry of the log happens at the time of the entry. -/
theorem clock_of_entry {middle : AuthConfig κ} {thread : Thread Call.Ans Thrown Request Response} {entry : LogEntry}
    {rest : Except Thrown entry.call.Ans → Service Response} {plan : Plan} {index : Nat}
    (found : final.log[index]? = some entry) (log : middle.log = final.log.take index)
    (later : (authSystem server platform options).Reach permitted
      ((authSystem server platform options).resume middle
      entry.request thread entry.call rest plan) final) : middle.clock = entry.time := by
  obtain ⟨more, whole⟩ := later.log_prefix
  have length : middle.log.length = index := by
    have bound := (List.getElem?_eq_some_iff.mp found).1
    rw [log, List.length_take, Nat.min_eq_left (Nat.le_of_lt bound)]
  rw [← whole, ← length] at found
  simp only [System.resume, List.append_assoc, List.getElem?_append_right (Nat.le_refl _), Nat.sub_self,
    List.singleton_append, List.getElem?_cons_zero, Option.some.injEq] at found
  exact congrArg Entry.time found

/-- A written lock holds in every run whose steps spare the locks in force. -/
theorem written_lock_holds
    (run : (authSystem server platform options).Reach (sparesLock email) (.start clock world) cfg) :
    LockHolds email cfg := by
  intro i j p q release t found t' order saves reads within
  obtain ⟨saving, saver, rest, plan, toSave, -, atSaver, waitsSave, sameLog, -, later⟩ :=
    run.step_at saves (Nat.zero_le _)
  have saved := toSave.any.next trivial (System.advance_resume plan atSaver waitsSave)
  have locked : LockedUntil email release ((authSystem server platform options).resume
    saving p saver _ rest plan) := by
    have phase := reach_phase toSave atSaver
    rw [waitsSave] at phase
    obtain ⟨held, same, valid⟩ := phase.locks
    cases same
    exact ⟨release, getUserData_saveUserData_self .., Nat.le_refl _, valid⟩
  obtain ⟨reading, reader, more, choice, toRead, -, atReader, waitsRead, logRead, answer, last⟩ :=
    later.step_at reads (by
      have bound := (List.getElem?_eq_some_iff.mp saves).1
      simp only [System.resume, sameLog, List.length_append, List.length_take, List.length_singleton]
      omega)
  have time : reading.clock = t' := clock_of_entry reads logRead last
  obtain ⟨held, stored, long, valid⟩ := locked.along saved toRead (by rw [time]; exact within)
  have sees : found = some (.isoDate held) := (Except.ok.inj answer).symm.trans stored
  have finds : findsLock email ⟨q, .store (.getUserData "system" (lockKey email)), .ok found, t'⟩ :=
    ⟨.isoDate held, by rw [sees], rfl, (lockedAt_isoDate valid).mpr (Nat.lt_of_lt_of_le within long)⟩
  have phase := reach_phase (saved.trans toRead.any) atReader
  rw [waitsRead] at phase
  obtain ⟨name, password, login, rfl⟩ := phase.login_of_lockRead
  have onward : (authSystem server platform options).Reach anyEvent reading cfg :=
    (System.Reach.start.next trivial (System.advance_resume choice atReader waitsRead)).trans last.any
  obtain ⟨thread, atThread, same⟩ := onward.request_kept atReader
  obtain ⟨history, view⟩ := run.view (lockRead_along platform options) atThread name password (same.trans login) _
    (System.mem_history.mpr ⟨List.mem_of_getElem? reads, rfl⟩) finds
  refine ⟨⟨thread, atThread, view⟩, fun entry member => ?_⟩
  rw [history] at member
  rw [List.mem_singleton.mp member]
  exact fun _ _ no => by cases no

theorem sparesLock_unlocked {event : AuthEvent κ} (unlocked : lockOf cfg email = none) :
    sparesLock email cfg event := by
  intro q plan thread call rest held _ _ _ stored
  rw [unlocked] at stored
  cases stored

end

namespace Sample

/-- Four wrong passwords have been counted for Ann. -/
def nearlyLocked : World Realm :=
  { store := InMemoryTokenStore.empty.saveUserData "system" (failedKey "ann@mail") (.failedAttempts (some 4) 1000)
    keycloak := realm
    adminTokenCache := none }

/-- A fifth locks her address, and whoever comes next finds the lock. -/
def foundLocked : AuthConfig Realm :=
  after (.start 1000 nearlyLocked) (guess :: List.replicate 5 (.resume 0 .good) ++ [guess, .resume 1 .good])

theorem foundLocked_reach : system.Reach (sparesLock "ann@mail") (.start 1000 nearlyLocked) foundLocked := by
  have guessing : system.Reach (sparesLock "ann@mail") (.start 1000 nearlyLocked) _ :=
    .next .start (sparesLock_unlocked rfl) (show system.advance _ guess = _ from rfl)
  have counting := ((guessing.next (sparesLock_unlocked rfl)
    (show system.advance _ (.resume 0 .good) = _ from rfl)).next
    (sparesLock_unlocked rfl) (show system.advance _ (.resume 0 .good) = _ from rfl)).next
    (sparesLock_unlocked rfl) (show system.advance _ (.resume 0 .good) = _ from rfl)
  have locking := (counting.next (sparesLock_unlocked rfl)
    (show system.advance _ (.resume 0 .good) = _ from rfl)).next
    (sparesLock_unlocked rfl) (show system.advance _ (.resume 0 .good) = _ from rfl)
  refine (locking.next ?_ (show system.advance _ guess = _ from rfl)).next ?_
    (show system.advance _ (.resume 1 .good) = _ from rfl)
  · rintro _ _ _ _ _ _ ⟨⟩
  · intro q plan thread call rest held same found waiting _ _
    cases same
    cases Option.some.inj found
    cases waiting
    constructor
    · intro no
      cases no
    · intro release no
      cases no

theorem written_lock_holds_foundLocked : TurnedAway foundLocked 1 :=
  written_lock_holds foundLocked_reach 4 5 0 1 901000 1000 (some (.isoDate 901000)) 1000
    (by decide) rfl rfl (by decide)

/-- Request 5 finds a lock that has run out, and deletes the one that has been written by then. -/
def lockDeleted : AuthConfig Realm :=
  after start (lockingGuesses 0 4 ++ [.tick 900000, guess, .resume 5 .good] ++ lockingGuesses 6 6 ++
    [.resume 5 .good, guess, .resume 11 .good])

/-- Though nobody gets in, request 11 is let through to the password check while the second lock should hold. -/
theorem written_lock_deleted : system.Reach anyEvent start lockDeleted ∧
    (∀ thread ∈ lockDeleted.threads, thread.request = .login "ann@mail" "a guess") ∧
    (∀ entry ∈ lockDeleted.log, guessAccepted "ann@mail" entry = false) ∧ ¬ LockHolds "ann@mail" lockDeleted := by
  refine ⟨after_reach (fun _ _ _ => trivial) rfl, ?_, ?_, fun holds => ?_⟩
  · exact fun thread member => of_decide_eq_true (List.all_eq_true.mp
      (show lockDeleted.threads.all (·.request = .login "ann@mail" "a guess") = true from rfl) thread member)
  · intro entry member
    simpa using List.all_eq_true.mp (show lockDeleted.log.all (!guessAccepted "ann@mail" ·) =
      true from rfl) entry member
  · obtain ⟨⟨thread, found, view⟩, -⟩ := holds 44 46 10 11 1801000 901000 none 901000
      (by decide) rfl rfl (by decide)
    cases Option.some.inj found
    cases view

end Sample

end KeycloakAuth
