import Mathlib.Data.List.Infix
import KeycloakAuth.LoginHistories
import KeycloakAuth.Realm

namespace Lockout

/-- How many failures lock an account, and for how long. -/
structure Policy where
  maxFailures : Nat
  duration : Nat

/-- What the password check makes of an attempt. A failure has the instant at which it is counted and the
instant at which its counting is over, and it locks from the second one on. -/
inductive Verdict
  | accepted
  | refused (counted settled : Nat)
  | failed
deriving DecidableEq, Repr

/-- An attempt: the instant at which it comes up against the lock, and what the password check would make of it. -/
structure Attempt where
  checked : Nat
  verdict : Verdict
deriving DecidableEq, Repr

inductive Reply
  | locked
  | accepted
  | refused
  | failed
deriving DecidableEq, Repr

structure Standing where
  failures : Nat
  lastFailure : Nat
  lockedUntil : Option Nat
deriving DecidableEq, Repr

namespace Standing

def clear : Standing := ⟨0, 0, none⟩

def locked (standing : Standing) (now : Nat) : Bool := standing.lockedUntil.any (now < ·)

/-- The failures that a further one adds to: none once a lock has run out, or if the last one is too old. -/
def pending (policy : Policy) (standing : Standing) (now : Nat) : Nat :=
  if standing.lockedUntil.isSome ∨ policy.duration < now - standing.lastFailure then 0 else standing.failures

def failure (policy : Policy) (standing : Standing) (counted settled : Nat) : Standing :=
  let failures := standing.pending policy counted + 1
  ⟨failures, counted, if policy.maxFailures ≤ failures then some (settled + policy.duration) else none⟩

end Standing

def step (policy : Policy) (standing : Standing) (attempt : Attempt) : Reply × Standing :=
  if standing.locked attempt.checked then (.locked, standing) else
  match attempt.verdict with
  | .accepted => (.accepted, .clear)
  | .refused counted settled => (.refused, standing.failure policy counted settled)
  | .failed => (.failed, standing)

/-- Where a series of attempts leads. -/
def after (policy : Policy) (attempts : List Attempt) : Standing :=
  attempts.foldl (fun standing attempt => (step policy standing attempt).2) .clear

/-- The replies to a series of attempts. -/
def replies (policy : Policy) : Standing → List Attempt → List Reply
  | _, [] => []
  | standing, attempt :: attempts =>
    (step policy standing attempt).1 :: replies policy (step policy standing attempt).2 attempts

theorem replies_concat (policy : Policy) (attempts : List Attempt) (attempt : Attempt) :
    replies policy .clear (attempts ++ [attempt]) =
      replies policy .clear attempts ++ [(step policy (after policy attempts) attempt).1] := by
  suffices ∀ standing, replies policy standing (attempts ++ [attempt]) = replies policy standing attempts ++
      [(step policy (attempts.foldl (fun standing attempt => (step policy standing attempt).2) standing) attempt).1]
    from this .clear
  induction attempts with
  | nil => exact fun _ => rfl
  | cons first attempts ih =>
    intro standing
    simp only [List.cons_append, replies, ih, List.foldl_cons]

theorem after_concat (policy : Policy) (attempts : List Attempt) (attempt : Attempt) :
    after policy (attempts ++ [attempt]) = (step policy (after policy attempts) attempt).2 := by
  simp only [after, List.foldl_append, List.foldl_cons, List.foldl_nil]

/-- Failures at one instant are all counted, until there are enough of them. -/
theorem after_replicate {policy : Policy} {n : Nat} (fewer : n < policy.maxFailures) :
    after policy (List.replicate n ⟨0, .refused 0 0⟩) = ⟨n, 0, none⟩ := by
  induction n with
  | zero => rfl
  | succ n ih =>
    rw [List.replicate_succ', after_concat, ih (Nat.lt_of_succ_lt fewer)]
    simp [step, Standing.locked, Standing.failure, Standing.pending, Nat.not_le.mpr fewer]

theorem after_replicate_max {policy : Policy} (positive : 1 ≤ policy.maxFailures) :
    after policy (List.replicate policy.maxFailures ⟨0, .refused 0 0⟩) =
      ⟨policy.maxFailures, 0, some policy.duration⟩ := by
  obtain ⟨fewer, enough⟩ := Nat.exists_eq_add_of_le' positive
  rw [enough, List.replicate_succ', after_concat, after_replicate (by omega)]
  simp [step, Standing.locked, Standing.failure, Standing.pending, enough]

/-- Whatever lock they lead to ends with the duration. -/
theorem lockedUntil_replicate (policy : Policy) (n : Nat) :
    (after policy (List.replicate n ⟨0, .refused 0 0⟩)).lockedUntil.all (· ≤ policy.duration) = true := by
  induction n with
  | zero => rfl
  | succ n ih =>
    rw [List.replicate_succ', after_concat, step]
    split
    · exact ih
    · simp only [Standing.failure]
      split <;> simp

/-- Where two failures lock for 900 ticks: the lock ends on time, and the next failure counts from one. -/
example : replies ⟨2, 900⟩ .clear [⟨10, .refused 10 10⟩, ⟨20, .refused 20 21⟩,
    ⟨920, .accepted⟩, ⟨921, .refused 921 921⟩,
    ⟨922, .accepted⟩] = [.refused, .refused, .locked, .refused, .accepted] := by decide

end Lockout

namespace KeycloakAuth
open Async Service LoginUseCase InMemoryTokenStore

structure LoginDto where
  email : String
  password : String
deriving DecidableEq, Repr

/-- The lock and the counter of an address. -/
def lockoutEntries (store : InMemoryTokenStore) (email : String) : Option Str × Option Str :=
  (store.getUserData "system" (lockKey email), store.getUserData "system" (failedKey email))

/-- What others do to the store between two logins: they leave the locks and the counters alone. -/
structure Elsewhere where
  change : InMemoryTokenStore → InMemoryTokenStore
  keeps : ∀ store email, lockoutEntries (change store) email = lockoutEntries store email

/-- The answers of everything but the store are up to the surroundings. -/
def answerMocked (mocks : (call : Call) → Except Thrown call.Ans) (now _request : Nat) :
    (call : Call) → InMemoryTokenStore → Except Thrown call.Ans × InMemoryTokenStore
  | .store call, store => (.ok (answerStore now call store).1, (answerStore now call store).2)
  | call, store => (mocks call, store)

def loginSystem (self : LoginUseCase) (platform : Platform) : System Call.Ans Thrown LoginDto LoginResult
    InMemoryTokenStore ((call : Call) → Except Thrown call.Ans) Elsewhere where
  body dto := self.execute platform dto.email dto.password
  perform := answerMocked
  disturb elsewhere _ store := elsewhere.change store

section
variable (self : LoginUseCase) (platform : Platform)

def LoginUseCase.policy : Lockout.Policy := ⟨self.maxFailedAttempts, self.lockoutDurationMs⟩

/-- The answer of the password check. -/
def passwordAnswer : LogEntry → Option (Except Thrown AuthenticateResponse)
  | ⟨_, .auth (.authenticate _ _), answer, _⟩ => some answer
  | _ => none

/-- The instant at which the counter of `email` was read. -/
def countedAt (email : String) : LogEntry → Option Nat
  | ⟨_, .store (.getUserData _ key), _, t⟩ => if key = failedKey email then some t else none
  | _ => none

/-- The instant at which the counter of `email` had been written. -/
def settledAt (email : String) : LogEntry → Option Nat
  | ⟨_, .store (.saveUserData _ key _), _, t⟩ => if key = failedKey email then some t else none
  | _ => none

/-- What the calls of a login for `email` show of the password check. -/
def verdictOf (email : String) (history : List LogEntry) : Lockout.Verdict :=
  match history.findSome? passwordAnswer with
  | some (.ok _) => .accepted
  | some (.error (.domain .invalidCredentials _)) =>
    .refused ((history.findSome? (countedAt email)).getD 0) ((history.findSome? (settledAt email)).getD 0)
  | _ => .failed

/-- The attempt behind the calls that a login for `email` has made. -/
def attemptOf (email : String) (history : List LogEntry) : Lockout.Attempt :=
  ⟨(history.head?.map Entry.time).getD 0, verdictOf email history⟩

def LoginUseCase.lockedError : Thrown :=
  .domain .accountLocked "Account is temporarily locked due to too many failed attempts"

/-- What a login is seen to have replied, given the answer of the password check if it was made: that the account is
locked, without a check, or what the check says. -/
def replyTo (answer : Option (Except Thrown AuthenticateResponse)) (view : View Call Thrown LoginResult) :
    Option Lockout.Reply :=
  match answer, view with
  | none, .threw error => if error = lockedError then some .locked else none
  | some (.ok _), .returned _ => some .accepted
  | some (.error refused), .threw error =>
    if error ≠ refused then none else
    match error with
    | .domain .invalidCredentials _ => some .refused
    | _ => some .failed
  | _, _ => none

def replyOf (view : View Call Thrown LoginResult) (history : List LogEntry) : Option Lockout.Reply :=
  replyTo (history.findSome? passwordAnswer) view

end

/-- How the entries of an address stand for what the automaton knows of it. A lock that has run out may be on
file or have been removed, together with the counter. A counter can still go up. -/
inductive Agrees (now : Nat) : Option Str × Option Str → Lockout.Standing → Prop
  | counting {count last} (small : count < 2 ^ 53) :
      Agrees now (none, if count = 0 then none else some (.failedAttempts (some count) last)) ⟨count, last, none⟩
  | locked {count last ends counter} (valid : ends ≤ Date.maxTime) :
      Agrees now (some (.isoDate ends), counter) ⟨count, last, some ends⟩
  | released {count last ends} (past : ends ≤ now) : Agrees now (none, none) ⟨count, last, some ends⟩

theorem Agrees.later {now later : Nat} {entries : Option Str × Option Str} {standing : Lockout.Standing}
    (agrees : Agrees now entries standing) (after : now ≤ later) : Agrees later entries standing := by
  cases agrees with
  | counting small => exact .counting small
  | locked valid => exact .locked valid
  | released past => exact .released (Nat.le_trans past after)

theorem Agrees.counted (now last : Nat) {failures : Nat} (small : failures + 1 < 2 ^ 53) :
    Agrees now (none, some (.failedAttempts (some (failures + 1)) last)) ⟨failures + 1, last, none⟩ := by
  have counting := @Agrees.counting now (failures + 1) last small
  rwa [if_neg (Nat.succ_ne_zero failures)] at counting

/-- Where no lock is on file the counter holds the failures that a further one adds to. -/
theorem Agrees.attemptsIn {self : LoginUseCase} {now : Nat} {counter : Option Str} {standing : Lockout.Standing}
    (agrees : Agrees now (none, counter) standing) (counted : Nat) :
    self.attemptsIn counter counted = .number (standing.pending self.policy counted) ∧
      standing.pending self.policy counted < 2 ^ 53 := by
  generalize unlocked : (none, counter) = entries at agrees
  cases agrees with
  | @counting count last small =>
    obtain ⟨-, rfl⟩ := Prod.mk.inj unlocked
    have fewer : Lockout.Standing.pending self.policy ⟨count, last, none⟩ counted < 2 ^ 53 := by
      unfold Lockout.Standing.pending
      split
      · decide
      · exact small
    refine ⟨?_, fewer⟩
    by_cases none : count = 0
    · simp [none, LoginUseCase.attemptsIn, Lockout.Standing.pending]
    · simp only [none, if_false, LoginUseCase.attemptsIn_failedAttempts,
        Lockout.Standing.pending, LoginUseCase.policy,
        Option.isSome_none, Bool.false_eq_true, false_or, gt_iff_lt, Option.elim_some]
      split <;> rfl
  | locked valid => cases unlocked
  | released past =>
    obtain ⟨-, rfl⟩ := Prod.mk.inj unlocked
    simp [LoginUseCase.attemptsIn, Lockout.Standing.pending]

/-- A lock that is on file at its turn holds, or it has run out. -/
theorem Agrees.lockedAt {now : Nat} (checked : Nat) {text : Str}
    {counter : Option Str} {standing : Lockout.Standing}
    (agrees : Agrees now (some text, counter) standing) :
    text.truthy = true ∧ lockedAt text checked = standing.locked checked ∧
      (standing.locked checked = false → Agrees checked (none, none) standing) := by
  generalize onFile : (some text, counter) = entries at agrees
  cases agrees with
  | counting => cases onFile
  | locked valid =>
    cases onFile
    refine ⟨rfl, ?_, fun past => ?_⟩
    · simp [LoginUseCase.lockedAt, Date.parse, Date.ofMs, valid, Lockout.Standing.locked]
    · simp only [Lockout.Standing.locked, Option.any_some, decide_eq_false_iff_not] at past
      exact .released (Nat.le_of_not_lt past)
  | released past => cases onFile

/-- Without a lock on file, the automaton is not locked either. -/
theorem Agrees.unlocked {now checked : Nat} {counter : Option Str} {standing : Lockout.Standing}
    (agrees : Agrees now (none, counter) standing) (after : now ≤ checked) : standing.locked checked = false := by
  generalize unlocked : (none, counter) = entries at agrees
  cases agrees with
  | counting => rfl
  | locked valid => cases unlocked
  | released past =>
    simp only [Lockout.Standing.locked, Option.any_some, decide_eq_false_iff_not]
    omega

section
variable {self : LoginUseCase} {platform : Platform} {email : String} {p now drawn : Nat}
  {store : InMemoryTokenStore} {log : List LogEntry}

theorem answerMocked_store {α : Type} {Q : Except Thrown α → Nat → InMemoryTokenStore → List LogEntry → Prop}
    {call : StoreCall} {next : call.Ans → Service α}
    (answered : ∀ later, now ≤ later → (next (answerStore later call store).1).Ensures
      answerMocked (fun _ => True) p Q later drawn (answerStore later call store).2
      (log ++ [⟨p, .store call, .ok (answerStore later call store).1, later⟩])) :
    ((Program.perform (Call.store call)).bind next).Ensures answerMocked (fun _ => True) p Q now drawn store log :=
  fun _ later _ after => answered later after

/-- The locks and counters of all other addresses are the same. -/
def OthersKept (email : String) (before after : InMemoryTokenStore) : Prop :=
  ∀ other, other ≠ email → lockoutEntries after other = lockoutEntries before other

theorem OthersKept.refl : OthersKept email store store := fun _ _ => rfl

theorem OthersKept.save {before after : InMemoryTokenStore} (kept : OthersKept email before after) {key : String}
    (value : Str) (own : key = lockKey email ∨ key = failedKey email) :
    OthersKept email before (after.saveUserData "system" key value) := by
  intro other different
  have apart : lockKey other ≠ key ∧ failedKey other ≠ key := by
    rcases own with rfl | rfl <;> simp [different]
  rw [← kept other different, lockoutEntries, getUserData_saveUserData_other _ _ (.inr apart.1),
    getUserData_saveUserData_other _ _ (.inr apart.2)]
  rfl

theorem OthersKept.delete {before after : InMemoryTokenStore} (kept : OthersKept email before after) {key : String}
    (own : key = lockKey email ∨ key = failedKey email) :
    OthersKept email before (after.deleteUserData "system" key) := by
  intro other different
  have apart : lockKey other ≠ key ∧ failedKey other ≠ key := by
    rcases own with rfl | rfl <;> simp [different]
  rw [← kept other different, lockoutEntries, getUserData_deleteUserData_other _ (.inr apart.1),
    getUserData_deleteUserData_other _ (.inr apart.2)]
  rfl

/-- The entries of an address after its counter has been written. -/
theorem lockoutEntries_count (value : Str) : lockoutEntries
    (store.saveUserData "system" (failedKey email) value) email =
    ((lockoutEntries store email).1, some value) := by
  simp only [lockoutEntries, getUserData_saveUserData_self,
    getUserData_saveUserData_other store value (.inr (lockKey_ne_failedKey email email))]

theorem lockoutEntries_lock (value : Str) : lockoutEntries
    (store.saveUserData "system" (lockKey email) value) email =
    (some value, (lockoutEntries store email).2) := by
  simp only [lockoutEntries, getUserData_saveUserData_self,
    getUserData_saveUserData_other store value (.inr (failedKey_ne_lockKey email email))]

theorem lockoutEntries_cleared : lockoutEntries ((store.deleteUserData "system"
    (lockKey email)).deleteUserData "system"
    (failedKey email)) email = (none, none) := by
  simp only [lockoutEntries, getUserData_deleteUserData_self,
    getUserData_deleteUserData_other _ (.inr (lockKey_ne_failedKey email email))]

theorem lockoutEntries_reset : lockoutEntries ((store.deleteUserData "system"
    (failedKey email)).deleteUserData "system"
    (lockKey email)) email = (none, none) := by
  simp only [lockoutEntries, getUserData_deleteUserData_self,
    getUserData_deleteUserData_other _ (.inr (failedKey_ne_lockKey email email))]

def ended (result : Except Thrown LoginResult) : View Call Thrown LoginResult :=
  match result with
  | .ok value => .returned value
  | .error error => .threw error

/-- A login for `email` that is served alone from the standing `standing` on replies what the automaton replies, and
leaves behind what the automaton goes on with, unless it has to write a deadline that is no date. -/
def Follows (self : LoginUseCase) (email : String) (p : Nat)
    (standing : Lockout.Standing) (before : InMemoryTokenStore)
    (log : List LogEntry) (result : Except Thrown LoginResult) (clock : Nat) (after : InMemoryTokenStore)
    (log' : List LogEntry) : Prop :=
  ∃ history, log' = log ++ history ∧ (∀ entry ∈ history, entry.request = p) ∧ OthersKept email before after ∧
    ((∀ ends, (Lockout.step self.policy standing (attemptOf email history)).2.lockedUntil = some ends →
        ends ≤ Date.maxTime) →
      replyOf (ended result) history = some (Lockout.step self.policy standing (attemptOf email history)).1 ∧
      Agrees clock (lockoutEntries after email) (Lockout.step self.policy standing (attemptOf email history)).2)

theorem checkLock_mocked {standing : Lockout.Standing} (agrees : Agrees now (lockoutEntries store email) standing)
    {Q : Except Thrown LoginResult → Nat → InMemoryTokenStore → List LogEntry → Prop}
    {next : Unit → Service LoginResult}
    (passed : ∀ before later store', LockPassed p email before →
      standing.locked ((before.head?.map Entry.time).getD 0) = false → OthersKept email store store' →
      (lockoutEntries store' email).1 = none → Agrees later (lockoutEntries store' email) standing →
      (next ()).Ensures answerMocked (fun _ => True) p Q later 0 store' (log ++ before))
    (rejected : ∀ text checked, standing.locked checked = true →
      Agrees checked (lockoutEntries store email) standing →
      Q (.error lockedError) checked store
        (log ++ [⟨p, .store (.getUserData "system" (lockKey email)), .ok (some text), checked⟩])) :
    ((checkLock (failedKey email) (lockKey email)).bind next).Ensures answerMocked (fun _ => True) p Q now 0 store
      log := by
  simp only [checkLock, tokenStore, Program.bind_eq, Program.bind_assoc]
  refine answerMocked_store fun checked after => ?_
  simp only [answerStore]
  cases onFile : store.getUserData "system" (lockKey email) with
  | none =>
    have entries : lockoutEntries store email = (none, store.getUserData "system" (failedKey email)) := by
      rw [lockoutEntries, onFile]
    rw [entries] at agrees
    exact passed _ checked store (.unlocked rfl) (agrees.unlocked after) .refl (by rw [entries])
      (entries ▸ agrees.later after)
  | some text =>
    have entries : lockoutEntries store email = (some text, store.getUserData "system" (failedKey email)) := by
      rw [lockoutEntries, onFile]
    rw [entries] at agrees
    obtain ⟨truthy, sameLock, released⟩ := agrees.lockedAt checked
    simp only [Option.filter, truthy, if_true, Program.bind_assoc]
    refine .now ?_
    by_cases locked : LoginUseCase.lockedAt text checked = true
    · simp only [locked, if_true]
      exact rejected text checked (sameLock ▸ locked) (entries ▸ agrees.later after)
    have past : LoginUseCase.lockedAt text checked = false := by simpa using locked
    simp only [past, Bool.false_eq_true, if_false, Program.bind_assoc]
    refine answerMocked_store fun unlocked passing => ?_
    refine answerMocked_store fun cleared ending => ?_
    simp only [answerStore, List.append_assoc, List.cons_append, List.nil_append]
    refine passed _ cleared _ (.expired past) (sameLock ▸ past)
      ((OthersKept.refl.delete (.inl rfl)).delete (.inr rfl))
      (by rw [lockoutEntries_cleared]) ?_
    rw [lockoutEntries_cleared]
    exact (released (sameLock ▸ past)).later (by omega)

section
variable {standing : Lockout.Standing} {before : List LogEntry} {password : String} {entered : InMemoryTokenStore}

/-- The calls before the password check show nothing of it. -/
theorem LockPassed.shows_nothing (passed : LockPassed p email before) (more : List LogEntry) :
    (before ++ more).findSome? passwordAnswer = more.findSome? passwordAnswer ∧
      attemptOf email (before ++ more) = ⟨(before.head?.map Entry.time).getD 0, verdictOf email more⟩ := by
  cases passed <;>
    simp [attemptOf, verdictOf, List.findSome?_cons, passwordAnswer, countedAt, settledAt]

theorem LockPassed.own (passed : LockPassed p email before) : ∀ entry ∈ before, entry.request = p := by
  cases passed <;> simp

/-- A login that has got past the lock replies what the password check says, and leaves behind what is due then. -/
theorem LockPassed.follows {more : List LogEntry} {result : Except Thrown LoginResult} {clock : Nat}
    {after : InMemoryTokenStore} {reply : Lockout.Reply} {next : Lockout.Standing}
    (passed : LockPassed p email before)
    (own : ∀ entry ∈ more, entry.request = p) (kept : OthersKept email store after)
    (stepped : Lockout.step self.policy standing ⟨(before.head?.map Entry.time).getD 0, verdictOf email more⟩ =
      (reply, next))
    (shown : (∀ ends, next.lockedUntil = some ends → ends ≤ Date.maxTime) →
      replyOf (ended result) more = some reply ∧ Agrees clock (lockoutEntries after email) next) :
    Follows self email p standing store log result clock after (log ++ (before ++ more)) := by
  obtain ⟨same, attempt⟩ := passed.shows_nothing more
  refine ⟨before ++ more, rfl, ?_, kept, ?_⟩
  · intro entry member
    rcases List.mem_append.mp member with early | late
    · exact passed.own entry early
    · exact own entry late
  · rw [attempt, stepped]
    simp only [replyOf, same]
    exact shown

/-- A password that is rejected: the failure is counted, and it may lock the address. -/
theorem refused_follows {message : String} {asked : Nat} (small : self.maxFailedAttempts ≤ 2 ^ 53)
    (passed : LockPassed p email before)
    (unlocked : standing.locked ((before.head?.map Entry.time).getD 0) = false)
    (kept : OthersKept email store entered)
    (free : (lockoutEntries entered email).1 = none) (agrees : Agrees now (lockoutEntries entered email) standing) :
    ((self.recordFailedAttempt (failedKey email) (lockKey email)).bind fun _ =>
        (.fail (.domain .invalidCredentials message) : Service LoginResult)).Ensures answerMocked (fun _ => True) p
      (Follows self email p standing store log) asked 0 entered (log ++ (before ++ [⟨p, .auth (.authenticate email
        password), .error (.domain .invalidCredentials message), asked⟩])) := by
  have entries : lockoutEntries entered email = (none, entered.getUserData "system" (failedKey email)) := by
    rw [← free]
    rfl
  rw [entries] at agrees
  simp only [recordFailedAttempt, readFailedAttempts, dateIn, tokenStore, Program.bind_eq, Program.bind_assoc,
    Program.pure_eq, Program.done_bind]
  refine answerMocked_store fun counted _ => .now (.now ?_)
  obtain ⟨counts, exact⟩ : self.attemptsIn (answerStore counted (.getUserData "system" (failedKey email)) entered).1
    counted = .number (standing.pending self.policy counted) ∧ _ := agrees.attemptsIn counted
  rw [counts, JsValue.plusOne_number exact]
  refine answerMocked_store fun settled _ => ?_
  simp only [JsValue.stringify, JsValue.atLeast, answerStore, decide_eq_true_eq, List.append_assoc,
    List.cons_append, List.nil_append]
  have kept := kept.save (.failedAttempts (some (standing.pending self.policy counted + 1)) counted) (.inr rfl)
  have stepped {more : List LogEntry} (refused : verdictOf email more = .refused counted settled) :
      Lockout.step self.policy standing ⟨(before.head?.map Entry.time).getD 0, verdictOf email more⟩ =
        (.refused, standing.failure self.policy counted settled) := by
    simp only [Lockout.step, unlocked, Bool.false_eq_true, if_false, refused]
  have shows (more : List LogEntry) : verdictOf email (⟨p, .auth (.authenticate email password),
      .error (.domain .invalidCredentials message), asked⟩ :: ⟨p, .store (.getUserData "system" (failedKey email)),
      .ok (entered.getUserData "system" (failedKey email)), counted⟩ :: ⟨p, .store (.saveUserData "system"
      (failedKey email) (.failedAttempts (some (standing.pending self.policy counted + 1)) counted)),
        .ok (), settled⟩ ::
      more) = .refused counted settled := by
    simp [verdictOf, List.findSome?_cons, passwordAnswer, countedAt, settledAt]
  by_cases reached : self.maxFailedAttempts ≤ standing.pending self.policy counted + 1
  · simp only [reached, if_true, Program.bind_assoc]
    refine .now ?_
    have ends : (standing.failure self.policy counted settled).lockedUntil =
      some (settled + self.lockoutDurationMs) :=
      if_pos reached
    by_cases valid : settled + self.lockoutDurationMs ≤ Date.maxTime
    · simp only [Date.ofMs, valid, if_true, Date.toISOString, Option.map_some]
      refine answerMocked_store fun locked _ => ?_
      simp only [List.append_assoc, List.cons_append, List.nil_append]
      refine passed.follows (by simp) (kept.save _ (.inl rfl)) (stepped (shows _)) fun _ => ⟨?_, ?_⟩
      · simp [replyOf, replyTo, ended, List.findSome?_cons, passwordAnswer]
      · have locks : standing.failure self.policy counted settled =
          ⟨standing.pending self.policy counted + 1, counted,
            some (settled + self.lockoutDurationMs)⟩ := by rw [← ends]; rfl
        simp only [answerStore, lockoutEntries_lock, locks]
        exact .locked valid
    · simp only [Date.ofMs, valid, if_false, Date.toISOString, Option.map_none]
      refine passed.follows (by simp) kept (stepped (shows _)) fun dates => ?_
      exact absurd (dates _ ends) valid
  · simp only [reached, if_false]
    refine passed.follows (by simp) kept (stepped (shows _)) fun _ => ⟨?_, ?_⟩
    · simp [replyOf, replyTo, ended, List.findSome?_cons, passwordAnswer]
    · have ends : (standing.failure self.policy counted settled).lockedUntil = none := if_neg reached
      have counts : standing.failure self.policy counted settled =
          ⟨standing.pending self.policy counted + 1, counted, none⟩ := by rw [← ends]; rfl
      rw [lockoutEntries_count, entries, counts]
      exact .counted _ _ (by omega)

/-- A password that is accepted: the address starts afresh. -/
theorem accepted_follows {result : AuthenticateResponse} {asked : Nat} (passed : LockPassed p email before)
    (unlocked : standing.locked ((before.head?.map Entry.time).getD 0) = false)
    (kept : OthersKept email store entered) :
    (self.issue email result).Ensures answerMocked (fun _ =>
      True) p (Follows self email p standing store log) asked 0
      entered (log ++ (before ++ [⟨p, .auth (.authenticate email password), .ok result, asked⟩])) := by
  have kept := (kept.delete (.inr rfl)).delete (.inl rfl)
  have cleared : Agrees asked (none, none) Lockout.Standing.clear := @Agrees.counting asked 0 0 (by decide)
  have stepped {more : List LogEntry} (accepted : verdictOf email more = .accepted) :
      Lockout.step self.policy standing ⟨(before.head?.map Entry.time).getD 0, verdictOf email more⟩ =
        (.accepted, .clear) := by
    simp only [Lockout.step, unlocked, Bool.false_eq_true, if_false, accepted]
  have shows (more : List LogEntry) :
      verdictOf email (⟨p, .auth (.authenticate email password), .ok result, asked⟩ :: more) = .accepted := by
    simp [verdictOf, List.findSome?_cons, passwordAnswer]
  simp only [issue, tokenStore, Program.bind_eq]
  refine answerMocked_store fun reset _ => ?_
  refine answerMocked_store fun unlocked' _ => ?_
  refine answerMocked_store fun looked _ => ?_
  simp only [answerStore]
  have ends {now : Nat} (after : asked ≤ now) (value : LoginResult) (record : TokenRecord) (more : List LogEntry)
      (own : ∀ entry ∈ more, entry.request = p) : Follows self email p standing store log (.ok value) now
      (((entered.deleteUserData "system" (failedKey email)).deleteUserData "system" (lockKey email)).save record)
      (log ++ (before ++ (⟨p, .auth (.authenticate email password), .ok result, asked⟩ :: more))) := by
    refine passed.follows (by simpa using own) kept (stepped (shows more)) fun _ => ⟨?_, ?_⟩
    · simp [replyOf, replyTo, ended, List.findSome?_cons, passwordAnswer]
    · exact lockoutEntries_reset ▸ cleared.later after
  by_cases enrolled : Option.any Str.truthy (((entered.deleteUserData "system"
    (failedKey email)).deleteUserData "system"
      (lockKey email)).getUserData result.user.id "totpSecret") = true
  · simp only [enrolled, if_true, randomHex, Program.bind_eq, Program.bind_assoc,
      Program.pure_eq, Program.done_bind]
    refine .random ?_
    simp only [saveRecord, randomHex, dateIn, newDate, tokenStore, Program.bind_eq,
      Program.bind_assoc, Program.pure_eq,
      Program.done_bind]
    refine .random (.now (.now (answerMocked_store fun saved _ => ?_)))
    simp only [List.append_assoc, List.cons_append, List.nil_append]
    exact ends (by omega) _ _ _ (by simp)
  · simp only [enrolled, Bool.false_eq_true, if_false, saveRecord, randomHex, dateIn, newDate, tokenStore,
      Program.bind_eq, Program.bind_assoc, Program.pure_eq,
      Program.done_bind]
    refine .random (.now (.now (answerMocked_store fun saved _ => ?_)))
    simp only [List.append_assoc, List.cons_append, List.nil_append]
    exact ends (by omega) _ _ _ (by simp)

end

/-- A login that is served alone. -/
theorem login_follows {standing : Lockout.Standing} {dto : LoginDto} (small : self.maxFailedAttempts ≤ 2 ^ 53)
    (same : normalize platform dto.email = email) (agrees : Agrees now (lockoutEntries store email) standing) :
    (self.execute platform dto.email dto.password).Ensures answerMocked (fun _ => True) p
      (Follows self email p standing store log) now 0 store log := by
  subst same
  simp only [execute, LoginUseCase.authenticate, authProvider, Program.bind_eq, Program.tryCatch_eq]
  refine checkLock_mocked agrees ?_ ?_
  · intro before later entered passed unlocked kept free agrees mocks asked _ after
    simp only [answerMocked, List.append_assoc]
    cases answered : mocks (.auth (.authenticate (normalize platform dto.email) dto.password)) with
    | ok result =>
      simp only [Program.ofExcept_ok, Program.attempt, Program.done_bind]
      exact accepted_follows passed unlocked kept
    | error error =>
      simp only [Program.ofExcept_error, Program.attempt, Program.throw_eq]
      split
      · simp only [Program.bind_assoc, Program.fail_bind]
        exact refused_follows small passed unlocked kept free agrees
      · rename_i other
        have failed : verdictOf (normalize platform dto.email)
          [⟨p, .auth (.authenticate (normalize platform dto.email)
            dto.password), .error error, asked⟩] = .failed := by
          simp only [verdictOf, List.findSome?_cons, passwordAnswer]
          split
          · simp_all
          · simp_all
          · rfl
        have stepped : Lockout.step self.policy standing ⟨(before.head?.map Entry.time).getD 0, .failed⟩ =
            (.failed, standing) := by
          simp only [Lockout.step, unlocked, Bool.false_eq_true, if_false]
        refine passed.follows (by simp) kept (failed.symm ▸ stepped) fun _ => ⟨?_, agrees.later after⟩
        · simp only [replyOf, replyTo, List.findSome?_cons, passwordAnswer, ended,
            ne_eq, not_true_eq_false, if_false]
  · intro text checked locked agrees
    refine ⟨[_], rfl, by simp, .refl, fun _ => ?_⟩
    have stays : Lockout.step self.policy standing (attemptOf (normalize platform dto.email)
      [⟨p, .store (.getUserData
        "system" (lockKey (normalize platform dto.email))), .ok (some text), checked⟩]) = (.locked, standing) := by
      simp only [Lockout.step, attemptOf, List.head?_cons, Option.map_some, Option.getD_some, locked, if_true]
    rw [stays]
    exact ⟨by simp [replyOf, replyTo, ended, List.findSome?_cons, passwordAnswer], agrees⟩

end

/-- The logins for `email` in the order of their arrival, each with what it was an attempt at and with its reply. -/
def loginsFor (platform : Platform) (cfg : Config Call.Ans Thrown LoginDto LoginResult InMemoryTokenStore)
    (email : String) : List (Lockout.Attempt × Option Lockout.Reply) :=
  (cfg.threads.zipIdx.filter fun login => normalize platform login.1.request.email = email).map fun login =>
    (attemptOf email (cfg.history login.2), replyOf login.1.state.view (cfg.history login.2))

/-- Every series of logins replies as the automaton does, for every address by itself, as long as its locks end at
dates. -/
def RefinesAutomaton (self : LoginUseCase) (platform : Platform) : Prop :=
  ∀ clock store cfg, (∀ email, lockoutEntries store email = (none, none)) →
    (loginSystem self platform).Sequential (.start clock store) cfg →
    (∀ email attempts, attempts <+: (loginsFor platform cfg email).map Prod.fst → ∀ ends,
      (Lockout.after self.policy attempts).lockedUntil = some ends → ends ≤ Date.maxTime) →
    ∀ email, (loginsFor platform cfg email).map Prod.snd =
      (Lockout.replies self.policy .clear ((loginsFor platform cfg email).map Prod.fst)).map some

section
variable {self : LoginUseCase} {platform : Platform} {clock : Nat} {store : InMemoryTokenStore}
  {cfg : Config Call.Ans Thrown LoginDto LoginResult InMemoryTokenStore}

theorem ended_view (driven : Driven Call.Ans Thrown LoginResult InMemoryTokenStore) :
    driven.state.view = ended driven.result := by
  unfold Driven.state ended
  split <;> simp_all [Suspended.view]

/-- One more login comes last, and those before it look the same. -/
theorem loginsFor_serve (run : (loginSystem self platform).Sequential (.start clock store) cfg)
    {schedule : Schedule ((call : Call) → Except Thrown call.Ans)} {dto : LoginDto} {history : List LogEntry}
    (logged : ((loginSystem self platform).serve cfg schedule dto).log = cfg.log ++ history)
    (own : ∀ entry ∈ history, entry.request = cfg.threads.length) (email : String) :
    loginsFor platform ((loginSystem self platform).serve cfg schedule dto) email = loginsFor platform cfg email ++
      if normalize platform dto.email = email then [(attemptOf email history,
        replyOf (ended ((loginSystem self platform).result cfg schedule dto)) history)] else [] := by
  have same {p : Nat} (early : p < cfg.threads.length) :
      ((loginSystem self platform).serve cfg schedule dto).history p = cfg.history p := by
    rw [Config.history, logged, List.filter_append, Config.history,
      List.append_right_eq_self, List.filter_eq_nil_iff]
    intro entry member
    rw [own entry member]
    simp only [decide_eq_true_eq]
    omega
  have last := System.serve_history run.reach logged own
  have seen : (cfg.threads.zipIdx.filter fun login => normalize platform login.1.request.email =
    email).map (fun login =>
      (attemptOf email (((loginSystem self platform).serve cfg schedule dto).history login.2),
        replyOf login.1.state.view
        (((loginSystem self platform).serve cfg schedule dto).history login.2))) =
          loginsFor platform cfg email := by
    refine List.map_congr_left fun login member => ?_
    obtain ⟨_, bound, _⟩ := List.mem_zipIdx (List.mem_filter.mp member).1
    simp only [same (show login.2 < cfg.threads.length by omega)]
  have view := ended_view (((loginSystem self platform).body dto).drive (loginSystem self platform).perform
    cfg.threads.length schedule cfg.clock 0 cfg.shared cfg.log)
  have threads : ((loginSystem self platform).serve cfg schedule dto).threads = cfg.threads ++ [⟨dto, _, _⟩] := rfl
  rw [loginsFor, threads, List.zipIdx_append, List.filter_append, List.map_append, seen, List.zipIdx_singleton,
    Nat.zero_add]
  by_cases concerned : normalize platform dto.email = email
  · rw [List.filter_cons_of_pos (by simpa using concerned), if_pos concerned,
      List.filter_nil, List.map_singleton, last,
      view]
    rfl
  · rw [List.filter_cons_of_neg (by simpa using concerned), if_neg concerned, List.filter_nil, List.map_nil]

theorem loginsFor_eq_nil {email : String}
    (others : ∀ thread ∈ cfg.threads, normalize platform thread.request.email ≠ email) :
    loginsFor platform cfg email = [] := by
  refine List.map_eq_nil_iff.mpr (List.filter_eq_nil_iff.mpr fun login member => ?_)
  obtain ⟨thread, index⟩ := login
  obtain ⟨-, -, same⟩ := List.mem_zipIdx member
  have other := others thread (same ▸ List.getElem_mem _)
  simpa using other

/-- With so few failures to a lock that a double can count them, the logins refine the automaton. -/
theorem lockout_refines_automaton (small : self.maxFailedAttempts ≤ 2 ^ 53) : RefinesAutomaton self platform := by
  intro clock store cfg fresh run dates email
  suffices ∀ email, (loginsFor platform cfg email).map Prod.snd =
        (Lockout.replies self.policy .clear ((loginsFor platform cfg email).map Prod.fst)).map some ∧
      Agrees cfg.clock (lockoutEntries cfg.shared email)
        (Lockout.after self.policy ((loginsFor platform cfg email).map Prod.fst)) from (this email).1
  induction run with
  | start =>
    intro email
    refine ⟨rfl, ?_⟩
    change Agrees clock (lockoutEntries store email) .clear
    rw [fresh]
    exact @Agrees.counting clock 0 0 (by decide)
  | tick delay run ih =>
    intro email
    obtain ⟨replied, agrees⟩ := ih dates email
    exact ⟨replied, agrees.later (Nat.le_add_right _ _)⟩
  | disturb elsewhere run ih =>
    intro email
    obtain ⟨replied, agrees⟩ := ih dates email
    refine ⟨replied, ?_⟩
    change Agrees _ (lockoutEntries (elsewhere.change _) email) _
    rw [elsewhere.keeps]
    exact agrees
  | @serve cfg schedule dto run ih =>
    obtain ⟨history, logged, own⟩ := System.serve_log (S := loginSystem self platform) cfg schedule dto
    have series := loginsFor_serve run logged own
    have shorter (email : String) : (loginsFor platform cfg email).map Prod.fst <+:
        (loginsFor platform ((loginSystem self platform).serve cfg schedule dto) email).map Prod.fst := by
      rw [series, List.map_append]
      exact List.prefix_append _ _
    have ih := ih fun email attempts early => dates email attempts (early.trans (shorter email))
    have ensures : ((loginSystem self platform).body dto).Ensures
      (loginSystem self platform).perform (fun _ => True)
        cfg.threads.length _ cfg.clock 0 cfg.shared cfg.log :=
      login_follows small rfl (ih (normalize platform dto.email)).2
    obtain ⟨again, logged', -, kept, follows⟩ := System.serve_ensures ensures fun index => trivial
    obtain rfl := List.append_cancel_left (logged.symm.trans logged')
    intro email
    by_cases own : normalize platform dto.email = email
    · subst own
      have whole := series (normalize platform dto.email)
      rw [if_pos rfl] at whole
      have dated := dates (normalize platform dto.email) _ List.prefix_rfl
      rw [whole, List.map_append, List.map_singleton, Lockout.after_concat] at dated
      obtain ⟨replied, agrees⟩ := follows dated
      rw [whole, List.map_append, List.map_append, List.map_singleton, List.map_singleton, Lockout.after_concat,
        Lockout.replies_concat, List.map_append, (ih _).1, replied]
      exact ⟨rfl, agrees⟩
    · have whole := series email
      rw [if_neg own, List.append_nil] at whole
      rw [whole]
      refine ⟨(ih email).1, ?_⟩
      rw [kept email (Ne.symm own)]
      exact (ih email).2.later (System.serve_reach (S := loginSystem self platform) cfg schedule dto).clock_le

end

namespace Sample

/-- One failure locks for 900 ticks. -/
def strict : LoginUseCase := { maxFailedAttempts := 1, lockoutDurationMs := 900 }

/-- A provider that rejects every password, asked after a while. -/
def rejecting (delay : Nat) : Schedule ((call : Call) → Except Thrown call.Ans) :=
  fun _ => (delay, fun _ => .error (.domain .invalidCredentials "Invalid user credentials"))

/-- Ann's password is rejected, and she tries again half a second later. -/
def lockedOut : Config Call.Ans Thrown LoginDto LoginResult InMemoryTokenStore :=
  (loginSystem strict platform).serve ((loginSystem strict platform).serve (.start 1000 .empty) (rejecting 10)
    ⟨"ann@mail", "wrong"⟩) (rejecting 500) ⟨"Ann@Mail ", "ann password"⟩

theorem lockout_refines_automaton_lockedOut :
    (loginsFor platform lockedOut "ann@mail").map Prod.snd = [some .refused, some .locked] := by
  have deadlines : ∀ attempts ∈ ((loginsFor platform lockedOut "ann@mail").map Prod.fst).inits,
      (Lockout.after strict.policy attempts).lockedUntil.all (· ≤ Date.maxTime) = true := by
    decide +kernel
  have fresh (email : String) : lockoutEntries InMemoryTokenStore.empty email = (none, none) := rfl
  refine (lockout_refines_automaton (by decide) _ _ _ fresh (.serve _ _ (.serve _ _ .start)) ?_ "ann@mail").trans
    (by decide +kernel)
  intro email attempts early ends locked
  by_cases own : email = "ann@mail"
  · subst own
    have dated := deadlines attempts ((List.mem_inits _ _).mpr early)
    rw [locked] at dated
    exact of_decide_eq_true dated
  · have others : loginsFor platform lockedOut email = [] := by
      have anns : lockedOut.threads.all (fun thread => normalize platform thread.request.email =
        "ann@mail") = true := by
        decide +kernel
      refine loginsFor_eq_nil fun thread member => ?_
      rw [of_decide_eq_true (List.all_eq_true.mp anns thread member)]
      exact Ne.symm own
    change attempts <+: (loginsFor platform lockedOut email).map Prod.fst at early
    rw [others, List.map_nil] at early
    rw [List.prefix_nil.mp early] at locked
    cases locked

/-- So many wrong passwords for Ann, all at the same instant. -/
def wrongPasswords (self : LoginUseCase) : Nat → Config Call.Ans Thrown LoginDto LoginResult InMemoryTokenStore
  | 0 => .start 0 .empty
  | n + 1 => (loginSystem self platform).serve (wrongPasswords self n) (rejecting 0) ⟨"ann@mail", "wrong"⟩

section
variable {self : LoginUseCase}

/-- What a wrong password does that does not lock the address. -/
theorem execute_wrong {name email : String} (own : normalize platform name = email) (p : Nat)
    (log : List LogEntry) {store : InMemoryTokenStore} {counter : Option Str}
    (entries : lockoutEntries store email = (none, counter))
    (below : (self.attemptsIn counter 0).plusOne.atLeast self.maxFailedAttempts = false) :
    let written : Str := .failedAttempts (self.attemptsIn counter 0).plusOne.stringify 0
    let refused : Thrown := .domain .invalidCredentials "Invalid user credentials"
    (self.execute platform name "wrong").drive answerMocked p (rejecting 0) 0 0 store log =
      ⟨.error refused, 0, 0, store.saveUserData "system" (failedKey email) written,
        log ++ [⟨p, .store (.getUserData "system" (lockKey email)), .ok none, 0⟩,
          ⟨p, .auth (.authenticate email "wrong"), .error refused, 0⟩,
          ⟨p, .store (.getUserData "system" (failedKey email)), .ok counter, 0⟩,
          ⟨p, .store (.saveUserData "system" (failedKey email) written), .ok (), 0⟩]⟩ := by
  subst own
  obtain ⟨unlocked, rfl⟩ := Prod.mk.inj entries
  simp only [execute, checkLock, LoginUseCase.authenticate, tokenStore, authProvider, Program.bind_eq,
    Program.bind_assoc, Program.tryCatch_eq]
  rw [Program.drive_perform_ok rfl]
  simp only [answerStore, unlocked, Option.filter_none, Program.pure_eq, Program.done_bind, Program.perform,
    Program.attempt, Program.await_bind, Program.drive, answerMocked, rejecting, Program.ofExcept_error,
    Program.throw_eq]
  simp only [recordFailedAttempt, readFailedAttempts, tokenStore, Program.bind_eq,
    Program.bind_assoc, Program.pure_eq]
  rw [Program.drive_perform_ok rfl]
  simp only [Program.now_bind, Program.drive, Program.done_bind, answerStore, Nat.add_zero]
  rw [Program.drive_perform_ok rfl]
  simp only [below, Bool.false_eq_true, if_false, Program.done_bind, Program.fail_bind, Program.drive, answerStore,
    List.append_assoc, List.cons_append, List.nil_append]

theorem wrongPasswords_run (self : LoginUseCase) (n : Nat) :
    (loginSystem self platform).Sequential (.start 0 .empty) (wrongPasswords self n) := by
  induction n with
  | zero => exact .start
  | succ n ih => exact .serve _ _ ih

/-- The count does not get past 2⁵³, and all of them are refused. -/
theorem wrongPasswords_refused (tall : 2 ^ 53 < self.maxFailedAttempts) (n : Nat) :
    let cfg := wrongPasswords self n
    cfg.clock = 0 ∧ (∀ thread ∈ cfg.threads, thread.request = ⟨"ann@mail", "wrong"⟩) ∧
      lockoutEntries cfg.shared "ann@mail" =
        (none, if n = 0 then none else some (.failedAttempts (some (min n (2 ^ 53))) 0)) ∧
      loginsFor platform cfg "ann@mail" = List.replicate n (⟨0, .refused 0 0⟩, some .refused) := by
  induction n with
  | zero => exact ⟨rfl, by simp [wrongPasswords, Config.start], rfl, rfl⟩
  | succ n ih =>
    obtain ⟨clock, requests, entries, replied⟩ := ih
    have normal : normalize platform "ann@mail" = "ann@mail" := by decide
    have counts : self.attemptsIn (if n = 0 then none else some (.failedAttempts (some (min n (2 ^ 53))) 0)) 0 =
        .number (min n (2 ^ 53)) := by
      by_cases first : n = 0
      · subst first
        rfl
      · simp [first, LoginUseCase.attemptsIn_failedAttempts]
    have next : JsValue.plusOne (.number (min n (2 ^ 53))) = .number (min (n + 1) (2 ^ 53)) := by
      simp only [JsValue.plusOne, JsValue.number.injEq]
      split <;> omega
    have below : (JsValue.number (min (n + 1) (2 ^ 53))).atLeast self.maxFailedAttempts = false :=
      decide_eq_false (by omega)
    have ran := execute_wrong normal (wrongPasswords self n).threads.length (wrongPasswords self n).log entries
      (by rw [counts, next, below])
    rw [counts, next] at ran
    have driven := (congrArg (fun now => ((loginSystem self platform).body ⟨"ann@mail", "wrong"⟩).drive
      (loginSystem self platform).perform (wrongPasswords self n).threads.length (rejecting 0) now 0
      (wrongPasswords self n).shared (wrongPasswords self n).log) clock).trans ran
    have logged : (wrongPasswords self (n + 1)).log = (wrongPasswords self n).log ++ _ :=
      congrArg Driven.log driven
    have own := loginsFor_serve (wrongPasswords_run self n) logged (by simp) "ann@mail"
    refine ⟨congrArg Driven.clock driven, ?_, ?_, ?_⟩
    · intro thread member
      rcases List.mem_append.mp member with earlier | last
      · exact requests thread earlier
      · rw [List.mem_singleton.mp last]
    · have shared : (wrongPasswords self (n + 1)).shared = _ := congrArg Driven.shared driven
      rw [shared, lockoutEntries_count, entries]
      rfl
    · refine own.trans ?_
      have result : (loginSystem self platform).result (wrongPasswords self n)
        (rejecting 0) ⟨"ann@mail", "wrong"⟩ = _ :=
        congrArg Driven.result driven
      rw [replied, if_pos normal, List.replicate_succ', result]
      simp [attemptOf, verdictOf, replyOf, replyTo, ended, List.findSome?_cons,
        passwordAnswer, countedAt, settledAt]

/-- Where the count does not get to the limit, the attempt after so many failures is refused, not locked out. -/
theorem not_refinesAutomaton (tall : 2 ^ 53 < self.maxFailedAttempts) (lasting : 0 < self.lockoutDurationMs)
    (dated : self.lockoutDurationMs ≤ Date.maxTime) : ¬ RefinesAutomaton self platform := by
  intro refines
  obtain ⟨-, requests, -, whole⟩ := wrongPasswords_refused tall (self.maxFailedAttempts + 1)
  have deadlines : ∀ email attempts, attempts <+: (loginsFor platform
    (wrongPasswords self (self.maxFailedAttempts + 1))
      email).map Prod.fst → ∀ ends, (Lockout.after self.policy attempts).lockedUntil = some ends →
      ends ≤ Date.maxTime := by
    intro email attempts early ends locked
    by_cases own : email = "ann@mail"
    · subst own
      rw [whole, List.map_replicate] at early
      have dates := Lockout.lockedUntil_replicate self.policy attempts.length
      rw [← (List.prefix_replicate_iff.mp early).2, locked] at dates
      exact (of_decide_eq_true dates).trans dated
    · have others : loginsFor platform (wrongPasswords self (self.maxFailedAttempts + 1)) email = [] := by
        refine loginsFor_eq_nil fun thread member => ?_
        rw [requests thread member]
        exact Ne.symm own
      rw [others, List.map_nil] at early
      rw [List.prefix_nil.mp early] at locked
      cases locked
  have replied := refines 0 .empty _ (fun _ => rfl) (wrongPasswords_run self _) deadlines "ann@mail"
  have locked : Lockout.after self.policy (List.replicate self.maxFailedAttempts ⟨0, .refused 0 0⟩) =
      ⟨self.maxFailedAttempts, 0, some self.lockoutDurationMs⟩ :=
    Lockout.after_replicate_max (show 1 ≤ self.policy.maxFailures from Nat.one_le_of_lt tall)
  rw [whole, List.replicate_succ'] at replied
  simp only [List.map_append, List.map_replicate, List.map_singleton, Lockout.replies_concat, locked] at replied
  have last := (List.append_inj' replied rfl).2
  simp [Lockout.step, Lockout.Standing.locked, lasting] at last

end

/-- One failure more than a double can count. -/
def uncountable : LoginUseCase := { maxFailedAttempts := 2 ^ 53 + 1, lockoutDurationMs := 900 }

theorem lockout_not_refined : ¬ RefinesAutomaton uncountable platform :=
  not_refinesAutomaton (by decide) (by decide) (by decide)

end Sample

end KeycloakAuth
