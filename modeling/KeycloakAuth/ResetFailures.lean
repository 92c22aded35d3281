import KeycloakAuth.FreshTokens
import KeycloakAuth.Independence
import KeycloakAuth.Ownership
import KeycloakAuth.ReuseRevocation

namespace KeycloakAuth
open Async InMemoryTokenStore

section
variable {κ : Type} (server : KeycloakServer κ) (platform : Platform) (options : Deployment)

/-- A call either fails without effect or is answered. -/
def answerFaulty (choice : Option Thrown × Plan) (now request : Nat) (call : Call) (world : World κ) :
    Except Thrown call.Ans × World κ :=
  match choice.1 with
  | some error => (.error error, world)
  | none => answerCall server platform options choice.2 now request call world

/-- The module over a store and a provider that may fail at any call. -/
def faultySystem :
    System Call.Ans Thrown Request Response (World κ) (Option Thrown × Plan) (Disturbance κ) where
  body := Request.body platform options
  perform := answerFaulty server platform options
  disturb := (authSystem server platform options).disturb

/-- A refresh with the token, as the next request and while Keycloak works, may still be accepted. -/
def StillAccepted (cfg : AuthConfig κ) (t : Str) : Prop :=
  ∃ ready schedule tokens, (authSystem server platform options).Reach onlyWaits cfg ready ∧
    (∀ id, t.subject = some id → ∀ index, Reaches server ready.shared.keycloak id (schedule index).2) ∧
    (authSystem server platform options).result ready schedule (.refresh t) = .ok (.refresh tokens)

/-- However the reset ends, either it has not changed the password of the user, or no refresh token that was issued
to the user before is accepted. -/
def ResetSafe (cfg : AuthConfig κ) (schedule : Schedule (Option Thrown × Plan))
    (token : Str) (newPassword : String) :
    Prop :=
  ∀ userId changedAt t,
    ⟨cfg.threads.length, .auth (.completePasswordReset userId newPassword), .ok (), changedAt⟩ ∈
      ((faultySystem server platform options).serve cfg schedule (.resetPassword token newPassword)).log →
    IssuedTo cfg.log userId t → ¬ StillAccepted server platform options
      ((faultySystem server platform options).serve cfg schedule (.resetPassword token newPassword)) t

/-- Every reset is safe that is served in a state which the module can reach. -/
def ResetsSafe (clock : Nat) (keycloak : κ) : Prop :=
  ∀ cfg schedule token newPassword,
    (authSystem server platform options).Reach anyEvent (.start clock (.fresh keycloak)) cfg →
    ResetSafe server platform options cfg schedule token newPassword

/-- The reset gets as far as to change the password of the user whose reset record it finds. -/
structure Changes (cfg : AuthConfig κ) (schedule : Schedule (Option Thrown × Plan))
    (token : Str) (newPassword : String)
    (record : TokenRecord) : Prop where
  strong : ∃ password, Password.create newPassword = .ok password
  answered : ∀ index < 3, (schedule index).2.1 = none
  found : cfg.shared.store.findByToken token .resetPassword = some record
  unused : record.consumedAt = none
  unexpired : record.expiresAt.before (cfg.clock + (schedule 0).1) = false
  changed : (answerAuth server platform options (schedule 2).2.2
    (cfg.clock + (schedule 0).1 + (schedule 1).1 + (schedule 2).1) cfg.threads.length
    (.completePasswordReset record.userId newPassword)
    { cfg.shared with
      store := (cfg.shared.store.markConsumed record.id (cfg.clock + (schedule 0).1 + (schedule 1).1)).2 }).1 =
        .ok ()

end

/-- The refresh records on file. -/
def InMemoryTokenStore.sessions (store : InMemoryTokenStore) : List TokenRecord :=
  store.records.filter (·.type = .refreshToken)

namespace InMemoryTokenStore

theorem findByToken_sessions (store : InMemoryTokenStore) (t : Str) :
    store.findByToken t .refreshToken = store.sessions.find? (·.token = hashToken t) := by
  rw [findByToken_eq, sessions, List.find?_filter]
  congr 1
  funext record
  rw [Bool.eq_iff_iff]
  simp [and_comm]

theorem sessions_deleteRecords (store : InMemoryTokenStore) (doomed : TokenRecord → Bool) :
    (store.deleteRecords doomed).sessions = store.sessions.filter fun record => !doomed record := by
  rw [sessions, sessions, filter_deleteRecords]

/-- Records of other kinds may be taken. -/
theorem sessions_markConsumed {store : InMemoryTokenStore} {record : TokenRecord} (now : Nat)
    (member : record ∈ store.records) (unused : record.consumedAt = none) (other : record.type ≠ .refreshToken) :
    (store.markConsumed record.id now).2.sessions = store.sessions := by
  rw [sessions, sessions, (markConsumed_unused now member unused).2,
    filter_consume fun record => by rw [consume_type]]
  refine (List.map_congr_left fun session inStore => ?_).trans (List.map_id _)
  obtain ⟨onFile, refresh⟩ := List.mem_filter.mp inStore
  have apart : session.id ≠ record.id := by
    intro same
    rw [eq_of_id_eq onFile member same] at refresh
    exact other (of_decide_eq_true refresh)
  rw [consume_other now apart, id_eq]

end InMemoryTokenStore

section
variable {κ : Type} {server : KeycloakServer κ} {platform : Platform} {options : Deployment}
  {permitted : AuthConfig κ → AuthEvent κ → Prop} {clock : Nat} {keycloak : κ}
    {cfg other ready : AuthConfig κ} {t : Str}

/-- What else waits as long has the same sessions in the end. -/
theorem waits_sessions (waits : (authSystem server platform options).Reach onlyWaits cfg ready)
    (clock : other.clock = cfg.clock) (same : other.shared.store.sessions = cfg.shared.store.sessions) :
    ∃ last, (authSystem server platform options).Reach onlyWaits other last ∧ last.clock = ready.clock ∧
      last.shared.keycloak = ready.shared.keycloak ∧ last.shared.store.sessions = ready.shared.store.sessions := by
  have waited : ∃ last, (authSystem server platform options).Reach onlyWaits other last ∧ last.clock = ready.clock ∧
      last.shared.store.sessions = ready.shared.store.sessions := by
    induction waits with
    | start => exact ⟨other, .start, clock, same⟩
    | next _ allowed step ih =>
      obtain ⟨last, reached, time, sessions⟩ := ih
      rcases System.advance_cases step with ⟨delay, rfl, rfl⟩ | ⟨change, rfl, rfl⟩ | ⟨_, rfl, rfl⟩ |
        ⟨_, _, _, _, _, rfl, _, _, rfl⟩
      · refine ⟨_, reached.next (by trivial) (show System.advance _ last (.tick delay) =
          some _ from rfl), ?_, sessions⟩
        exact congrArg (· + delay) time
      · refine ⟨_, reached.next (by trivial) (show System.advance _ last (.disturb change) =
          some _ from rfl), time, ?_⟩
        cases change with
        | keycloak state => exact sessions
        | deleteExpired =>
          simp only [authSystem, InMemoryTokenStore.deleteExpired, sessions_deleteRecords, sessions, time]
      · exact allowed.elim
      · exact allowed.elim
  obtain ⟨last, reached, time, sessions⟩ := waited
  exact ⟨_, reached.next (by trivial) (show System.advance _ last
    (.disturb (.keycloak ready.shared.keycloak)) = some _ from rfl), time, rfl, sessions⟩

/-- A refresh that is accepted has found an unused record, and Keycloak has let its token pass. -/
theorem accepted_found {schedule : Schedule Plan} {tokens : SessionResponse}
    (answered : (authSystem server platform options).result cfg schedule (.refresh t) = .ok (.refresh tokens)) :
    ∃ record asked plan world granted, cfg.shared.store.findByToken t .refreshToken = some record ∧
      record.consumedAt = none ∧ cfg.clock ≤ asked ∧
      (answerAuth server platform options plan asked cfg.threads.length
        (.refreshToken t) world).1 = .ok granted := by
  have ran := (serve_refresh server platform options (fun _ => True) t cfg schedule fun _ => trivial).1
  rw [answered] at ran
  generalize ended : (Except.ok (Response.refresh tokens) : Except Thrown Response) = result at ran
  generalize ((authSystem server platform options).serve cfg schedule (.refresh t)).clock = finish at ran
  generalize ((authSystem server platform options).serve cfg schedule (.refresh t)).shared.store = after at ran
  cases ran with
  | unknown => cases ended
  | reused => cases ended
  | expired => cases ended
  | failed => cases ended
  | rotated found unused same since order signs => exact ⟨_, _, _, _, _, found, unused, since, signs⟩

/-- Whatever is still accepted is on file. -/
theorem StillAccepted.on_file (accepted : StillAccepted server platform options cfg t) :
    ∃ record ∈ cfg.shared.store.sessions, record.token = hashToken t := by
  obtain ⟨ready, schedule, tokens, waits, -, answered⟩ := accepted
  obtain ⟨record, -, -, -, -, found, -⟩ := accepted_found answered
  obtain ⟨member, hashed, typed⟩ := findByToken_spec found
  exact ⟨record, List.mem_filter.mpr ⟨waits_records waits member, decide_eq_true typed⟩, hashed⟩

/-- Whether a token is still accepted depends on the sessions on file and on the time. -/
theorem StillAccepted.transfer (accepted : StillAccepted server platform options cfg t)
    (clock : other.clock = cfg.clock) (same : other.shared.store.sessions = cfg.shared.store.sessions)
    (signed : ∀ record ∈ cfg.shared.store.sessions, record.token = hashToken t → SignedFor options t record) :
    StillAccepted server platform options other t := by
  obtain ⟨ready, schedule, tokens, waits, works, answered⟩ := accepted
  obtain ⟨last, waits', time, keycloak, sessions⟩ := waits_sessions waits clock same
  obtain ⟨record, asked, plan, world, granted, found, unused, since, signs⟩ := accepted_found answered
  obtain ⟨member, hashed, typed⟩ := findByToken_spec found
  have onFile : record ∈ cfg.shared.store.sessions :=
    List.mem_filter.mpr ⟨waits_records waits member, decide_eq_true typed⟩
  obtain ⟨user, issuedAt, rfl, named, known, lives⟩ := signed record onFile hashed
  have unexpired : asked / 1000 < issuedAt / 1000 + options.jwt.refreshToken.expiresIn := by
    rw [answerAuth_refreshToken] at signs
    cases valid : refreshClaims options asked (issued options issuedAt user).refreshToken with
    | error error =>
      simp only [valid] at signs
      cases signs
    | ok payload =>
      obtain ⟨sameToken, -, -, bound⟩ := refreshClaims_ok valid
      cases sameToken
      exact bound _ rfl
  have early : ready.clock / 1000 < issuedAt / 1000 + options.jwt.refreshToken.expiresIn := by
    have earlier : ready.clock / 1000 ≤ asked / 1000 := Nat.div_le_div_right since
    omega
  -- the token is presented at once, while Keycloak is as it was then
  let prompt : Schedule Plan := fun _ => (0, (schedule 0).2)
  have works : Reaches server last.shared.keycloak user.id (schedule 0).2 := keycloak ▸ works user.id rfl 0
  have again := (serve_refresh server platform options (Reaches server last.shared.keycloak user.id)
    (issued options issuedAt user).refreshToken last prompt fun _ => works).1
  rw [System.serve_clock last (fun _ => rfl), time] at again
  have stands : last.shared.store.findByToken (issued options issuedAt user).refreshToken .refreshToken =
      some record := by
    rw [findByToken_sessions, sessions, ← findByToken_sessions]
    exact found
  rcases again.rotates stands (lives _ early) rfl known early with ⟨used, -⟩ | ⟨-, rotated, -, -, answered', -⟩
  · simp [unused] at used
  · refine ⟨last, prompt, rotated, waits', ?_, answered'⟩
    rintro _ ⟨⟩ _
    exact works

variable (server platform options) in
/-- How a reset ends: without a changed password, or with one and then with or without the wipe. -/
inductive ResetRun (cfg : AuthConfig κ) (schedule : Schedule (Option Thrown × Plan)) (token : Str)
    (newPassword : String) : Nat → InMemoryTokenStore → List LogEntry → Prop
  | unchanged {finish store history}
      (fails : ∀ record, ¬ Changes server platform options cfg schedule token newPassword record)
      (none : ∀ userId t, ⟨cfg.threads.length, .auth (.completePasswordReset userId newPassword),
        .ok (), t⟩ ∉ history) :
      ResetRun cfg schedule token newPassword finish store (cfg.log ++ history)
  | survived {record error history}
      (changes : Changes server platform options cfg schedule token newPassword record)
      (fails : (schedule 3).2.1 = some error)
      (one : ∀ userId t, ⟨cfg.threads.length, .auth (.completePasswordReset userId newPassword),
        .ok (), t⟩ ∈ history →
        userId = record.userId)
      (logged : ⟨cfg.threads.length, .auth (.completePasswordReset record.userId newPassword), .ok (),
        cfg.clock + (schedule 0).1 + (schedule 1).1 + (schedule 2).1⟩ ∈ history) :
      ResetRun cfg schedule token newPassword
        (cfg.clock + (schedule 0).1 + (schedule 1).1 + (schedule 2).1 + (schedule 3).1)
        (cfg.shared.store.markConsumed record.id (cfg.clock + (schedule 0).1 + (schedule 1).1)).2
          (cfg.log ++ history)
  | wiped {record finish history}
      (changes : Changes server platform options cfg schedule token newPassword record)
      (answered : (schedule 3).2.1 = none)
      (one : ∀ userId t, ⟨cfg.threads.length, .auth (.completePasswordReset userId newPassword),
        .ok (), t⟩ ∈ history →
        userId = record.userId) :
      ResetRun cfg schedule token newPassword finish
        ((cfg.shared.store.markConsumed record.id (cfg.clock + (schedule 0).1 + (schedule 1).1)).2.deleteAllForUser
          record.userId) (cfg.log ++ history)

variable (server platform options) in
theorem answerFaulty_failed {choice : Option Thrown × Plan} {error : Thrown} (fails : choice.1 = some error)
    (now request : Nat) (call : Call) (world : World κ) :
    answerFaulty server platform options choice now request call world = (.error error, world) := by
  simp only [answerFaulty, fails]

variable (server platform options) in
theorem answerFaulty_answered {choice : Option Thrown × Plan} (answered : choice.1 = none)
    (now request : Nat) (call : Call) (world : World κ) :
    answerFaulty server platform options choice now request call world =
      answerCall server platform options choice.2 now request call world := by
  simp only [answerFaulty, answered]

/-- A reset that has taken its record changes the password and then wipes, unless a call fails. -/
theorem drive_change {schedule : Schedule (Option Thrown × Plan)} {token : Str} {newPassword : String}
    {record : TokenRecord} {password : String} {response : Response} {history : List LogEntry}
    (strong : Password.create newPassword = .ok password) (first : (schedule 0).2.1 = none)
    (second : (schedule 1).2.1 = none) (found : cfg.shared.store.findByToken token .resetPassword = some record)
    (unused : record.consumedAt = none) (unexpired : record.expiresAt.before (cfg.clock + (schedule 0).1) = false)
    (none : ∀ userId t,
      ⟨cfg.threads.length, .auth (.completePasswordReset userId newPassword), .ok (), t⟩ ∉ history) :
    let taken := (cfg.shared.store.markConsumed record.id (cfg.clock + (schedule 0).1 + (schedule 1).1)).2
    let last := Program.drive (answerFaulty server platform options) cfg.threads.length
      ((Program.perform (.auth (.completePasswordReset record.userId newPassword))).bind fun _ =>
        (Program.perform (.store (.deleteAllForUser record.userId))).bind fun _ => .done response)
      (fun index => schedule (index + 2)) (cfg.clock + (schedule 0).1 + (schedule 1).1) 0
      { cfg.shared with store := taken } (cfg.log ++ history)
    ResetRun server platform options cfg schedule token newPassword last.clock last.shared.store last.log := by
  intro taken last
  have own {other : TokenRecord} (changes : Changes server platform options cfg schedule token newPassword other) :
      record = other := Option.some.inj (found.symm.trans changes.found)
  cases third : (schedule 2).2.1 with
  | some error =>
    simp only [last]
    rw [Program.drive_perform_error (answerFaulty_failed server platform options third ..), List.append_assoc]
    refine .unchanged (fun other changes => ?_) (by simp [none])
    cases third.symm.trans (changes.answered 2 (by omega))
  | none =>
  generalize resetting : answerAuth server platform options (schedule 2).2.2
    (cfg.clock + (schedule 0).1 + (schedule 1).1 + (schedule 2).1) cfg.threads.length
    (.completePasswordReset record.userId newPassword) { cfg.shared with store := taken } = reset
  obtain ⟨result, world⟩ := reset
  have answers := (answerFaulty_answered server platform options third
    (cfg.clock + (schedule 0).1 + (schedule 1).1 + (schedule 2).1) cfg.threads.length
    (.auth (.completePasswordReset record.userId newPassword)) _).trans resetting
  have kept : world.store = taken := by
    rw [← show _ = world from congrArg Prod.snd resetting]
    exact answerAuth_store _ _ _ _ _ _ _ fun _ no => by cases no
  cases result with
  | error error =>
    simp only [last]
    rw [Program.drive_perform_error answers, List.append_assoc]
    refine .unchanged (fun other changes => ?_) (by simp [none])
    obtain rfl := own changes
    cases (congrArg Prod.fst resetting).symm.trans changes.changed
  | ok value =>
  have changes : Changes server platform options cfg schedule token newPassword record :=
    { strong := ⟨password, strong⟩
      answered := fun index low => by
        obtain rfl | rfl | rfl : index = 0 ∨ index = 1 ∨ index = 2 := by omega
        · exact first
        · exact second
        · exact third
      found := found
      unused := unused
      unexpired := unexpired
      changed := congrArg Prod.fst resetting }
  simp only [last]
  rw [Program.drive_perform_ok answers]
  cases fourth : (schedule 3).2.1 with
  | some error =>
    rw [Program.drive_perform_error (answerFaulty_failed server platform options fourth ..)]
    simp only [List.append_assoc, kept]
    exact .survived changes fourth (by simp [none]) (by simp)
  | none =>
    rw [Program.drive_perform_ok (answerFaulty_answered server platform options fourth ..)]
    simp only [List.append_assoc, Program.drive, answerStore, kept]
    exact .wiped changes fourth (by simp [none])

variable (server platform options) in
theorem serve_reset (cfg : AuthConfig κ) (schedule : Schedule (Option Thrown × Plan)) (token : Str)
    (newPassword : String) :
    let last := (faultySystem server platform options).serve cfg schedule (.resetPassword token newPassword)
    ResetRun server platform options cfg schedule token newPassword last.clock last.shared.store last.log := by
  have failed {index : Nat} (low : index < 3) {error : Thrown} (fails : (schedule index).2.1 = some error)
      (record : TokenRecord) : ¬ Changes server platform options cfg schedule token newPassword record := by
    intro changes
    cases fails.symm.trans (changes.answered index low)
  simp only [System.serve, faultySystem, Request.body, ResetPasswordUseCase.execute, Service.tokenStore,
    Service.authProvider, Program.bind_eq, Program.bind_assoc]
  cases strong : Password.create newPassword with
  | error weak =>
    have run : ResetRun server platform options cfg schedule token newPassword cfg.clock cfg.shared.store
        (cfg.log ++ []) := by
      refine .unchanged (fun record changes => ?_) (by simp)
      obtain ⟨password, valid⟩ := changes.strong
      cases strong.symm.trans valid
    rwa [List.append_nil] at run
  | ok password =>
  rw [Program.ofExcept_ok, Program.done_bind]
  cases first : (schedule 0).2.1 with
  | some error =>
    rw [Program.drive_perform_error (answerFaulty_failed server platform options first ..)]
    exact .unchanged (failed (by omega) first) (by simp)
  | none =>
  rw [Program.drive_perform_ok (answerFaulty_answered server platform options first ..)]
  simp only [answerStore]
  cases found : cfg.shared.store.findByToken token .resetPassword with
  | none =>
    refine .unchanged (fun record changes => ?_) (by simp)
    cases found.symm.trans changes.found
  | some record =>
  have own {other : TokenRecord} (changes : Changes server platform options cfg schedule token newPassword other) :
      record = other := Option.some.inj (found.symm.trans changes.found)
  by_cases used : record.consumedAt.isSome = true
  · simp only [used, if_true]
    refine .unchanged (fun other changes => ?_) (by simp)
    rw [own changes, changes.unused] at used
    cases used
  have unused : record.consumedAt = none := by simpa using used
  simp only [used, Bool.false_eq_true, if_false, Program.now_bind, Program.clock_bind, Program.drive]
  by_cases past : record.expiresAt.before (cfg.clock + (schedule 0).1) = true
  · simp only [past, if_true]
    refine .unchanged (fun other changes => ?_) (by simp)
    rw [own changes, changes.unexpired] at past
    cases past
  simp only [past, Bool.false_eq_true, if_false, Program.bind_assoc]
  cases second : (schedule 1).2.1 with
  | some error =>
    rw [Program.drive_perform_error (answerFaulty_failed server platform options second ..), List.append_assoc]
    exact .unchanged (failed (by omega) second) (by simp)
  | none =>
  rw [Program.drive_perform_ok (answerFaulty_answered server platform options second ..)]
  have taken := markConsumed_unused (cfg.clock + (schedule 0).1 + (schedule 1).1) (findByToken_spec found).1 unused
  simp only [answerStore, taken.1, Bool.not_true, Bool.false_eq_true, if_false, Program.bind_assoc, Nat.zero_add,
    List.append_assoc]
  exact drive_change strong first second found unused (by simpa using past) (by simp)

variable (schedule : Schedule (Option Thrown × Plan)) (token : Str) (newPassword : String) in
/-- A reset is safe unless it changes the password, cannot wipe the records of the user, and a token of the user
would be accepted by then without it. -/
theorem reset_safe_iff
    (reach : (authSystem server platform options).Reach permitted (.start clock (.fresh keycloak)) cfg) :
    ResetSafe server platform options cfg schedule token newPassword ↔
      ¬ ∃ record t, Changes server platform options cfg schedule token newPassword record ∧
        (schedule 3).2.1.isSome = true ∧ IssuedTo cfg.log record.userId t ∧ StillAccepted server platform options
          { cfg with clock := cfg.clock + (schedule 0).1 + (schedule 1).1 + (schedule 2).1 + (schedule 3).1 }
            t := by
  have run := serve_reset server platform options cfg schedule token newPassword
  simp only at run
  have fresh {userId : String} {t : Nat} {history : List LogEntry}
      (member : ⟨cfg.threads.length, .auth (.completePasswordReset userId newPassword), .ok (), t⟩ ∈
        cfg.log ++ history) :
      ⟨cfg.threads.length, .auth (.completePasswordReset userId newPassword), .ok (), t⟩ ∈ history := by
    rcases List.mem_append.mp member with old | new
    · exact absurd (reach.request_lt _ old) (Nat.lt_irrefl _)
    · exact new
  have signed {t : Str} (record : TokenRecord) (onFile : record ∈ cfg.shared.store.sessions)
      (hashed : record.token = hashToken t) : SignedFor options t record := by
    obtain ⟨member, typed⟩ := List.mem_filter.mp onFile
    exact reach_signedFor reach member hashed (of_decide_eq_true typed)
  unfold ResetSafe
  generalize (faultySystem server platform options).serve cfg schedule
    (.resetPassword token newPassword) = last at run ⊢
  generalize time : last.clock = finish at run
  generalize stored : last.shared.store = store at run
  generalize last.log = log at run ⊢
  cases run with
  | unchanged fails none =>
    constructor
    · rintro - ⟨record, t, changes, -⟩
      exact fails record changes
    · intro _ userId changedAt t member
      exact absurd (fresh member) (none userId changedAt)
  | @survived record error history changes fails one logged =>
    have sessions : last.shared.store.sessions = cfg.shared.store.sessions := by
      obtain ⟨member, -, typed⟩ := findByToken_spec changes.found
      rw [stored, sessions_markConsumed _ member changes.unused (by rw [typed]; decide)]
    constructor
    · rintro safe ⟨other, t, changes', -, issued, accepted⟩
      cases Option.some.inj (changes.found.symm.trans changes'.found)
      exact safe _ _ t (List.mem_append_right _ logged) issued (accepted.transfer time sessions signed)
    · intro never userId changedAt t member issued accepted
      obtain rfl := one userId changedAt (fresh member)
      refine never ⟨record, t, changes, by rw [fails]; rfl, issued, accepted.transfer time.symm sessions.symm ?_⟩
      rw [sessions]
      exact signed
  | @wiped record finish history changes answered one =>
    constructor
    · rintro - ⟨_, _, -, fails, -⟩
      rw [answered] at fails
      cases fails
    · intro _ userId changedAt t member issued accepted
      obtain rfl := one userId changedAt (fresh member)
      obtain ⟨session, onFile, hashed⟩ := accepted.on_file
      obtain ⟨member, -, typed⟩ := findByToken_spec changes.found
      rw [stored, InMemoryTokenStore.deleteAllForUser, sessions_deleteRecords,
        sessions_markConsumed _ member changes.unused (by rw [typed]; decide)] at onFile
      obtain ⟨before, others⟩ := List.mem_filter.mp onFile
      obtain ⟨user, issuedAt, rfl, named, -⟩ := signed session before hashed
      obtain ⟨original, saved, refresh, owner, token⟩ := issued
      have subject := (reach_session reach saved refresh).subject
      rw [token, owner] at subject
      have theirs : user.id = record.userId := Option.some.inj subject
      rw [← named, theirs] at others
      simp at others

end

namespace Sample

/-- Ann has logged in and has then asked for a reset link. -/
def mailed : AuthConfig Realm := after loggedIn
  [.arrive (.forgotPassword "ann@mail"), .resume 1 .good, .resume 1 .good, .resume 1 .good, .resume 1 .good]

theorem mailed_reach : system.Reach anyEvent start mailed :=
  loggedIn_reach.trans (after_reach (fun _ _ _ => trivial) rfl)

/-- No call fails. -/
def working : Schedule (Option Thrown × Plan) := fun _ => (0, none, .good)

theorem reset_safe_iff_working :
    ResetSafe Realm.server platform options mailed working (.random ⟨1, 0⟩) "New Password 1!" := by
  refine (reset_safe_iff working (.random ⟨1, 0⟩) "New Password 1!" mailed_reach).mpr ?_
  rintro ⟨_, _, _, fails, _⟩
  cases fails

/-- The store fails when the records are to be wiped. -/
def storeDown : Schedule (Option Thrown × Plan) := fun index =>
  (0, if index = 3 then some (.error "connection lost") else none, .good)

/-- Ann's password is changed, her records stay on file, and her old session is rotated. -/
theorem resets_not_safe : ¬ ResetsSafe Realm.server platform options 1000 realm := by
  intro safe
  refine safe mailed storeDown (.random ⟨1, 0⟩) "New Password 1!" mailed_reach "ann" 1000 (session ann 1000)
    (List.mem_of_getElem? (i := 12) rfl) ⟨_, ⟨_, List.mem_of_getElem? (i := 5) rfl, rfl⟩, rfl, rfl, rfl⟩
    ⟨_, promptly, _, .start, ?_, rfl⟩
  rintro id ⟨⟩ index
  exact ⟨fun _ => rfl, ⟨_, rfl⟩, _, rfl⟩

end Sample

end KeycloakAuth
