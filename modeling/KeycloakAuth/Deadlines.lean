import Mathlib.Order.Bounds.Basic
import KeycloakAuth.Options
import KeycloakAuth.Cleanup

namespace KeycloakAuth
open Async Js LoginUseCase Counter InMemoryTokenStore

/-- The end of the session that is saved at the clock reading `now`. -/
def refreshDeadline (options : AuthModuleOptions) (now : Nat) : Option ℤ := do
  let ttl ← (refreshTokenTtlMs options).toOption
  timeClip ((Number.finite now).add ttl)

/-- The end of the lock that is set at the clock reading `now`. -/
def Counter.Limits.lockDeadline (self : Limits) (now : Nat) : Option ℤ :=
  timeClip ((Number.finite now).add self.lockoutDurationMs)

section
variable {now : Nat}

/-- The refresh deadline is a date as long as the exact sum is in the range of dates. -/
theorem refreshDeadline_eq {options : AuthModuleOptions} {seconds : Nat}
    (named : options.refreshSeconds = some seconds) : refreshDeadline options now =
      if now + seconds * 1000 ≤ Date.maxTime then some ((now + seconds * 1000 : ℕ) : ℤ) else none := by
  obtain ⟨ttl, given, saturates⟩ := AuthModuleOptions.refreshTokenTtlMs_saturates named
  rw [← timeClip_of_saturates (saturates.add now), refreshDeadline, given]
  rfl

/-- A sum that is half a millisecond past the last date is still rounded to it. -/
theorem timeClip_ofExact {y : ℚ} : (timeClip (.ofExact y)).isSome ↔ |y| ≤ Date.maxTime + 1 / 2 := by
  have range : |rounded y| ≤ Date.maxTime ↔ |y| ≤ Date.maxTime + 1 / 2 :=
    abs_rounded_le_iff (n := Date.maxTime) (by decide) (by decide) (by decide)
  have last : (Date.maxTime : ℚ) ≤ 2 ^ 53 := by exact_mod_cast maxTime_lt.le
  rw [← range]
  by_cases small : |rounded y| ≤ Date.maxTime
  · simp [Number.ofExact_of_rounded rfl (small.trans last), timeClip, small]
  · refine iff_of_false ?_ small
    unfold Number.ofExact
    split_ifs <;> simp [timeClip, small]

theorem lockDeadline_isSome {self : Limits} : (self.lockDeadline now).isSome ↔
    ∃ duration : ℚ, self.lockoutDurationMs = .finite duration ∧ |now + duration| ≤ Date.maxTime + 1 / 2 := by
  unfold Limits.lockDeadline
  cases self.lockoutDurationMs with
  | nan => simp [Number.add, timeClip]
  | infinity negative => simp [Number.add, timeClip]
  | finite duration => simp only [Number.finite.injEq, exists_eq_left', Number.add, timeClip_ofExact]

/-- The options that a deployment was described by, where their numbers are natural numbers. -/
structure Deploys (options : AuthModuleOptions) (deployment : Deployment) : Prop where
  expiresIn : options.refreshSeconds = some deployment.jwt.refreshToken.expiresIn
  maxAttempts : options.lockout.bind (·.maxAttempts) = deployment.maxAttempts.map fun count => .finite count
  duration : options.lockout.bind (·.duration) = deployment.duration.map fun ms => .finite ms

theorem Deploys.limits {options : AuthModuleOptions} {deployment : Deployment}
    (deploys : Deploys options deployment) :
    options.limits = Counter.limits deployment.loginUseCase := by
  simp only [AuthModuleOptions.limits, LoginUseCaseOptions.limits, Counter.limits, Deployment.loginUseCase,
    deploys.maxAttempts, deploys.duration]
  cases deployment.maxAttempts <;> cases deployment.duration <;> rfl

/-- So the dates of its sessions are those that the doubles give. -/
theorem Deploys.refreshDeadline {options : AuthModuleOptions} {deployment : Deployment}
    (deploys : Deploys options deployment) : KeycloakAuth.refreshDeadline options now =
      (Date.ofMs (now + deployment.refreshTokenTtlMs)).time.map Int.ofNat := by
  rw [refreshDeadline_eq deploys.expiresIn, Date.ofMs, Deployment.refreshTokenTtlMs]
  split_ifs <;> rfl

end

/-- After that time the record is refused by `RefreshTokenUseCase`, however the module is configured, and
`deleteExpired` removes it. -/
structure EndsAt (record : TokenRecord) (time : Nat) : Prop where
  refused : ∀ {κ : Type} (server : KeycloakServer κ) platform (options : Deployment) (cfg : AuthConfig κ)
    schedule token, cfg.shared.store.findByToken token .refreshToken = some record → time < cfg.clock →
    (∀ response, (authSystem server platform options).result cfg schedule (.refresh token) ≠ .ok response) ∧
      (record.consumedAt = none → Declined server platform options cfg schedule token)
  removed : ∀ (store : InMemoryTokenStore) (clock : Nat), time < clock →
    record ∉ (store.deleteExpired clock).records

theorem endsAt_of_date {record : TokenRecord} {time : Nat} (lifetime : record.expiresAt = ⟨some time⟩) :
    EndsAt record time := by
  have past {clock : Nat} (late : time < clock) : record.expiresAt.before clock = true := by
    simpa [lifetime, Date.before] using late
  refine ⟨fun {κ} server platform options cfg schedule token found late => ⟨?_, fun unused => ?_⟩, ?_⟩
  · obtain ⟨next, presents⟩ : ∃ next, Presents server platform options (.refresh token) .refreshToken token next :=
      presents_refresh token
    exact presents.fails_of_expired found (past late)
  · exact declined_of_past found unused (past late)
  · intro store clock late kept
    rw [deleteExpired, deleteRecords_records, List.mem_filter] at kept
    simp [past late] at kept

/-- A record whose deadline is no date is never removed. -/
theorem kept_of_no_date {store : InMemoryTokenStore} {record : TokenRecord} (onFile : record ∈ store.records)
    (dateless : record.expiresAt = ⟨none⟩) (clock : Nat) : record ∈ (store.deleteExpired clock).records := by
  rw [deleteExpired, deleteRecords_records, List.mem_filter]
  exact ⟨onFile, by simp [dateless, Date.before]⟩

/-- A wrong password, by the time at which it is served and the time that its calls take. -/
structure WrongPassword where
  clock : Nat
  schedule : Schedule Unit

namespace WrongPassword
variable (attempt : WrongPassword)

/-- When the failures so far are read and one more is written. -/
def countedAt : Nat := attempt.clock + (attempt.schedule 0).1

/-- When the lock deadline is computed, if it is. -/
def locksAt : Nat := attempt.countedAt + (attempt.schedule 1).1

def serve (self : Limits) (conversions : Conversions) (email : String) (entries : Entries) : Entries :=
  (self.run conversions email attempt.schedule attempt.clock entries).shared

end WrongPassword

/-- Wrong passwords for an address that had neither a counter nor a lock, one served after the other: how many,
the last of them, and the store after it. Each is counted within the lockout duration after the one before it, or
at the same instant. -/
inductive InARow (self : Limits) (conversions : Conversions) (email : String) : Nat → WrongPassword → Entries → Prop
  | first {entries : Entries} {attempt : WrongPassword} (uncounted : entries "system" (failedKey email) = none)
      (unlocked : entries "system" (lockKey email) = none) (range : attempt.countedAt ≤ Date.maxTime) :
      InARow self conversions email 1 attempt (attempt.serve self conversions email entries)
  | next {n : Nat} {earlier attempt : WrongPassword} {entries : Entries}
      (row : InARow self conversions email n earlier entries) (order : earlier.locksAt ≤ attempt.clock)
      (inTime : attempt.countedAt = earlier.countedAt ∨
        self.lockoutDurationMs.atLeast (.finite (attempt.countedAt - earlier.countedAt)) = true)
      (range : attempt.countedAt ≤ Date.maxTime) :
      InARow self conversions email (n + 1) attempt (attempt.serve self conversions email entries)

/-- The number of wrong passwords that lock an account. -/
def Counter.Limits.Needs (self : Limits) (n : Nat) : Prop :=
  IsLeast {count : ℕ | 1 ≤ count ∧ (Number.finite count).atLeast self.maxFailedAttempts = true} n

/-- At the clock reading `now` the refresh deadline is a date, at which the record saved with it ends; and the lock
deadline is one, which is stored by the last of as many wrong passwords as it takes. -/
structure WellFormedDeadlines (conversions : Conversions) (options : AuthModuleOptions) (now : Nat) : Prop where
  refresh : ∃ time : ℕ, refreshDeadline options now = some (time : ℤ) ∧
    ∀ record : TokenRecord, record.expiresAt = ⟨some time⟩ → EndsAt record time
  lock : ∃ time, options.limits.lockDeadline now = some time ∧ ∃ n, options.limits.Needs n ∧
    ∀ email attempt entries, InARow options.limits conversions email n attempt entries → attempt.locksAt = now →
      entries "system" (lockKey email) = some (conversions.isoText time)

/-- The lockout numbers with which that is so. The limit is one that a count reaches before counting gets stuck at
2⁵³, and with a negative duration no count is kept for a second wrong password. -/
structure Counter.Limits.InRange (limits : Limits) (now : Nat) : Prop where
  date : ∃ duration : ℚ, limits.lockoutDurationMs = .finite duration ∧ |now + duration| ≤ Date.maxTime + 1 / 2
  reached : (Number.finite (2 ^ 53 : ℕ)).atLeast limits.maxFailedAttempts = true
  kept : limits.lockoutDurationMs.atLeast (.finite 0) = true ∨
    (Number.finite (1 : ℕ)).atLeast limits.maxFailedAttempts = true

section
variable {self : Limits} {conversions : Conversions} {email : String} {n now : Nat} {attempt : WrongPassword}
  {entries : Entries}

/-- What one wrong password leaves, where the failures before it are read as a number. -/
theorem WrongPassword.serve_of_count {count next : ℕ}
    (read : self.attemptsIn conversions (entries "system" (failedKey email)) attempt.countedAt =
      .number (.finite count))
    (counts : Number.ofExact (count + 1 : ℕ) = .finite next) :
    attempt.serve self conversions email entries "system" (failedKey email) =
        some (failedAttempts conversions (.number (.finite next)) attempt.countedAt) ∧
      attempt.serve self conversions email entries "system" (lockKey email) =
        (self.lockAfter conversions (.finite next) attempt.locksAt).or (entries "system" (lockKey email)) := by
  obtain ⟨counter, lock, -⟩ := Limits.run_of_count read rfl
  rw [counts] at counter lock
  exact ⟨counter, lock⟩

theorem Counter.Limits.lockAfter_of_low {attempts : Number}
    (low : attempts.atLeast self.maxFailedAttempts = false) :
    self.lockAfter conversions attempts now = none := by
  simp [Limits.lockAfter, low]

theorem Counter.Limits.lockAfter_of_reached {attempts : Number} {time : ℤ}
    (reached : attempts.atLeast self.maxFailedAttempts = true) (date : self.lockDeadline now = some time) :
    self.lockAfter conversions attempts now = some (conversions.isoText time) := by
  rw [Limits.lockAfter, if_pos reached, dateText_eq]
  exact congrArg (Option.map conversions.isoText) date

/-- Without a counter there has been no failure. -/
theorem Counter.Limits.attemptsIn_none : self.attemptsIn conversions none now = .number (.finite (0 : ℕ)) := by
  rw [Nat.cast_zero]
  rfl

/-- What is on file after `n` wrong passwords in a row, the last of which alone may have reached the limit. -/
structure CountOnFile (limits : Limits) (conversions : Conversions) (email : String)
    (n : Nat) (attempt : WrongPassword)
    (entries : Entries) : Prop where
  range : attempt.countedAt ≤ Date.maxTime
  counter : entries "system" (failedKey email) =
    some (failedAttempts conversions (.number (.finite n)) attempt.countedAt)
  lock : entries "system" (lockKey email) = limits.lockAfter conversions (.finite n) attempt.locksAt

theorem InARow.positive (row : InARow self conversions email n attempt entries) : 1 ≤ n := by
  cases row <;> omega

/-- The count goes on while it is read within the lockout duration. -/
theorem CountOnFile.next {earlier : WrongPassword} (counted : CountOnFile self conversions email n earlier entries)
    (few : n < 2 ^ 53) (low : (Number.finite n).atLeast self.maxFailedAttempts = false)
    (inTime : self.lockoutDurationMs.atLeast (.finite (attempt.countedAt - earlier.countedAt)) = true)
    (range : attempt.countedAt ≤ Date.maxTime) :
    CountOnFile self conversions email (n + 1) attempt (attempt.serve self conversions email entries) := by
  have read : self.attemptsIn conversions (entries "system" (failedKey email)) attempt.countedAt =
      .number (.finite n) := by
    rw [counted.counter, Limits.attemptsIn_failedAttempts counted.range range (scans_number few),
      Number.less_of_atLeast inTime]
    rfl
  obtain ⟨counter, lock⟩ := WrongPassword.serve_of_count read (Number.ofExact_natCast few)
  refine ⟨range, counter, ?_⟩
  rw [lock, counted.lock, Limits.lockAfter_of_low low, Option.or_none]

theorem InARow.counted (row : InARow self conversions email n attempt entries) (few : n ≤ 2 ^ 53)
    (kept : n ≤ 1 ∨ self.lockoutDurationMs.atLeast (.finite 0) = true)
    (low : ∀ m, 1 ≤ m → m < n → (Number.finite m).atLeast self.maxFailedAttempts = false) :
    CountOnFile self conversions email n attempt entries := by
  induction row with
  | @first entries attempt uncounted unlocked range =>
    have read : self.attemptsIn conversions (entries "system" (failedKey email)) attempt.countedAt = _ :=
      uncounted ▸ Limits.attemptsIn_none
    obtain ⟨counter, lock⟩ := WrongPassword.serve_of_count read (Number.ofExact_natCast (by decide))
    refine ⟨range, counter, ?_⟩
    rw [lock, unlocked, Option.or_none]
  | @next n earlier attempt entries row order inTime range ih =>
    have still := kept.resolve_left (by have := row.positive; omega)
    have counted := ih (by omega) (.inr still) fun m positive less =>
      low m positive (less.trans (Nat.lt_succ_self n))
    refine counted.next few (low n row.positive (Nat.lt_succ_self n)) ?_ range
    rcases inTime with same | inTime
    · rw [same, sub_self]
      exact still
    · exact inTime

/-- All wrong passwords at one instant. -/
def atOnce (now : Nat) : WrongPassword := ⟨now, fun _ => (0, ())⟩

variable (email) in
/-- Where the count never leaves what is below the limit, no lock is stored, however many wrong passwords come. -/
theorem exists_inARow_of_stuck {bound : ℕ} (positive : 1 ≤ bound) (range : now ≤ Date.maxTime)
    (low : (Number.finite bound).atLeast self.maxFailedAttempts = false)
    (stuck : ∀ m ≤ bound, ∃ count next : ℕ,
      self.attemptsIn conversions (some (failedAttempts conversions (.number (.finite m)) now)) now =
        .number (.finite count) ∧ Number.ofExact (count + 1 : ℕ) = .finite next ∧ next ≤ bound) (more : 1 ≤ n) :
    ∃ entries, InARow self conversions email n (atOnce now) entries ∧ entries "system" (lockKey email) = none ∧
      ∃ m ≤ bound, entries "system" (failedKey email) =
        some (failedAttempts conversions (.number (.finite m)) now) := by
  have below {m : ℕ} (few : m ≤ bound) : (Number.finite m).atLeast self.maxFailedAttempts = false := by
    by_contra reached
    exact absurd (Number.atLeast_of_le (Nat.cast_le.mpr few) (by simpa using reached)) (by simp [low])
  induction n, more using Nat.le_induction with
  | base =>
    let empty : Entries := fun _ _ => none
    have read : self.attemptsIn conversions (empty "system" (failedKey email)) (atOnce now).countedAt = _ :=
      Limits.attemptsIn_none
    obtain ⟨counter, lock⟩ := WrongPassword.serve_of_count read (Number.ofExact_natCast (by decide))
    refine ⟨_, .first rfl rfl range, ?_, 1, positive, counter⟩
    rw [lock, Limits.lockAfter_of_low (below positive)]
    rfl
  | succ n _ ih =>
    obtain ⟨entries, row, unlocked, m, few, counter⟩ := ih
    obtain ⟨count, next, read, counts, bounded⟩ := stuck m few
    have read : self.attemptsIn conversions (entries "system" (failedKey email)) (atOnce now).countedAt =
        .number (.finite count) := counter ▸ read
    obtain ⟨counter, lock⟩ := WrongPassword.serve_of_count read counts
    refine ⟨_, row.next le_rfl (.inl rfl) range, ?_, next, bounded, counter⟩
    rw [lock, unlocked, Limits.lockAfter_of_low (below bounded)]
    rfl

/-- A count that is read at the instant at which it was written. -/
theorem Counter.Limits.attemptsIn_atOnce (whole : conversions.numberText (.finite (2 ^ 53 : ℕ)) = numeral (2 ^ 53))
    (range : now ≤ Date.maxTime) (few : n ≤ 2 ^ 53) :
    self.attemptsIn conversions (some (failedAttempts conversions (.number (.finite n)) now)) now =
      if self.lockoutDurationMs.less (.finite 0) then zero else .number (.finite n) := by
  have text : conversions.numberText (.finite n) = numeral n := by
    rcases few.lt_or_eq with small | rfl
    · exact conversions.numberText_natCast n small
    · exact whole
  rw [Limits.attemptsIn_failedAttempts range range (scans_numeral text few), sub_self]

theorem Counter.Limits.exists_needs (reached : (Number.finite (2 ^ 53 : ℕ)).atLeast self.maxFailedAttempts = true) :
    ∃ n ≤ 2 ^ 53, self.Needs n := by
  have enough : ∃ count : ℕ, 1 ≤ count ∧ (Number.finite count).atLeast self.maxFailedAttempts = true :=
    ⟨2 ^ 53, by decide, reached⟩
  refine ⟨Nat.find enough, ?_, Nat.isLeast_find enough⟩
  exact Nat.find_le ⟨by decide, reached⟩

/-- As many wrong passwords as it takes do store a lock, for lockout numbers in range. -/
theorem Counter.Limits.InRange.locks {time : ℤ} (inRange : self.InRange now)
    (date : self.lockDeadline now = some time) :
    ∃ n, self.Needs n ∧ ∀ email attempt entries, InARow self conversions email n attempt entries →
      attempt.locksAt = now → entries "system" (lockKey email) = some (conversions.isoText time) := by
  obtain ⟨n, few, needs⟩ := Limits.exists_needs inRange.reached
  refine ⟨n, needs, fun email attempt entries row here => ?_⟩
  have low (m : ℕ) (positive : 1 ≤ m) (less : m < n) : (Number.finite m).atLeast
    self.maxFailedAttempts = false := by
    by_contra reached
    exact absurd (needs.2 ⟨positive, by simpa using reached⟩) (not_le.mpr less)
  have kept : n ≤ 1 ∨ self.lockoutDurationMs.atLeast (.finite 0) = true :=
    inRange.kept.symm.imp_left fun once => needs.2 ⟨le_rfl, once⟩
  rw [(row.counted few kept low).lock, here]
  exact Limits.lockAfter_of_reached needs.1.2 date

/-- And they do so with no others: too high a limit is never reached, nor is one beyond the first failure where the
duration is negative. -/
theorem Counter.Limits.inRange_of_locks (whole : conversions.numberText (.finite (2 ^ 53 : ℕ)) = numeral (2 ^ 53))
    (range : now ≤ Date.maxTime) {time : ℤ} (date : self.lockDeadline now = some time) (needs : self.Needs n)
    (locks : ∀ email attempt entries, InARow self conversions email n attempt entries → attempt.locksAt = now →
      entries "system" (lockKey email) = some (conversions.isoText time)) : self.InRange now := by
  obtain ⟨duration, limit, size⟩ := lockDeadline_isSome.mp (Option.isSome_iff_exists.mpr ⟨time, date⟩)
  have reached {bound : ℕ} (positive : 1 ≤ bound) (stuck : ∀ m ≤ bound, ∃ count next : ℕ,
      self.attemptsIn conversions (some (failedAttempts conversions (.number (.finite m)) now)) now =
        .number (.finite count) ∧ Number.ofExact (count + 1 : ℕ) = .finite next ∧ next ≤ bound) :
      (Number.finite bound).atLeast self.maxFailedAttempts = true := by
    by_contra low
    obtain ⟨entries, row, unlocked, -⟩ :=
      exists_inARow_of_stuck "" positive range (by simpa using low) stuck needs.1.1
    cases unlocked.symm.trans (locks _ _ _ row rfl)
  rcases le_or_gt 0 duration with positive | negative
  · refine ⟨⟨duration, limit, size⟩, reached (by decide) fun m few => ?_, .inl ?_⟩
    · have fresh : self.lockoutDurationMs.less (.finite 0) = false := by
        rw [limit]
        exact decide_eq_false (not_lt.mpr positive)
      have read : self.attemptsIn conversions _ now = _ := Limits.attemptsIn_atOnce whole range few
      rw [fresh] at read
      rcases few.lt_or_eq with small | rfl
      · exact ⟨m, m + 1, read, Number.ofExact_natCast small, small⟩
      · exact ⟨2 ^ 53, 2 ^ 53, read, Number.ofExact_end, le_rfl⟩
    · rw [limit]
      exact decide_eq_true positive
  · have stale : self.lockoutDurationMs.less (.finite 0) = true := by
      rw [limit]
      exact decide_eq_true negative
    have once := reached le_rfl fun m few => by
      have read : self.attemptsIn conversions _ now = _ :=
        Limits.attemptsIn_atOnce whole range (few.trans (by decide))
      rw [stale] at read
      exact ⟨0, 1, by rw [read, Nat.cast_zero]; rfl, Number.ofExact_natCast (by decide), le_rfl⟩
    exact ⟨⟨duration, limit, size⟩, Number.atLeast_of_le (by norm_num) once, .inr once⟩

/-- A startup that accepts its options does not look at how large their numbers are. The deadlines are
well-formed if and only if they are in range. -/
theorem wellFormedDeadlines_iff (whole : conversions.numberText (.finite (2 ^ 53 : ℕ)) = numeral (2 ^ 53))
    {options : AuthModuleOptions} {context : ValidateContext}
    (accepted : validateAuthModuleOptions options context = .ok options) (range : now ≤ Date.maxTime) :
    ∃ seconds, options.refreshSeconds = some seconds ∧ (WellFormedDeadlines conversions options now ↔
      now + seconds * 1000 ≤ Date.maxTime ∧ options.limits.InRange now) := by
  obtain ⟨seconds, named⟩ := AuthModuleOptions.refreshSeconds_of_accepted accepted
  refine ⟨seconds, named, ?_, ?_⟩
  · rintro ⟨⟨time, deadline, -⟩, lockTime, date, n, needs, locks⟩
    refine ⟨?_, Limits.inRange_of_locks whole range date needs locks⟩
    rw [refreshDeadline_eq named] at deadline
    by_contra late
    rw [if_neg late] at deadline
    cases deadline
  · rintro ⟨early, inRange⟩
    obtain ⟨time, date⟩ := Option.isSome_iff_exists.mp (lockDeadline_isSome.mpr inRange.date)
    refine ⟨⟨now + seconds * 1000, ?_, fun record lifetime => endsAt_of_date lifetime⟩,
      time, date, inRange.locks date⟩
    rw [refreshDeadline_eq named, if_pos early]

end

/-- What a deployment with well-formed deadlines files is declined after them. -/
theorem Deploys.declined {κ : Type} {server : KeycloakServer κ} {platform : Platform} {deployment : Deployment}
    {conversions : Conversions} {options : AuthModuleOptions} {now : Nat}
    {cfg : AuthConfig κ} {schedule : Schedule Plan}
    {token : Str} (deploys : Deploys options deployment) (deadlines : WellFormedDeadlines conversions options now)
    (filed : FiledAt deployment cfg.shared.store token now)
    (late : now + deployment.refreshTokenTtlMs < cfg.clock) :
    Declined server platform deployment cfg schedule token := by
  obtain ⟨record, found, unused, lifetime⟩ := filed
  obtain ⟨time, deadline, ends⟩ := deadlines.refresh
  obtain ⟨ms, date, same⟩ := Option.map_eq_some_iff.mp (deploys.refreshDeadline.symm.trans deadline)
  obtain rfl : ms = time := Int.ofNat.inj same
  have early : ms = now + deployment.refreshTokenTtlMs := by
    unfold Date.ofMs at date
    split_ifs at date
    exact (Option.some.inj date).symm
  have ended := ends record (lifetime.trans (congrArg Date.mk date))
  exact (ended.refused server platform deployment cfg schedule token found (early ▸ late)).2 unused

namespace Sample

def secrets (refreshExpiresIn : Text) : AuthModuleOptions.Jwt where
  accessToken := some ⟨some (ofString "the secret that signs access tokens"), some (ofString "15m")⟩
  refreshToken := some ⟨some (ofString "the secret that signs refresh tokens"), some refreshExpiresIn⟩

/-- Sessions of a week, and the lockout as it is by default. -/
def weekly : AuthModuleOptions where
  keycloakConfigPath := some (ofString "keycloak-realm.json")
  jwt := some (secrets (ofString "7d"))

/-- Sessions that end after the last date. -/
def endless : AuthModuleOptions := { weekly with jwt := some (secrets (ofString "99999999999d")) }

/-- A lock that ends after the last date. -/
def unlockable : AuthModuleOptions := { weekly with lockout := some { duration := some (.finite (10 ^ 16 : ℕ)) } }

theorem wellFormedDeadlines_weekly : WellFormedDeadlines conversions weekly 1000 := by
  have whole : conversions.numberText (.finite (2 ^ 53 : ℕ)) = numeral (2 ^ 53) := by
    simp [conversions]
  have accepted : validateAuthModuleOptions weekly ⟨some true⟩ = .ok weekly := rfl
  have range : 1000 ≤ Date.maxTime := by decide
  obtain ⟨seconds, named, inRange⟩ := wellFormedDeadlines_iff whole accepted range
  obtain rfl : 604800 = seconds := Option.some.inj ((show weekly.refreshSeconds =
    some 604800 by rfl).symm.trans named)
  have limits : weekly.limits = ⟨.finite (5 : ℕ), .finite (15 * 60 * 1000 : ℕ)⟩ := rfl
  refine inRange.mpr ⟨by decide, ⟨(15 * 60 * 1000 : ℕ), rfl, ?_⟩, ?_, .inl ?_⟩
  · norm_num [Date.maxTime]
  · rw [limits, Number.atLeast, decide_eq_true_eq, Nat.cast_le]
    decide
  · rw [limits, Number.atLeast, decide_eq_true_eq]
    exact Nat.cast_nonneg _

/-- The startup accepts both of them, at the beginning of 2026 as at any time. -/
theorem wellFormedDeadlines_not_always :
    (validateAuthModuleOptions endless ⟨some true⟩ = .ok endless ∧
      ¬ WellFormedDeadlines conversions endless 1767225600000) ∧
    validateAuthModuleOptions unlockable ⟨some true⟩ = .ok unlockable ∧
      ¬ WellFormedDeadlines conversions unlockable 1767225600000 := by
  refine ⟨⟨rfl, fun deadlines => ?_⟩, rfl, fun deadlines => ?_⟩
  · obtain ⟨time, deadline, -⟩ := deadlines.refresh
    have named : endless.refreshSeconds = some (99999999999 * 86400) := by rfl
    rw [refreshDeadline_eq named, if_neg (by decide)] at deadline
    cases deadline
  · obtain ⟨time, date, -⟩ := deadlines.lock
    obtain ⟨duration, limit, size⟩ := lockDeadline_isSome.mp (Option.isSome_iff_exists.mpr ⟨time, date⟩)
    obtain rfl : ((10 ^ 16 : ℕ) : ℚ) = duration := Number.finite.inj limit
    norm_num [Date.maxTime] at size

end Sample

end KeycloakAuth
