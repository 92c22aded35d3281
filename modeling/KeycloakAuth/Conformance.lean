import KeycloakAuth.ConformingStore
import KeycloakAuth.Expiry

namespace KeycloakAuth
open Async InMemoryTokenStore

namespace TokenStoreContract

/-- A program over the methods of one store. -/
abbrev StoreProgram (α : Type) := Program StoreCall.Ans Thrown α

def violation (message : String) : Thrown := .error ("ITokenStore contract violation: " ++ message)

def assert (condition : Bool) (message : String) : StoreProgram Unit :=
  if condition then return () else throw (violation message)

/-- `assert` on a record that may be missing. -/
def assertFound (record : Option TokenRecord) (message : String) : StoreProgram TokenRecord :=
  match record with
  | some record => return record
  | none => throw (violation message)

def call (call : StoreCall) : StoreProgram call.Ans := Program.perform call

def defaults (id token : Nonce) (now : Nat) : TokenRecord where
  id := .random id
  userId := "user-1"
  type := .refreshToken
  token := .random token
  expiresAt := .ofMs (now + 60000)
  consumedAt := none
  createdAt := .ofMs now

def makeRecord (overrides : TokenRecord → TokenRecord) : StoreProgram TokenRecord := do
  let id ← Program.random
  let token ← Program.random
  let now ← Program.now
  return overrides (defaults id token now)

def save (overrides : TokenRecord → TokenRecord) : StoreProgram Unit := do
  let record ← makeRecord overrides
  call (.save record)

structure Case where
  name : String
  run : StoreProgram Unit

def hiddenRecord : Thrown :=
  violation "findByToken hid a consumed record — this silently breaks refresh-token reuse detection"

def takenTwice : Thrown :=
  violation ("second markConsumed must return false — a non-atomic implementation returns true " ++
    "and opens a double-use window")

def roundTrips : Case where
  name := "save then findByToken round-trips a record by its original token"
  run := do
    let rec' ← makeRecord fun record => { record with token := .lit "raw-token-value" }
    call (.save rec')
    let found : Option TokenRecord ← call (.findByToken (.lit "raw-token-value") .refreshToken)
    let found ← assertFound found "findByToken returned null for a token that was just saved"
    assert (found.userId = rec'.userId) "findByToken returned the wrong userId"
    assert found.consumedAt.isNone "a freshly saved token must not be consumed"

def hashesTokens : Case where
  name := "RULE 1: tokens are persisted hashed, never in clear text"
  run := do
    let raw := Str.lit "super-secret-token"
    save fun record => { record with token := raw }
    let found : Option TokenRecord ← call (.findByToken raw .refreshToken)
    let found ← assertFound found "findByToken returned null"
    assert (found.token ≠ raw) "the stored `token` equals the clear-text value — it must be hashed"
    assert (found.token = hashToken raw) "the stored token is not the SHA-256 hash produced by hashToken()"

def discriminatesByType : Case where
  name := "findByToken discriminates by type"
  run := do
    save fun record => { record with token := .lit "same", type := .refreshToken }
    let asReset : Option TokenRecord ← call (.findByToken (.lit "same") .resetPassword)
    assert asReset.isNone "findByToken ignored the `type` discriminator"

def missesUnknown : Case where
  name := "findByToken returns null for an unknown token"
  run := do
    let found : Option TokenRecord ← call (.findByToken (.lit "never-saved") .refreshToken)
    assert found.isNone "expected null for an unknown token"

def returnsConsumed : Case where
  name := "RULE 2: findByToken returns CONSUMED records (reuse detection needs them)"
  run := do
    save fun record => { record with token := .lit "to-consume" }
    let first : Option TokenRecord ← call (.findByToken (.lit "to-consume") .refreshToken)
    let first ← assertFound first "setup: token not found"
    let _ ← call (.markConsumed first.id)
    let afterConsume : Option TokenRecord ← call (.findByToken (.lit "to-consume") .refreshToken)
    let afterConsume ← assertFound afterConsume
      "findByToken hid a consumed record — this silently breaks refresh-token reuse detection"
    assert afterConsume.consumedAt.isSome "a consumed record must expose a `consumedAt` Date"

def consumesOnce : Case where
  name := "RULE 3: markConsumed is atomic — true once, false on repeat"
  run := do
    save fun record => { record with token := .lit "atomic" }
    let found : Option TokenRecord ← call (.findByToken (.lit "atomic") .refreshToken)
    let found ← assertFound found "setup: token not found"
    let first : Bool ← call (.markConsumed found.id)
    assert first "first markConsumed must return true"
    let second : Bool ← call (.markConsumed found.id)
    assert (!second) ("second markConsumed must return false — a non-atomic implementation returns true " ++
      "and opens a double-use window")

def consumesNothingUnknown : Case where
  name := "markConsumed returns false for a non-existent id"
  run := do
    let id ← Program.random
    let result : Bool ← call (.markConsumed (.random id))
    assert (!result) "markConsumed on a missing id must return false"

def deletesAllForUser : Case where
  name := "deleteAllForUser removes every token for that user only"
  run := do
    save fun record => { record with userId := "u-a", token := .lit "a1" }
    save fun record => { record with userId := "u-a", token := .lit "a2" }
    save fun record => { record with userId := "u-b", token := .lit "b1" }
    call (.deleteAllForUser "u-a")
    let a1 : Option TokenRecord ← call (.findByToken (.lit "a1") .refreshToken)
    assert a1.isNone "deleteAllForUser left a token behind"
    let a2 : Option TokenRecord ← call (.findByToken (.lit "a2") .refreshToken)
    assert a2.isNone "deleteAllForUser left a token behind"
    let b1 : Option TokenRecord ← call (.findByToken (.lit "b1") .refreshToken)
    assert b1.isSome "deleteAllForUser removed another user's token"

def deletesExpired : Case where
  name := "deleteExpired removes only expired tokens"
  run := do
    let now ← Program.now
    save fun record => { record with token := .lit "expired", expiresAt := .ofMs (now - 1000) }
    let now ← Program.now
    save fun record => { record with token := .lit "fresh", expiresAt := .ofMs (now + 60000) }
    call .deleteExpired
    let expired : Option TokenRecord ← call (.findByToken (.lit "expired") .refreshToken)
    assert expired.isNone "deleteExpired kept an expired token"
    let fresh : Option TokenRecord ← call (.findByToken (.lit "fresh") .refreshToken)
    assert fresh.isSome "deleteExpired removed a still-valid token"

def upsertsUserData : Case where
  name := "user data is an upsert keyed on (userId, key)"
  run := do
    call (.saveUserData "u-1" "totpSecret" (.lit "first"))
    let first : Option Str ← call (.getUserData "u-1" "totpSecret")
    assert (first = some (.lit "first")) "getUserData did not return the saved value"
    call (.saveUserData "u-1" "totpSecret" (.lit "second"))
    let second : Option Str ← call (.getUserData "u-1" "totpSecret")
    assert (second = some (.lit "second"))
      "saveUserData did not upsert — a second write for the same (userId, key) must overwrite"
    let missing : Option Str ← call (.getUserData "u-1" "missing")
    assert missing.isNone "getUserData must return null for an unknown key"

def toleratesSystem : Case where
  name := "user data tolerates the literal \"system\" userId (lockout counters)"
  run := do
    call (.saveUserData "system" "login_failed:a@b.com" (.lit "3"))
    let value : Option Str ← call (.getUserData "system" "login_failed:a@b.com")
    assert (value = some (.lit "3")) "the store must accept a non-user \"system\" userId as a plain string key"

def deletesUserData : Case where
  name := "deleteUserData removes an entry and is idempotent"
  run := do
    call (.saveUserData "u-1" "k" (.lit "v"))
    call (.deleteUserData "u-1" "k")
    let value : Option Str ← call (.getUserData "u-1" "k")
    assert value.isNone "deleteUserData did not remove the entry"
    -- a second deletion must not throw
    call (.deleteUserData "u-1" "k")

end TokenStoreContract

open TokenStoreContract

def tokenStoreContractCases : List Case :=
  [roundTrips, hashesTokens, discriminatesByType, missesUnknown, returnsConsumed,
    consumesOnce, consumesNothingUnknown,
    deletesAllForUser, deletesExpired, upsertsUserData, toleratesSystem, deletesUserData]

/-- What happens to the answers of a store on their way to the caller. -/
abbrev Twist := (call : StoreCall) → call.Ans → call.Ans

namespace Twist

def honest : Twist := fun _ answer => answer

/-- A broken store: it hides the consumed records. -/
def hidesConsumed : Twist
  | .findByToken _ _, record => record.filter (·.consumedAt.isNone)
  | _, answer => answer

/-- Another one: its `markConsumed` always returns true. -/
def alwaysConsumes : Twist
  | .markConsumed _, _ => true
  | _, answer => answer

/-- Records that have not been consumed are found as they are. -/
structure ShowsUnused (twist : Twist) : Prop where
  missing : ∀ token type, twist (.findByToken token type) none = none
  found : ∀ token type record, record.consumedAt = none →
    twist (.findByToken token type) (some record) = some record

theorem ShowsUnused.honest : Twist.honest.ShowsUnused := ⟨fun _ _ => rfl, fun _ _ _ _ => rfl⟩

theorem ShowsUnused.hidesConsumed : Twist.hidesConsumed.ShowsUnused :=
  ⟨fun _ _ => rfl, fun _ _ record unused => by simp [Twist.hidesConsumed, unused]⟩

theorem ShowsUnused.alwaysConsumes : Twist.alwaysConsumes.ShowsUnused := ⟨fun _ _ => rfl, fun _ _ _ _ => rfl⟩

end Twist

section
variable {σ : Type}

/-- A store whose answers are changed on the way to the caller. -/
def TokenStore.altered (store : TokenStore σ) (twist : Twist) : TokenStore σ where
  initial := store.initial
  answer now call state :=
    let answered := store.answer now call state
    (answered.1.map (twist call), answered.2)

/-- The surroundings of a case: a store, whose answers take their time. -/
def TokenStore.perform (store : TokenStore σ) (_ : Unit) (now _ : Nat) (call : StoreCall) (state : σ) :
    Except Thrown call.Ans × σ := store.answer now call state

/-- A case over a fresh store, with the delays of the calls. -/
def TokenStore.try (store : TokenStore σ) (contract : Case) (delays : Schedule Unit) (now : Nat) :
    Driven StoreCall.Ans Thrown Unit σ := contract.run.drive store.perform 0 delays now 0 store.initial []

/-- One case after another. The first that fails is reported. -/
def TokenStore.runCases (store : TokenStore σ) : List Case → (delays : Nat → Schedule Unit) → (now : Nat) →
    Except (String × Thrown) Unit
  | [], _, _ => .ok ()
  | contract :: rest, delays, now =>
    let tried := store.try contract (delays 0) now
    match tried.result with
    | .error error => .error (contract.name, error)
    | .ok () => store.runCases rest (fun index => delays (index + 1)) tried.clock

def assertTokenStoreContract (store : TokenStore σ) (delays : Nat → Schedule Unit) (now : Nat) :
    Except (String × Thrown) Unit := store.runCases tokenStoreContractCases delays now

/-- A stage of a case: the store holds what the in-memory one would, under the ids that have been drawn so far. -/
structure ConformingStore.Stands (store : ConformingStore σ) (names : Renaming) (memory : InMemoryTokenStore)
    (drawn : Nat) (state : σ) : Prop where
  holds : store.holds names memory state
  drawn : ∀ pair ∈ names.pairs, ∃ index < drawn, pair.1 = .random ⟨0, index⟩

/-- A conforming store behind a twist, the time by which a case is over, and how it ends. -/
structure Trial (σ : Type) where
  store : ConformingStore σ
  twist : Twist
  last : Nat
  result : Except Thrown Unit

/-- From that stage on the program ends so, if it is over in time. -/
def Trial.Ends (trial : Trial σ) (program : StoreProgram Unit) (names : Renaming) (memory : InMemoryTokenStore)
    (now drawn : Nat) : Prop :=
  ∀ state delays log, trial.store.Stands names memory drawn state →
    (program.drive (trial.store.altered trial.twist).perform 0 delays now drawn state log).clock ≤ trial.last →
    (program.drive (trial.store.altered trial.twist).perform 0 delays now drawn state log).result = trial.result

/-- A record that has just been made, and may be saved. -/
structure Fresh (drawn : Nat) (record : TokenRecord) : Prop where
  own : record.id = .random ⟨0, drawn⟩
  unused : record.consumedAt = none
  expires : record.expiresAt.Valid
  created : record.createdAt.Valid

theorem Fresh.dated {last now drawn : Nat} {record : TokenRecord} (dates : last + 60000 ≤ Date.maxTime)
    (early : now ≤ last) (own : record.id = .random ⟨0, drawn⟩) (unused : record.consumedAt = none)
    (expires : record.expiresAt = .ofMs (now + 60000)) (created : record.createdAt = .ofMs now) :
      Fresh drawn record :=
  ⟨own, unused, ⟨_, by omega, expires⟩, ⟨_, by omega, created⟩⟩

/-- A token is gone when all of its records are. -/
theorem findByToken_deleteRecords_all {memory : InMemoryTokenStore} {doomed : TokenRecord → Bool} {token : Str}
    {type : TokenType} (all : ∀ record ∈ memory.records, record.token = hashToken token → doomed record = true) :
    (memory.deleteRecords doomed).findByToken token type = none := by
  rw [findByToken_eq, deleteRecords_records, List.find?_eq_none]
  intro record member matched
  obtain ⟨filed, kept⟩ := List.mem_filter.mp member
  simp [all record filed (of_decide_eq_true matched).1] at kept

namespace Trial.Ends
variable {trial : Trial σ} {names : Renaming} {memory : InMemoryTokenStore} {now drawn : Nat}

theorem returns (passed : trial.result = .ok ()) : trial.Ends (.done ()) names memory now drawn := fun _ _ _ _ _ =>
  passed.symm

theorem holds {condition : Bool} {message : String} (passed : trial.result = .ok ()) (holds : condition = true) :
    trial.Ends (assert condition message) names memory now drawn := by
  rw [assert, if_pos holds]
  exact returns passed

theorem fails {condition : Bool} {message : String} (failed : trial.result = .error (violation message))
    (fails : condition = false) : trial.Ends (assert condition message) names memory now drawn := by
  rw [assert, if_neg (Bool.eq_false_iff.mp fails)]
  exact fun _ _ _ _ _ => failed.symm

theorem assertion {condition : Bool} {message : String} {next : Unit → StoreProgram Unit} (holds : condition = true)
    (goesOn : trial.Ends (next ()) names memory now drawn) :
    trial.Ends ((assert condition message).bind next) names memory now drawn := by
  rw [assert, if_pos holds]
  exact goesOn

theorem lost {message : String} {next : TokenRecord → StoreProgram Unit}
    (failed : trial.result = .error (violation message)) :
    trial.Ends ((assertFound none message).bind next) names memory now drawn := fun _ _ _ _ _ => failed.symm

theorem clock {next : Nat → StoreProgram Unit} (goesOn : trial.Ends (next now) names memory now drawn) :
    trial.Ends (Program.now.bind next) names memory now drawn := goesOn

/-- A call that is answered, and leaves the store as it leaves the in-memory one. -/
theorem performed {asked other : StoreCall} {next : other.Ans → StoreProgram Unit} (called : names.Call asked other)
    (fresh : ∀ record, asked = .save record → ∃ index < drawn, record.id = .random ⟨0, index⟩)
    (goesOn : ∀ later time answer, now ≤ time → time ≤ trial.last →
      later.Answers asked other (answerStore time asked memory).1 answer → names ≤ later →
      trial.Ends (next (trial.twist other answer)) later (answerStore time asked memory).2 time drawn) :
    trial.Ends ((call other).bind next) names memory now drawn := by
  intro state delays log stands within
  obtain ⟨later, more, added, answered, after⟩ := trial.store.step (now + (delays 0).1) stands.holds called
  have known : ∀ pair ∈ later.pairs, ∃ index < drawn, pair.1 = .random ⟨0, index⟩ := by
    intro pair member
    rcases added pair member with old | ⟨record, saves, same⟩
    · exact stands.drawn pair old
    · obtain ⟨index, before, own⟩ := fresh record saves
      exact ⟨index, before, same.trans own⟩
  have asks : (trial.store.altered trial.twist).perform () (now + (delays 0).1) 0 other state =
      ((trial.store.answer (now + (delays 0).1) other state).1.map (trial.twist other),
        (trial.store.answer (now + (delays 0).1) other state).2) := rfl
  generalize trial.store.answer (now + (delays 0).1) other state = answers at answered after asks
  obtain ⟨result, state'⟩ := answers
  cases answered with
  | answered same =>
    simp only [call, Program.drive_perform_ok asks] at within ⊢
    have time : now + (delays 0).1 ≤ trial.last := Nat.le_trans (System.le_drive_clock ..) within
    exact goesOn later _ _ (Nat.le_add_right _ _) time same more _ _ _ ⟨after, known⟩ within

/-- A record that is made and saved. -/
theorem kept {overrides : TokenRecord → TokenRecord} {next : TokenRecord → StoreProgram Unit}
    (fresh : now ≤ trial.last → Fresh drawn (overrides (defaults ⟨0, drawn⟩ ⟨0, drawn + 1⟩ now)))
    (goesOn : ∀ later time, now ≤ time → time ≤ trial.last →
      trial.Ends (next (overrides (defaults ⟨0, drawn⟩ ⟨0, drawn + 1⟩ now))) later
        (memory.save (overrides (defaults ⟨0, drawn⟩ ⟨0, drawn + 1⟩ now))) time (drawn + 2)) :
    trial.Ends ((makeRecord overrides).bind fun record => (call (.save record)).bind fun _ => next record)
      names memory now drawn := by
  change trial.Ends (.draw fun id => .draw fun token => .clock fun now =>
    (call (.save (overrides (defaults id token now)))).bind fun _ => next (overrides (defaults id token now)))
    names memory now drawn
  intro state delays log stands within
  have fresh := fresh (Nat.le_trans (System.le_drive_clock ..) within)
  have stands' : trial.store.Stands names memory (drawn + 2) state := by
    refine ⟨stands.holds, fun pair member => ?_⟩
    obtain ⟨index, before, name⟩ := stands.drawn pair member
    exact ⟨index, by omega, name⟩
  refine performed (.same (by simp) ?_) ?_ ?_ state delays log stands' within
  · intro record same
    cases same
    refine ⟨fun pair member same => ?_, fresh.unused, fresh.expires, fresh.created⟩
    obtain ⟨index, before, name⟩ := stands.drawn pair member
    rw [name, fresh.own] at same
    cases same
    exact Nat.lt_irrefl _ before
  · intro record same
    cases same
    exact ⟨drawn, by omega, fresh.own⟩
  · intro later time _ after bound _ _
    exact goesOn later time after bound

theorem saved {overrides : TokenRecord → TokenRecord} {next : Unit → StoreProgram Unit}
    (fresh : now ≤ trial.last → Fresh drawn (overrides (defaults ⟨0, drawn⟩ ⟨0, drawn + 1⟩ now)))
    (goesOn : ∀ later time, now ≤ time → time ≤ trial.last → trial.Ends (next ()) later
      (memory.save (overrides (defaults ⟨0, drawn⟩ ⟨0, drawn + 1⟩ now))) time (drawn + 2)) :
    trial.Ends ((save overrides).bind next) names memory now drawn := by
  change trial.Ends ((makeRecord overrides).bind fun record => (call (.save record)).bind fun _ => next ())
    names memory now drawn
  exact kept fresh goesOn

/-- A look-up that finds a record. -/
theorem found {token : Str} {type : TokenType} {record : TokenRecord}
    {next : Option TokenRecord → StoreProgram Unit}
    (found : memory.findByToken token type = some record)
    (goesOn : ∀ later time id createdAt, now ≤ time → time ≤ trial.last → (record.id, id) ∈ later.pairs →
      trial.Ends (next (trial.twist (.findByToken token type)
        (some { record with id := id, createdAt := createdAt }))) later memory time drawn) :
    trial.Ends ((call (.findByToken token type)).bind next) names memory now drawn := by
  refine performed (.same (by simp) (by simp)) (by simp) fun later time answer after bound same _ => ?_
  have alike : Option.Rel later.Same (some record) answer := found ▸ same
  cases alike with
  | some filed =>
    obtain ⟨id, createdAt, renamed, rfl⟩ := filed.cases
    exact goesOn later time id createdAt after bound renamed

theorem foundUnused {token : Str} {type : TokenType} {record : TokenRecord}
    {next : Option TokenRecord → StoreProgram Unit} (shows : trial.twist.ShowsUnused)
    (found : memory.findByToken token type = some record) (unused : record.consumedAt = none)
    (goesOn : ∀ later time id createdAt, now ≤ time → time ≤ trial.last → (record.id, id) ∈ later.pairs →
      trial.Ends (next (some { record with id := id, createdAt := createdAt })) later memory time drawn) :
    trial.Ends ((call (.findByToken token type)).bind next) names memory now drawn := by
  refine Ends.found found fun later time id createdAt after bound renamed => ?_
  rw [shows.found _ _ _ (by exact unused)]
  exact goesOn later time id createdAt after bound renamed

theorem missed {token : Str} {type : TokenType} {next : Option TokenRecord → StoreProgram Unit}
    (shows : trial.twist.ShowsUnused) (missing : memory.findByToken token type = none)
    (goesOn : ∀ later time, now ≤ time → time ≤ trial.last → trial.Ends (next none) later memory time drawn) :
    trial.Ends ((call (.findByToken token type)).bind next) names memory now drawn := by
  refine performed (.same (by simp) (by simp)) (by simp) fun later time answer after bound same _ => ?_
  have alike : Option.Rel later.Same none answer := missing ▸ same
  cases alike
  rw [shows.missing]
  exact goesOn later time after bound

/-- A record that has been found is consumed. -/
theorem marked {id other : Str} {next : Bool → StoreProgram Unit} (renamed : (id, other) ∈ names.pairs)
    (goesOn : ∀ later time, now ≤ time → time ≤ trial.last → (id, other) ∈ later.pairs →
      trial.Ends (next (trial.twist (.markConsumed other) (memory.markConsumed id time).1)) later
        (memory.markConsumed id time).2 time drawn) :
    trial.Ends ((call (.markConsumed other)).bind next) names memory now drawn := by
  refine performed (.consume renamed) (by simp) fun later time answer after bound same more => ?_
  obtain rfl : (memory.markConsumed id time).1 = answer := same
  exact goesOn later time after bound (more renamed)

/-- A call that does not concern a single record. -/
theorem done {asked : StoreCall} {next : asked.Ans → StoreProgram Unit} (looked : ∀ id, asked ≠ .markConsumed id)
    (keeps : ∀ record, asked ≠ .save record)
    (goesOn : ∀ later time answer, now ≤ time → time ≤ trial.last →
      trial.Ends (next answer) later (answerStore time asked memory).2 time drawn) :
    trial.Ends ((call asked).bind next) names memory now drawn :=
  performed (.same looked fun record same => absurd same (keeps record))
    (fun record same => absurd same (keeps record))
    fun later time _ after bound _ _ => goesOn later time _ after bound

theorem read {userId key : String} {next : Option Str → StoreProgram Unit}
    (goesOn : ∀ later time, now ≤ time → time ≤ trial.last →
      trial.Ends (next (trial.twist (.getUserData userId key) (memory.getUserData userId key))) later memory time
        drawn) :
    trial.Ends ((call (.getUserData userId key)).bind next) names memory now drawn := by
  refine performed (.same (by simp) (by simp)) (by simp) fun later time answer after bound same _ => ?_
  obtain rfl : memory.getUserData userId key = answer := same
  exact goesOn later time after bound

end Trial.Ends

/-- A case over an empty store. -/
abbrev Trial.EndsCase (trial : Trial σ) (contract : Case) (now : Nat) : Prop :=
  trial.Ends contract.run .empty .empty now 0

section
variable {trial : Trial σ} {now : Nat}

section
variable (passed : trial.result = .ok ()) (shows : trial.twist.ShowsUnused)
include passed shows

theorem roundTrips_ends (dates : trial.last + 60000 ≤ Date.maxTime) : trial.EndsCase roundTrips now := by
  simp only [Trial.EndsCase, roundTrips, Program.bind_eq]
  refine .kept (fun early => ?_) fun _ _ _ _ => ?_
  · exact .dated dates early rfl rfl rfl rfl
  refine .foundUnused shows rfl rfl fun _ _ _ _ _ _ _ => ?_
  exact .assertion (decide_eq_true rfl) (.holds passed rfl)

theorem hashesTokens_ends (dates : trial.last + 60000 ≤ Date.maxTime) : trial.EndsCase hashesTokens now := by
  simp only [Trial.EndsCase, hashesTokens, Program.bind_eq]
  refine .saved (fun early => ?_) fun _ _ _ _ => ?_
  · exact .dated dates early rfl rfl rfl rfl
  refine .foundUnused shows rfl rfl fun _ _ _ _ _ _ _ => ?_
  exact .assertion rfl (.holds passed (decide_eq_true rfl))

theorem discriminatesByType_ends (dates : trial.last + 60000 ≤ Date.maxTime) :
    trial.EndsCase discriminatesByType now := by
  simp only [Trial.EndsCase, discriminatesByType, Program.bind_eq]
  refine .saved (fun early => ?_) fun _ _ _ _ => ?_
  · exact .dated dates early rfl rfl rfl rfl
  exact .missed shows rfl fun _ _ _ _ => .holds passed rfl

theorem missesUnknown_ends : trial.EndsCase missesUnknown now :=
  .missed shows rfl fun _ _ _ _ => .holds passed rfl

end

theorem returnsConsumed_ends (passed : trial.result = .ok ()) (shows : trial.twist.ShowsUnused)
    (shown : ∀ token type record, trial.twist (.findByToken token type) (some record) = some record)
    (dates : trial.last + 60000 ≤ Date.maxTime) : trial.EndsCase returnsConsumed now := by
  simp only [Trial.EndsCase, returnsConsumed, Program.bind_eq]
  refine .saved (fun early => ?_) fun _ _ _ _ => ?_
  · exact .dated dates early rfl rfl rfl rfl
  refine .foundUnused shows rfl rfl fun _ _ _ _ _ _ renamed => ?_
  refine .marked renamed fun _ _ _ _ _ => ?_
  refine .found rfl fun _ _ _ _ _ _ _ => ?_
  rw [shown]
  exact .holds passed rfl

/-- A record that is hidden once it has been consumed is missed. -/
theorem returnsConsumed_fails {store : ConformingStore σ} {last : Nat} (dates : last + 60000 ≤ Date.maxTime) :
    Trial.EndsCase ⟨store, .hidesConsumed, last, .error hiddenRecord⟩ returnsConsumed now := by
  simp only [Trial.EndsCase, returnsConsumed, Program.bind_eq]
  refine .saved (fun early => ?_) fun _ _ _ _ => ?_
  · exact .dated dates early rfl rfl rfl rfl
  refine .foundUnused .hidesConsumed rfl rfl fun _ _ _ _ _ _ renamed => ?_
  refine .marked renamed fun _ _ _ _ _ => ?_
  exact .found rfl fun _ _ _ _ _ _ _ => .lost rfl

theorem consumesOnce_ends {store : ConformingStore σ} {last : Nat} (dates : last + 60000 ≤ Date.maxTime) :
    Trial.EndsCase ⟨store, .honest, last, .ok ()⟩ consumesOnce now := by
  simp only [Trial.EndsCase, consumesOnce, Program.bind_eq]
  refine .saved (fun early => ?_) fun _ _ _ _ => ?_
  · exact .dated dates early rfl rfl rfl rfl
  refine .foundUnused .honest rfl rfl fun _ _ _ _ _ _ renamed => ?_
  refine .marked renamed fun _ _ _ _ renamed => .assertion rfl ?_
  exact .marked renamed fun _ _ _ _ _ => .holds rfl rfl

/-- A second consumption that returns true is noticed. -/
theorem consumesOnce_fails {store : ConformingStore σ} {last : Nat} (dates : last + 60000 ≤ Date.maxTime) :
    Trial.EndsCase ⟨store, .alwaysConsumes, last, .error takenTwice⟩ consumesOnce now := by
  simp only [Trial.EndsCase, consumesOnce, Program.bind_eq]
  refine .saved (fun early => ?_) fun _ _ _ _ => ?_
  · exact .dated dates early rfl rfl rfl rfl
  refine .foundUnused .alwaysConsumes rfl rfl fun _ _ _ _ _ _ renamed => ?_
  refine .marked renamed fun _ _ _ _ renamed => .assertion rfl ?_
  exact .marked renamed fun _ _ _ _ _ => .fails rfl rfl

section
variable {store : ConformingStore σ} {last : Nat}

theorem consumesNothingUnknown_ends : Trial.EndsCase ⟨store, .honest, last, .ok ()⟩ consumesNothingUnknown now := by
  intro state delays log stands within
  have unknown : (store.answer (now + (delays 0).1) (.markConsumed (.random ⟨0, 0⟩)) state).1 = .ok false :=
    store.missing _ stands.holds fun _ no => (List.not_mem_nil no).elim
  have asks : (store.altered .honest).perform () (now + (delays 0).1) 0 (.markConsumed (.random ⟨0, 0⟩)) state =
      (.ok false, (store.answer (now + (delays 0).1) (.markConsumed (.random ⟨0, 0⟩)) state).2) :=
    Prod.ext (congrArg (Except.map _) unknown) rfl
  change (((Program.perform (StoreCall.markConsumed (.random ⟨0, 0⟩))).bind fun result : Bool =>
    assert (!result) "markConsumed on a missing id must return false").drive ..).result = _
  rw [Program.drive_perform_ok asks]
  rfl

theorem deletesAllForUser_ends (dates : last + 60000 ≤ Date.maxTime) :
    Trial.EndsCase ⟨store, .honest, last, .ok ()⟩ deletesAllForUser now := by
  simp only [Trial.EndsCase, deletesAllForUser, Program.bind_eq]
  refine .saved (fun early => ?_) fun _ _ _ _ => ?_
  · exact .dated dates early rfl rfl rfl rfl
  refine .saved (fun early => ?_) fun _ _ _ _ => ?_
  · exact .dated dates early rfl rfl rfl rfl
  refine .saved (fun early => ?_) fun _ _ _ _ => ?_
  · exact .dated dates early rfl rfl rfl rfl
  refine .done (by simp) (by simp) fun _ _ _ _ _ => ?_
  refine .missed .honest rfl fun _ _ _ _ => .assertion rfl ?_
  refine .missed .honest rfl fun _ _ _ _ => .assertion rfl ?_
  exact .found rfl fun _ _ _ _ _ _ _ => .holds rfl rfl

/-- The one date is past when the records are deleted, the other is not. -/
theorem deletesExpired_ends (late : 1000 ≤ now) (soon : last ≤ now + 60000) (dates : last + 60000 ≤ Date.maxTime) :
    Trial.EndsCase ⟨store, .honest, last, .ok ()⟩ deletesExpired now := by
  simp only [Trial.EndsCase, deletesExpired, Program.bind_eq]
  refine .clock (.saved (fun (early : now ≤ last) => ?_) fun _ first after _ => ?_)
  · exact ⟨rfl, rfl, ⟨now - 1000, by omega, rfl⟩, ⟨now, by omega, rfl⟩⟩
  refine .clock (.saved (fun early => ?_) fun _ second after' _ => ?_)
  · exact .dated dates early rfl rfl rfl rfl
  refine .done (by simp) (by simp) fun _ time _ after'' (within : time ≤ last) => ?_
  have past : (Date.ofMs (now - 1000)).before time = true := Date.before_ofMs.mpr (by omega)
  have future : (Date.ofMs (first + 60000)).before time = false := by
    refine Bool.eq_false_iff.mpr fun before => ?_
    have bound := (Date.before_ofMs.mp before).2
    omega
  refine .missed .honest ?_ fun _ _ _ _ => .assertion rfl ?_
  · refine findByToken_deleteRecords_all fun record member own => ?_
    have filed : record ∈ [_, _] := member
    simp only [List.mem_cons, List.not_mem_nil, or_false] at filed
    rcases filed with rfl | rfl
    · exact past
    · exact absurd (show hashToken (.lit "fresh") = hashToken (.lit "expired") from own) (by decide)
  apply Trial.Ends.found
  · exact findByToken_deleteRecords rfl future
  · exact fun _ _ _ _ _ _ _ => .holds rfl rfl

theorem upsertsUserData_ends : Trial.EndsCase ⟨store, .honest, last, .ok ()⟩ upsertsUserData now := by
  simp only [Trial.EndsCase, upsertsUserData, Program.bind_eq]
  refine .done (by simp) (by simp) fun _ _ _ _ _ => ?_
  refine .read fun _ _ _ _ => .assertion (decide_eq_true rfl) ?_
  refine .done (by simp) (by simp) fun _ _ _ _ _ => ?_
  refine .read fun _ _ _ _ => .assertion (decide_eq_true rfl) ?_
  exact .read fun _ _ _ _ => .holds rfl rfl

theorem toleratesSystem_ends : Trial.EndsCase ⟨store, .honest, last, .ok ()⟩ toleratesSystem now := by
  simp only [Trial.EndsCase, toleratesSystem, Program.bind_eq]
  refine .done (by simp) (by simp) fun _ _ _ _ _ => ?_
  exact .read fun _ _ _ _ => .holds rfl (decide_eq_true rfl)

theorem deletesUserData_ends : Trial.EndsCase ⟨store, .honest, last, .ok ()⟩ deletesUserData now := by
  simp only [Trial.EndsCase, deletesUserData, Program.bind_eq]
  refine .done (by simp) (by simp) fun _ _ _ _ _ => ?_
  refine .done (by simp) (by simp) fun _ _ _ _ _ => ?_
  refine .read fun _ _ _ _ => .assertion rfl ?_
  have ends : (call (.deleteUserData "u-1" "k") : StoreProgram Unit) =
      (call (.deleteUserData "u-1" "k")).bind fun _ => .done () :=
    congrArg (Program.await _) (funext fun answer => by cases answer <;> rfl)
  rw [ends]
  exact .done (by simp) (by simp) fun _ _ _ _ _ => .returns rfl

end

end

/-- No case takes longer than a minute, whenever it is started. -/
def TokenStore.Prompt (store : TokenStore σ) (delays : Nat → Schedule Unit) : Prop :=
  ∀ index start, ∀ contract ∈ tokenStoreContractCases, (store.try contract
    (delays index) start).clock ≤ start + 60000

/-- A case ends so whenever it is over within a minute. -/
def TokenStore.Yields (store : TokenStore σ) (contract : Case) (result : Except Thrown Unit) : Prop :=
  ∀ delays start, 1000 ≤ start → start + 120000 ≤ Date.maxTime →
    (store.try contract delays start).clock ≤ start + 60000 → (store.try contract delays start).result = result

theorem Trial.yields {store : ConformingStore σ} {twist : Twist} {contract : Case} {result : Except Thrown Unit}
    (ends : ∀ last now, 1000 ≤ now → last ≤ now + 60000 → last + 60000 ≤ Date.maxTime →
      Trial.EndsCase ⟨store, twist, last, result⟩ contract now) : (store.altered twist).Yields contract result := by
  intro delays start late dates prompt
  have started : store.Stands .empty .empty 0 store.initial := ⟨store.start, fun _ no => (List.not_mem_nil no).elim⟩
  exact ends _ start late prompt (by omega) store.initial delays [] started (Nat.le_refl _)

/-- The cases that pass are passed over. -/
theorem runCases_append {store : TokenStore σ} {passing rest : List Case} {delays : Nat → Schedule Unit} {now : Nat}
    (passes : ∀ contract ∈ passing, store.Yields contract (.ok ())) (listed : passing ⊆ tokenStoreContractCases)
    (prompt : store.Prompt delays) (late : 1000 ≤ now) (dates : now + (passing.length + 1) * 60000 ≤ Date.maxTime) :
    ∃ delays' later, store.runCases (passing ++ rest) delays now = store.runCases rest delays' later ∧
      store.Prompt delays' ∧ 1000 ≤ later ∧ later ≤ now + passing.length * 60000 := by
  induction passing generalizing now delays with
  | nil => exact ⟨delays, now, rfl, prompt, late, by simp⟩
  | cons contract passing ih =>
    rw [List.length_cons] at dates
    have timely := prompt 0 now contract (listed List.mem_cons_self)
    have passed := passes contract List.mem_cons_self (delays 0) now late (by omega) timely
    have later : now ≤ (store.try contract (delays 0) now).clock := System.le_drive_clock ..
    have passes' := fun other member => passes other (List.mem_cons_of_mem _ member)
    have listed' : passing ⊆ tokenStoreContractCases := fun _ member => listed (List.mem_cons_of_mem _ member)
    obtain ⟨delays', last, same, prompt', late', bound⟩ :=
      ih passes' listed' (fun index => prompt (index + 1)) (Nat.le_trans late later) (by omega)
    refine ⟨delays', last, ?_, prompt', late', ?_⟩
    · simp only [List.cons_append, TokenStore.runCases, passed]
      exact same
    · rw [List.length_cons]
      omega

/-- The first case that does not pass is reported. -/
theorem runCases_fails {store : TokenStore σ} {passing rest : List Case} {contract : Case}
    {delays : Nat → Schedule Unit}
    {now : Nat} {error : Thrown} (passes : ∀ contract ∈ passing, store.Yields contract (.ok ()))
    (fails : store.Yields contract (.error error)) (all : passing ++ contract :: rest = tokenStoreContractCases)
    (prompt : store.Prompt delays) (late : 1000 ≤ now) (dates : now + 780000 ≤ Date.maxTime) :
    assertTokenStoreContract store delays now = .error (contract.name, error) := by
  have length := congrArg List.length all
  rw [List.length_append, List.length_cons, show tokenStoreContractCases.length = 12 from rfl] at length
  have short : passing.length ≤ 11 := by omega
  have time : now + (passing.length + 1) * 60000 ≤ Date.maxTime := by omega
  have listed : passing ⊆ tokenStoreContractCases := all ▸ List.subset_append_left ..
  obtain ⟨delays', later, same, prompt', late', bound⟩ := runCases_append passes listed prompt late time
  have room : later + 120000 ≤ Date.maxTime := by omega
  have timely := prompt' 0 later contract (all ▸ List.mem_append_right _ List.mem_cons_self)
  rw [assertTokenStoreContract, ← all, same, TokenStore.runCases, fails (delays' 0) later late' room timely]

section
variable (store : ConformingStore σ) {delays : Nat → Schedule Unit} {now : Nat}

theorem altered_honest : store.altered .honest = store.toTokenStore := by
  have same {call : StoreCall} (answer : Except Thrown call.Ans) : answer.map (Twist.honest call) = answer := by
    cases answer <;> rfl
  simp only [TokenStore.altered, same]

/-- The cases that come before the consumption of a record pass behind any twist that shows the other records. -/
theorem first_yield {twist : Twist} (shows : twist.ShowsUnused) :
    ∀ contract ∈ [roundTrips, hashesTokens, discriminatesByType, missesUnknown],
      (store.altered twist).Yields contract (.ok ()) := by
  intro contract member
  refine Trial.yields fun last now _ _ dates => ?_
  simp only [List.mem_cons, List.not_mem_nil, or_false] at member
  rcases member with rfl | rfl | rfl | rfl
  · exact roundTrips_ends rfl shows dates
  · exact hashesTokens_ends rfl shows dates
  · exact discriminatesByType_ends rfl shows dates
  · exact missesUnknown_ends rfl shows

/-- The cases that a store passes whose `markConsumed` always returns true. -/
theorem first_yield_alwaysConsumes :
    ∀ contract ∈ [roundTrips, hashesTokens, discriminatesByType, missesUnknown, returnsConsumed],
      (store.altered .alwaysConsumes).Yields contract (.ok ()) := by
  intro contract member
  rcases List.mem_append.mp (show contract ∈ [_, _, _, _] ++ [_] from member) with first | last
  · exact first_yield store .alwaysConsumes contract first
  · rw [List.mem_singleton.mp last]
    exact Trial.yields fun _ _ _ _ dates => returnsConsumed_ends rfl .alwaysConsumes (fun _ _ _ => rfl) dates

theorem all_yield : ∀ contract ∈ tokenStoreContractCases, store.Yields contract (.ok ()) := by
  intro contract member
  rw [← altered_honest]
  rcases List.mem_append.mp (show contract ∈ [_, _, _, _] ++ [_, _, _, _, _, _, _, _] from member) with first | rest
  · exact first_yield store .honest contract first
  · refine Trial.yields fun last now late soon dates => ?_
    simp only [List.mem_cons, List.not_mem_nil, or_false] at rest
    rcases rest with rfl | rfl | rfl | rfl | rfl | rfl | rfl | rfl
    · exact returnsConsumed_ends rfl .honest (fun _ _ _ => rfl) dates
    · exact consumesOnce_ends dates
    · exact consumesNothingUnknown_ends
    · exact deletesAllForUser_ends dates
    · exact deletesExpired_ends late soon dates
    · exact upsertsUserData_ends
    · exact toleratesSystem_ends
    · exact deletesUserData_ends

/-- The suite finds nothing wrong with a store that conforms. It notices when the consumed records of that store are
hidden, and when every `markConsumed` returns true. -/
theorem contract_asserted (late : 1000 ≤ now) (dates : now + 780000 ≤ Date.maxTime) :
    (store.Prompt delays → assertTokenStoreContract store.toTokenStore delays now = .ok ()) ∧
      ((store.altered .hidesConsumed).Prompt delays →
        assertTokenStoreContract (store.altered .hidesConsumed) delays now =
          .error (returnsConsumed.name, hiddenRecord)) ∧
      ((store.altered .alwaysConsumes).Prompt delays →
        assertTokenStoreContract (store.altered .alwaysConsumes) delays now =
          .error (consumesOnce.name, takenTwice)) := by
  refine ⟨fun prompt => ?_, fun prompt => ?_, fun prompt => ?_⟩
  · obtain ⟨delays', later, same, -⟩ := runCases_append (all_yield store) (List.Subset.refl _) prompt late dates
    rw [List.append_nil] at same
    exact same
  · refine runCases_fails (first_yield store .hidesConsumed) ?_ rfl prompt late dates
    exact Trial.yields fun _ _ _ _ dates => returnsConsumed_fails dates
  · refine runCases_fails (first_yield_alwaysConsumes store) ?_ rfl prompt late dates
    exact Trial.yields fun _ _ _ _ dates => consumesOnce_fails dates

end

end

namespace Sample

/-- The in-memory store answers at once. -/
theorem contract_asserted_inMemory :
    assertTokenStoreContract inMemoryTokenStore.toTokenStore (fun _ _ => (0, ())) 1000 = .ok () ∧
      assertTokenStoreContract (inMemoryTokenStore.altered .hidesConsumed) (fun _ _ => (0, ())) 1000 =
        .error (returnsConsumed.name, hiddenRecord) ∧
      assertTokenStoreContract (inMemoryTokenStore.altered .alwaysConsumes) (fun _ _ => (0, ())) 1000 =
        .error (consumesOnce.name, takenTwice) := by
  have prompt (store : TokenStore InMemoryTokenStore) : store.Prompt fun _ _ => (0, ()) := fun _ _ _ _ =>
    Nat.le_trans (Nat.le_of_eq (System.drive_clock _ _ _ (fun _ => rfl) ..)) (Nat.le_add_right _ _)
  obtain ⟨passes, hides, marks⟩ := contract_asserted inMemoryTokenStore (Nat.le_refl 1000) (by decide)
  exact ⟨passes (prompt _), hides (prompt _), marks (prompt _)⟩

end Sample

end KeycloakAuth
