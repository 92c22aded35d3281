import KeycloakAuth.Js.Json
import KeycloakAuth.LoginHistories
import KeycloakAuth.Async.Sequential

namespace KeycloakAuth.Counter
open Async Js LoginUseCase

inductive Call
  | saveUserData (userId key : String) (value : Text)
  | getUserData (userId key : String)

@[reducible] def Call.Ans : Call → Type
  | .saveUserData _ _ _ => Unit
  | .getUserData _ _ => Option Text

inductive Error
  | typeError
  | rangeError
deriving DecidableEq, Repr

abbrev Service (α : Type) := Program Call.Ans Error α

def tokenStore (call : Call) : Service call.Ans := Program.perform call

def zero : Value := .number (.finite 0)

/-- `JSON.stringify({ count, updatedAt })`. -/
def failedAttempts (conversions : Conversions) (count : Value.Sum) (updatedAt : Nat) : Text :=
  ofString "\x7b\"count\":" ++ count.json conversions ++ ofString ",\"updatedAt\":" ++
    conversions.numberText (.finite updatedAt) ++ ofString "\x7d"

/-- The time value of `new Date(ms)`, or none for an invalid date. -/
def timeClip : Number → Option ℤ
  | .finite ms => if |ms| ≤ Date.maxTime then some (if 0 ≤ ms then ⌊ms⌋ else ⌈ms⌉) else none
  | _ => none

/-- `new Date(ms).toISOString()`, which throws on an invalid date. -/
def dateText (conversions : Conversions) : Number → Option Text
  | .finite ms => if |ms| ≤ Date.maxTime then some (conversions.isoText (if 0 ≤ ms then ⌊ms⌋ else ⌈ms⌉)) else none
  | _ => none

/-- The two numbers that a `LoginUseCase` counts failures with. -/
structure Limits where
  maxFailedAttempts : Number
  lockoutDurationMs : Number

namespace Limits
variable (self : Limits) (conversions : Conversions)

/-- The body of the `try`, or none where it throws. -/
def parsedAttempts (raw : Text) (now : Nat) : Option Value := do
  let parsed ← parseJson raw
  let updatedAt ← (← parsed.member (ofString "updatedAt")).toNumber conversions
  -- `Date.now() - parsed.updatedAt > this.lockoutDurationMs`
  if self.lockoutDurationMs.less ((Number.finite now).sub updatedAt) then return zero
  parsed.member (ofString "count")

/-- The count that the entry `raw` stands for at the clock reading `now`. -/
def attemptsIn (raw : Option Text) (now : Nat) : Value :=
  match raw with
  | none => zero
  | some [] => zero
  | some raw =>
    match self.parsedAttempts conversions raw now with
    | some count => count
    | none =>
      let legacy := conversions.textNumber raw
      if legacy.isFinite then .number legacy else zero

def readFailedAttempts (failedKey : String) : Service Value := do
  let raw : Option Text ← tokenStore (.getUserData "system" failedKey)
  return self.attemptsIn conversions raw (← Program.now)

def recordFailedAttempt (failedKey lockKey : String) : Service Unit := do
  match (← self.readFailedAttempts conversions failedKey).plusOne conversions with
  | none => throw .typeError
  | some attempts =>
    let updatedAt ← Program.now
    let _ ← tokenStore (.saveUserData "system" failedKey (failedAttempts conversions attempts updatedAt))
    if (attempts.toNumber conversions).atLeast self.maxFailedAttempts then
      let now ← Program.now
      match dateText conversions ((Number.finite now).add self.lockoutDurationMs) with
      | none => throw .rangeError
      | some lockedUntil => tokenStore (.saveUserData "system" lockKey lockedUntil)
    else return ()

end Limits

/-- The limits of a use case, which are natural numbers. -/
def limits (self : LoginUseCase) : Limits := ⟨.finite self.maxFailedAttempts, .finite self.lockoutDurationMs⟩

section
variable (self : LoginUseCase) (conversions : Conversions)

def attemptsIn : Option Text → Nat → Value := (limits self).attemptsIn conversions

def readFailedAttempts : String → Service Value := (limits self).readFailedAttempts conversions

def recordFailedAttempt : String → String → Service Unit := (limits self).recordFailedAttempt conversions

end

/-- The entries of the store, by user id and key. -/
abbrev Entries := String → String → Option Text

/-- A store that answers every call. -/
def answer (_ : Unit) (_now _request : Nat) : (call : Call) → Entries → Except Error call.Ans × Entries
  | .saveUserData userId key value, entries =>
    (.ok (), fun user entry => if user = userId ∧ entry = key then some value else entries user entry)
  | .getUserData userId key, entries => (.ok (entries userId key), entries)

/-- The text that `recordFailedAttempt` writes for `n` failures at a clock reading. A count is a double. -/
structure Written (conversions : Conversions) (n updatedAt : Nat) (text : Text) : Prop where
  double : Number.ofExact n = .finite n
  valid : updatedAt ≤ Date.maxTime
  form : text = failedAttempts conversions (.number (.finite n)) updatedAt

/-- A text that the entry for `n` failures may hold when it is read: one written within the lockout
duration, or the plain numeral of older versions. -/
inductive StandsFor (self : LoginUseCase) (conversions : Conversions) (n readAt : Nat) (text : Text) : Prop
  | written {updatedAt : Nat} (written : Written conversions n updatedAt text)
    (recent : readAt ≤ updatedAt + self.lockoutDurationMs)
  | legacy (form : text = numeral n)

section
variable {self : LoginUseCase} {conversions : Conversions} {n updatedAt now : Nat}

theorem maxTime_lt : Date.maxTime < 2 ^ 53 := by decide

/-- The record parses to an object with its two members, whatever the count is written as. -/
theorem parseJson_failedAttempts {count : Value.Sum} {value : Value} (valid : updatedAt ≤ Date.maxTime)
    (scans : ∀ scanned, (count.json conversions ++ [unit ',']).foldlM Scan.advance (scanned, .idle) =
      some (scanned ++ [.literal value, .comma], .idle)) :
    parseJson (failedAttempts conversions count updatedAt) =
      some (.object [(ofString "count", value), (ofString "updatedAt", .number (.finite updatedAt))]) := by
  have small : updatedAt < 2 ^ 53 := valid.trans_lt maxTime_lt
  have shape : failedAttempts conversions count updatedAt = ofString "\x7b\"count\":" ++
      ((count.json conversions ++ [unit ',']) ++ (ofString
        "\"updatedAt\":" ++ (numeral updatedAt ++ [unit '}']))) := by
    rw [failedAttempts, conversions.numberText_natCast updatedAt small]
    simp only [List.append_assoc]
    rfl
  have first : (ofString "\x7b\"count\":").foldlM Scan.advance ([], .idle) =
      some ([.openBrace, .literal (.string (ofString "count")), .colon], .idle) := rfl
  have second (scanned : List Token) : (ofString "\"updatedAt\":").foldlM Scan.advance (scanned, .idle) =
      some (scanned ++ [.literal (.string (ofString "updatedAt")), .colon], .idle) := by
    rw [advance_from]
    rfl
  have last : (unit '}', Token.closeBrace) ∈ Scan.punctuation := by simp [Scan.punctuation]
  rw [parseJson, tokens, shape, advance_append first, advance_append (scans _), advance_append (second _),
    advance_numeral_mark last, Number.ofExact_natCast small.le]
  rfl

theorem scans_numeral (text : conversions.numberText (.finite n) = numeral n) (small : n ≤ 2 ^ 53)
    (scanned : List Token) :
    ((Value.Sum.number (.finite n)).json conversions ++ [unit ',']).foldlM Scan.advance (scanned, .idle) =
      some (scanned ++ [.literal (.number (.finite n)), .comma], .idle) := by
  have mark : (unit ',', Token.comma) ∈ Scan.punctuation := by simp [Scan.punctuation]
  rw [Value.Sum.json, text, advance_numeral_mark mark, Number.ofExact_natCast small]

theorem scans_number (small : n < 2 ^ 53) (scanned : List Token) :
    ((Value.Sum.number (.finite n)).json conversions ++ [unit ',']).foldlM Scan.advance (scanned, .idle) =
      some (scanned ++ [.literal (.number (.finite n)), .comma], .idle) :=
  scans_numeral (conversions.numberText_natCast n small) small.le scanned

/-- The difference of two time values is exact. -/
theorem sub_times (valid : updatedAt ≤ Date.maxTime) (range : now ≤ Date.maxTime) :
    (Number.finite now).sub (.finite updatedAt) = .finite (now - updatedAt) := by
  have small : |(now : ℤ) - updatedAt| ≤ 2 ^ 53 := by
    have := maxTime_lt
    rw [abs_le]
    omega
  have exact := Number.ofExact_intCast small
  push_cast at exact
  rw [Number.sub, Number.neg, Number.add, ← sub_eq_add_neg, exact]

theorem Limits.attemptsIn_of_parsed {self : Limits} {raw : Text} {count : Value} (truthy : raw ≠ [])
    (parsed : self.parsedAttempts conversions raw now = some count) :
    self.attemptsIn conversions (some raw) now = count := by
  cases raw with
  | nil => exact (truthy rfl).elim
  | cons c rest => simp only [Limits.attemptsIn, parsed]

/-- A record is read as its count within the lockout duration and as no failure after it. -/
theorem Limits.attemptsIn_failedAttempts {self : Limits} {count : Value.Sum} {value : Value}
    (valid : updatedAt ≤ Date.maxTime) (range : now ≤ Date.maxTime)
    (scans : ∀ scanned, (count.json conversions ++ [unit ',']).foldlM Scan.advance (scanned, .idle) =
      some (scanned ++ [.literal value, .comma], .idle)) :
    self.attemptsIn conversions (some (failedAttempts conversions count updatedAt)) now =
      if self.lockoutDurationMs.less (.finite (now - updatedAt)) then zero else value := by
  have parsed : self.parsedAttempts conversions (failedAttempts conversions count updatedAt) now =
      some (if self.lockoutDurationMs.less (.finite (now - updatedAt)) then zero else value) := by
    have time : Value.member (ofString "updatedAt")
        (.object [(ofString "count", value), (ofString "updatedAt", .number (.finite updatedAt))]) =
          some (.number (.finite updatedAt)) := rfl
    have held : Value.member (ofString "count")
        (.object [(ofString "count", value), (ofString "updatedAt", .number (.finite updatedAt))]) = some value :=
          rfl
    have number : Value.toNumber conversions (.number (.finite updatedAt)) = some (.finite updatedAt) := rfl
    simp only [Limits.parsedAttempts, parseJson_failedAttempts valid scans,
      Option.bind_eq_bind, Option.bind_some, time,
      number, sub_times valid range, held, Option.pure_def]
    split_ifs <;> rfl
  exact attemptsIn_of_parsed (List.cons_ne_nil (unit '{') _) parsed

theorem attemptsIn_failedAttempts {count : Value.Sum} {value : Value} (valid : updatedAt ≤ Date.maxTime)
    (range : now ≤ Date.maxTime)
    (scans : ∀ scanned, (count.json conversions ++ [unit ',']).foldlM Scan.advance (scanned, .idle) =
      some (scanned ++ [.literal value, .comma], .idle)) :
    attemptsIn self conversions (some (failedAttempts conversions count updatedAt)) now =
      if updatedAt + self.lockoutDurationMs < now then zero else value := by
  have stale : (limits self).lockoutDurationMs.less (.finite (now - updatedAt)) =
      decide (updatedAt + self.lockoutDurationMs < now) := by
    refine decide_eq_decide.mpr ?_
    rw [lt_sub_iff_add_lt']
    exact_mod_cast Iff.rfl
  rw [attemptsIn, Limits.attemptsIn_failedAttempts valid range scans]
  simp only [stale, decide_eq_true_eq]

/-- The numeral is JSON, so it is never taken for the number that it is. -/
theorem attemptsIn_numeral : attemptsIn self conversions (some (numeral n)) now = .undefined := by
  have parsed : (limits self).parsedAttempts conversions (numeral n) now = some .undefined := by
    have nan (lockout : ℕ) (x : Number) : (Number.finite lockout).less (x.sub .nan) = false := by
      cases x <;> rfl
    have number : Value.toNumber conversions .undefined = some .nan := rfl
    simp only [Limits.parsedAttempts, limits, parseJson_numeral, Value.member,
      Option.bind_eq_bind, Option.bind_some,
      number, nan, Bool.false_eq_true, if_false]
  obtain ⟨d, rest, shape, _⟩ := numeral_eq_cons n
  exact Limits.attemptsIn_of_parsed (by rw [shape]; exact List.cons_ne_nil _ _) parsed

/-- A record is no numeral. -/
theorem failedAttempts_ne_numeral (count : Value.Sum) (updatedAt n : Nat) :
    failedAttempts conversions count updatedAt ≠ numeral n := by
  intro same
  obtain ⟨d, rest, shape, small⟩ := numeral_eq_cons n
  have first : unit '{' = digitUnit d := (List.cons.inj ((show unit '{' :: _ = _ from same).trans shape)).1
  have value : (digitUnit d).val = 0x30 + d := Nat.mod_eq_of_lt (by omega)
  have brace : (unit '{').val = 0x7B := rfl
  rw [first, value] at brace
  omega

theorem dateText_eq {x : Number} : dateText conversions x = (timeClip x).map conversions.isoText := by
  cases x with
  | finite ms =>
    simp only [dateText, timeClip]
    split_ifs <;> rfl
  | _ => rfl

theorem timeClip_of_saturates {x : Number} (saturates : Number.Saturates n x) :
    timeClip x = if n ≤ Date.maxTime then some (n : ℤ) else none := by
  rcases saturates.cases with ⟨-, rfl⟩ | ⟨passed, wide⟩
  · simp [timeClip]
  · rw [if_neg (by have := maxTime_lt; omega)]
    rcases wide with rfl | ⟨y, rfl, wide⟩
    · rfl
    · have late : (Date.maxTime : ℚ) < |y| := by
        refine lt_of_lt_of_le ?_ (wide.trans (le_abs_self y))
        exact_mod_cast maxTime_lt
      rw [timeClip, if_neg (not_le.mpr late)]

/-- The lockout ends at a date that can be written. -/
theorem dateText_isSome {lockout : Nat} :
    (dateText conversions ((Number.finite now).add (.finite lockout))).isSome ↔ now + lockout ≤ Date.maxTime := by
  rw [dateText_eq, Option.isSome_map, timeClip_of_saturates ((Number.Saturates.natCast lockout).add now),
    Option.isSome_ite]

theorem plusOne_number : Value.plusOne conversions (.number (.finite n)) =
    some (.number (.ofExact (n + 1 : ℕ))) := by
  rw [Nat.cast_succ]
  rfl

end

inductive TextOf (conversions : Conversions) : Str → Text → Prop
  | record {count updatedAt : Nat} (small : count < 2 ^ 53) (valid : updatedAt ≤ Date.maxTime) :
    TextOf conversions (.failedAttempts (some count) updatedAt)
      (failedAttempts conversions (.number (.finite count)) updatedAt)
  | lost {updatedAt : Nat} (valid : updatedAt ≤ Date.maxTime) :
    TextOf conversions (.failedAttempts none updatedAt) (failedAttempts conversions (.number .nan) updatedAt)
  | legacy {n : Nat} {text : String} (value : text.toNat? = some n) (canonical : toString n = text) :
    TextOf conversions (.lit text) (numeral n)

def valueOf : JsValue → Value
  | .number count => .number (.finite count)
  | .nan => .number .nan
  | .null => .null
  | .undefined => .undefined

theorem scans_null {conversions : Conversions} (scanned : List Token) :
    ((Value.Sum.number .nan).json conversions ++ [unit ',']).foldlM Scan.advance (scanned, .idle) =
      some (scanned ++ [.literal .null, .comma], .idle) := by
  rw [advance_from]
  rfl

/-- The entry is read as the text that stands for it. -/
theorem TextOf.attemptsIn {self : LoginUseCase} {conversions : Conversions} {entry : Str} {text : Text} {now : Nat}
    (of : TextOf conversions entry text) (range : now ≤ Date.maxTime) :
    attemptsIn self conversions (some text) now = valueOf (self.attemptsIn (some entry) now) := by
  cases of with
  | @record count updatedAt small valid =>
    rw [attemptsIn_failedAttempts valid range (scans_number small), LoginUseCase.attemptsIn_failedAttempts]
    simp only [gt_iff_lt, lt_tsub_iff_left, Option.elim_some]
    split <;> rfl
  | @lost updatedAt valid =>
    rw [attemptsIn_failedAttempts valid range scans_null, LoginUseCase.attemptsIn_failedAttempts]
    simp only [gt_iff_lt, lt_tsub_iff_left, Option.elim_none]
    split <;> rfl
  | @legacy n digits value canonical =>
    have truthy : Str.truthy (.lit digits) = true :=
      decide_eq_true fun empty => Nat.repr_ne_empty (canonical.trans (Str.lit.inj empty))
    have kept : Option.filter Str.truthy (some (.lit digits)) = some (.lit digits) := Option.filter_some_pos truthy
    have shape : parseAttempts (.lit digits) = .numeral := if_pos (by rw [value, ← canonical]; simp)
    simp only [attemptsIn_numeral, LoginUseCase.attemptsIn, kept, shape, valueOf]

/-- A count goes up as doubles do, and stays where it cannot. -/
theorem plusOne_valueOf {conversions : Conversions} {n : Nat} (reached : n ≤ 2 ^ 53) :
    ∃ next, JsValue.plusOne (.number n) = .number next ∧
      (valueOf (.number n)).plusOne conversions = some (.number (.finite next)) := by
  rcases Nat.lt_or_eq_of_le reached with small | rfl
  · exact ⟨n + 1, JsValue.plusOne_number small, by rw [valueOf, plusOne_number, Number.ofExact_natCast small]⟩
  · exact ⟨2 ^ 53, rfl, by rw [valueOf, plusOne_number, Number.ofExact_end]⟩

/-- Where the count is a double, the next one is written and compared alike. -/
theorem plusOne_textOf {conversions : Conversions} {count : JsValue} {updatedAt : Nat}
    (small : ∀ n, count = .number n → n + 1 < 2 ^ 53) (valid : updatedAt ≤ Date.maxTime) (bound : Nat) :
    ∃ attempts, (valueOf count).plusOne conversions = some attempts ∧
      TextOf conversions (.failedAttempts count.plusOne.stringify updatedAt)
        (failedAttempts conversions attempts updatedAt) ∧
      (attempts.toNumber conversions).atLeast (.finite bound) = count.plusOne.atLeast bound := by
  cases count with
  | number n =>
    have next : Number.ofExact (n + 1 : ℕ) = .finite (n + 1 : ℕ) := Number.ofExact_natCast (small n rfl).le
    refine ⟨.number (.finite (n + 1 : ℕ)), ?_, ?_, ?_⟩
    · rw [valueOf, plusOne_number, next]
    · rw [JsValue.plusOne_number (Nat.lt_of_succ_lt (small n rfl))]
      exact .record (small n rfl) valid
    · rw [JsValue.plusOne_number (Nat.lt_of_succ_lt (small n rfl))]
      exact decide_eq_decide.mpr Nat.cast_le
  | nan => exact ⟨.number .nan, rfl, .lost valid, rfl⟩
  | null =>
    have next : Number.ofExact (0 + 1 : ℕ) = .finite (1 : ℕ) := Number.ofExact_natCast (by decide)
    refine ⟨.number (.finite (1 : ℕ)), ?_, .record (by decide) valid, ?_⟩
    · have first : Value.plusOne conversions (.number (.finite (0 : ℕ))) = _ := plusOne_number
      exact first.trans (by rw [next])
    · exact decide_eq_decide.mpr Nat.cast_le
  | undefined => exact ⟨.number .nan, rfl, .lost valid, rfl⟩

/-- What `recordFailedAttempt` stores under the lock key, if anything, when it has counted `attempts`. -/
def Limits.lockAfter (self : Limits) (conversions : Conversions) (attempts : Number) (now : Nat) : Option Text :=
  if attempts.atLeast self.maxFailedAttempts then dateText conversions
    ((Number.finite now).add self.lockoutDurationMs)
  else none

/-- One wrong password for an address, served alone from the clock reading `clock` on. -/
def Limits.run (self : Limits) (conversions : Conversions) (email : String) (schedule : Schedule Unit) (clock : Nat)
    (entries : Entries) : Driven Call.Ans Error Unit Entries :=
  (self.recordFailedAttempt conversions (failedKey email)
    (lockKey email)).drive answer 0 schedule clock 0 entries []

def run (self : LoginUseCase) : Conversions → String → Schedule Unit → Nat → Entries →
    Driven Call.Ans Error Unit Entries := (limits self).run

section
variable {self : LoginUseCase} {conversions : Conversions} {n : Nat} {email : String} {schedule : Schedule Unit}
  {clock : Nat} {entries : Entries}

theorem readFailedAttempts_drive (key : String) :
    ((readFailedAttempts self conversions key).drive answer 0 schedule clock 0 entries []).result =
      .ok (attemptsIn self conversions (entries "system" key) (clock + (schedule 0).1)) := rfl

/-- The wrong password after `n` of them writes the next count and, where it is high enough, locks. -/
theorem Limits.run_of_count {self : Limits}
    (count : self.attemptsIn conversions (entries "system" (failedKey email)) (clock + (schedule 0).1) =
      .number (.finite n)) {lock : Option Text}
    (locks : self.lockAfter conversions (.ofExact (n + 1 : ℕ)) (clock + (schedule 0).1 + (schedule 1).1) = lock) :
    (self.run conversions email schedule clock entries).shared "system" (failedKey email) =
        some (failedAttempts conversions (.number (.ofExact (n + 1 : ℕ))) (clock + (schedule 0).1)) ∧
      (self.run conversions email schedule clock entries).shared "system" (lockKey email) =
        lock.or (entries "system" (lockKey email)) ∧
      ((∃ entry ∈ (self.run conversions email schedule clock entries).log, ∃ lockedUntil,
        entry.call = .saveUserData "system" (lockKey email) lockedUntil) ↔ lock.isSome) := by
  simp only [Limits.run, Limits.recordFailedAttempt, Limits.readFailedAttempts, tokenStore, Program.bind_eq,
    Program.bind_assoc]
  rw [Program.drive_perform_ok rfl]
  simp only [Program.now_bind, Program.drive, Program.pure_eq, Program.done_bind, count, plusOne_number]
  rw [Program.drive_perform_ok rfl]
  rw [Value.Sum.toNumber]
  unfold lockAfter at locks
  by_cases reached : (Number.ofExact (n + 1 : ℕ)).atLeast self.maxFailedAttempts = true
  · rw [if_pos reached] at locks
    simp only [reached, if_true, Program.drive]
    have date : dateText conversions ((Number.finite (clock + (schedule 0).1 + (schedule (0 + 1)).1 : ℕ)).add
      self.lockoutDurationMs) = lock := locks
    simp only [date]
    cases lock with
    | none => simp [Program.drive]
    | some lockedUntil =>
      dsimp only
      rw [Program.drive_call_ok rfl]
      simp
  · rw [if_neg reached] at locks
    subst locks
    simp only [reached, Bool.false_eq_true, if_false, Program.drive]
    simp

theorem run_of_count
    (count : attemptsIn self conversions (entries "system" (failedKey email)) (clock + (schedule 0).1) =
      .number (.finite n)) :
    (run self conversions email schedule clock entries).shared "system" (failedKey email) =
        some (failedAttempts conversions (.number (.ofExact (n + 1 : ℕ))) (clock + (schedule 0).1)) ∧
      ((∃ entry ∈ (run self conversions email schedule clock entries).log, ∃ lockedUntil,
          entry.call = .saveUserData "system" (lockKey email) lockedUntil) ↔
        ((Value.Sum.number (.ofExact (n + 1 : ℕ))).toNumber conversions).atLeast
          (.finite self.maxFailedAttempts) = true ∧
          (dateText conversions ((Number.finite (clock + (schedule 0).1 + (schedule 1).1 : ℕ)).add
            (.finite self.lockoutDurationMs))).isSome) := by
  obtain ⟨saved, -, locked⟩ := Limits.run_of_count count rfl
  refine ⟨saved, locked.trans ?_⟩
  rw [Limits.lockAfter]
  split_ifs with reached
  · exact (and_iff_right reached).symm
  · exact iff_of_false Bool.false_ne_true fun both => reached both.1

theorem ofExact_atLeast (small : n < 2 ^ 53) :
    ((Value.Sum.number (.ofExact (n + 1 : ℕ))).toNumber conversions).atLeast
      (.finite self.maxFailedAttempts) = true ↔
      self.maxFailedAttempts ≤ n + 1 := by
  rw [Value.Sum.toNumber, Number.ofExact_natCast small, Number.atLeast, decide_eq_true_eq, Nat.cast_le]

end

/-- The count survives storage: it is read back, and the next wrong password writes its successor and
locks the account if that is high enough. -/
structure Survives (self : LoginUseCase) (conversions : Conversions) (n : Nat) (email : String)
    (schedule : Schedule Unit) (clock : Nat) (entries : Entries) : Prop where
  read : ((readFailedAttempts self conversions (failedKey email)).drive answer 0
    schedule clock 0 entries []).result =
    .ok (.number (.finite n))
  stored : ∃ updatedAt text,
    (run self conversions email schedule clock entries).shared "system" (failedKey email) = some text ∧
      Written conversions (n + 1) updatedAt text
  locks : (∃ entry ∈ (run self conversions email schedule clock entries).log, ∃ lockedUntil,
    entry.call = .saveUserData "system" (lockKey email) lockedUntil) ↔ self.maxFailedAttempts ≤ n + 1

/-- A count survives as a record below 2⁵³, unless it has to lock the account until a date that is none.
As a numeral it never does. -/
theorem counter_survives_iff (self : LoginUseCase) (conversions : Conversions) {n : Nat} {email : String}
    {schedule : Schedule Unit} {clock : Nat} {entries : Entries} {raw : Text}
    (held : entries "system" (failedKey email) = some raw)
    (entry : StandsFor self conversions n (clock + (schedule 0).1) raw)
    (range : clock + (schedule 0).1 ≤ Date.maxTime) :
    Survives self conversions n email schedule clock entries ↔
      raw ≠ numeral n ∧ n < 2 ^ 53 ∧ (self.maxFailedAttempts ≤ n + 1 →
        clock + (schedule 0).1 + (schedule 1).1 + self.lockoutDurationMs ≤ Date.maxTime) := by
  constructor
  · rintro ⟨read, stored, locks⟩
    rw [readFailedAttempts_drive, held] at read
    have count := Except.ok.inj read
    have record : raw ≠ numeral n := by
      rintro rfl
      rw [attemptsIn_numeral] at count
      cases count
    rw [← held] at count
    obtain ⟨saved, locked⟩ := run_of_count count
    have small : n < 2 ^ 53 := by
      obtain ⟨_, _, _, next⟩ := stored
      cases entry with
      | written written => exact Number.small_of_successive written.double next.double
      | legacy form => exact (record form).elim
    refine ⟨record, small, fun many => ?_⟩
    have date := (locked.mp (locks.mpr many)).2
    exact dateText_isSome.mp date
  · rintro ⟨record, small, valid⟩
    cases entry with
    | legacy form => exact (record form).elim
    | written written recent =>
      have count : attemptsIn self conversions (some raw) (clock + (schedule 0).1) = .number (.finite n) := by
        rw [written.form, attemptsIn_failedAttempts written.valid range (scans_number small), if_neg (by omega)]
      refine ⟨?_, ?_, ?_⟩
      · rw [readFailedAttempts_drive, held, count]
      · obtain ⟨saved, _⟩ := run_of_count (held ▸ count)
        have next : Number.ofExact (n + 1 : ℕ) = .finite (n + 1 : ℕ) := Number.ofExact_natCast small
        exact ⟨clock + (schedule 0).1, _, saved, next, range, by rw [next]⟩
      · rw [(run_of_count (held ▸ count)).2, ofExact_atLeast small, dateText_isSome]
        exact ⟨And.left, fun many => ⟨many, valid many⟩⟩

end KeycloakAuth.Counter

namespace KeycloakAuth.Sample
open Async Js LoginUseCase Counter

def twoDigits (n : Nat) : Text := [digitUnit (n / 10 % 10), digitUnit (n % 10)]

/-- The conversions for integers and for the first day. -/
def conversions : Conversions where
  numberText
    | .nan => ofString "NaN"
    | .infinity negative => ofString (if negative then "-Infinity" else "Infinity")
    | .finite x => (if x < 0 then ofString "-" else []) ++ numeral ⌊|x|⌋.toNat
  textNumber text :=
    match parseJson text with
    | some (.number value) => value
    | _ => .nan
  isoText time := ofString "1970-01-01T" ++ twoDigits (time.toNat / 3600000) ++ ofString ":" ++
    twoDigits (time.toNat / 60000 % 60) ++ ofString ":" ++ twoDigits (time.toNat / 1000 % 60) ++ ofString "." ++
    [digitUnit (time.toNat / 100 % 10)] ++ twoDigits (time.toNat % 100) ++ ofString "Z"
  numberText_natCast n small := by
    simp

/-- A store with nothing but the counter of one address. -/
def counting (raw : Text) : Entries := fun user key =>
  if user = "system" ∧ key = failedKey "ann@mail" then some raw else none

/-- The fifth wrong password, a tenth of a second after the fourth. -/
theorem counter_survives_fifth : Survives {} conversions 4 "ann@mail" (fun _ => (0, ()))
    1100 (counting (failedAttempts conversions (.number (.finite (4 : ℕ))) 1000)) :=
  (counter_survives_iff {} conversions (if_pos ⟨rfl, rfl⟩)
    (.written ⟨Number.ofExact_natCast (by decide), by decide, rfl⟩ (by decide)) (by decide)).mpr
    ⟨failedAttempts_ne_numeral _ _ _, by decide, fun _ => by decide⟩

/-- The plain numeral of an older version is read as no number at all. -/
theorem counter_lost_legacy : StandsFor {} conversions 3 1100 (ofString "3") ∧
    ¬ Survives {} conversions 3 "ann@mail" (fun _ => (0, ())) 1100
      (counting (ofString "3")) := by
  have plain : ofString "3" = numeral 3 := by decide
  refine ⟨.legacy plain, ?_⟩
  rintro ⟨read, _, _⟩
  rw [readFailedAttempts_drive, counting, if_pos ⟨rfl, rfl⟩, plain, attemptsIn_numeral] at read
  cases read

end KeycloakAuth.Sample
