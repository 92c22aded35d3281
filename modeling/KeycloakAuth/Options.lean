import Mathlib.Data.List.TakeWhile
import KeycloakAuth.Counter
import KeycloakAuth.Service

namespace KeycloakAuth
open Js

/-- `\d` -/
def isDecimal (c : CodeUnit) : Bool := (digitValue c).isSome

def durationUnits : List CodeUnit := [unit 's', unit 'm', unit 'h', unit 'd']

/-- The groups of `value.match(/^(\d+)([smhd])$/)`. -/
def matchDuration (value : Text) : Option (Text × CodeUnit) :=
  match value.span isDecimal with
  | (digits, [letter]) => if digits ≠ [] ∧ letter ∈ durationUnits then some (digits, letter) else none
  | _ => none

/-- The natural number that a row of decimal digits stands for, however long it is. -/
def digitsValue (digits : Text) : Nat := digits.foldl (fun n c => n * 10 + (digitValue c).getD 0) 0

/-- `Number.parseInt(digits, 10)`. An engine may take the digits behind the twentieth for zeros, but so many of
them are past 2⁵³ either way. -/
def parseInt (digits : Text) : Number := .ofExact (digitsValue digits)

def parseDurationSeconds (value : Text) : Except Text Number :=
  match matchDuration value with
  | none => .error (ofString "Invalid duration \"" ++ value ++
      ofString "\" — expected <number><s|m|h|d>, e.g. \"15m\" or \"7d\"")
  | some (digits, letter) =>
    let num := parseInt digits
    if letter = unit 's' then .ok num
    else if letter = unit 'm' then .ok (num.mul (.finite (60 : ℕ)))
    else if letter = unit 'h' then .ok (num.mul (.finite (3600 : ℕ)))
    else .ok (num.mul (.finite (86400 : ℕ)))

def parseDurationMs (value : Text) : Except Text Number :=
  (parseDurationSeconds value).map fun seconds => seconds.mul (.finite (1000 : ℕ))

namespace AuthModuleOptions

structure Token where
  secret : Option Text
  expiresIn : Option Text
deriving DecidableEq

structure Jwt where
  accessToken : Option Token
  refreshToken : Option Token
deriving DecidableEq

structure Transport where
  host : Option Text
deriving DecidableEq

structure Email where
  «from» : Option Text
  transport : Option Transport
deriving DecidableEq

structure Lockout where
  maxAttempts : Option Number := none
  duration : Option Number := none
deriving DecidableEq

end AuthModuleOptions

/-- What is read of the options here. Of an inline Keycloak configuration it only counts that it is there. -/
structure AuthModuleOptions where
  keycloakConfigPath : Option Text := none
  keycloak : Option Unit := none
  jwt : Option AuthModuleOptions.Jwt
  email : Option AuthModuleOptions.Email := none
  baseUrl : Option Text := none
  lockout : Option AuthModuleOptions.Lockout := none
deriving DecidableEq

structure ValidateContext where
  hasCustomSender : Option Bool := none

def minSecretLength : Nat := 32

/-- Whether JavaScript takes an optional string for true. -/
def isGiven (text : Option Text) : Bool := text.any (· ≠ [])

/-- The check that is made of both secrets. -/
def secretProblems (label : String) (secret : Option Text) : List Text :=
  if !isGiven secret || (secret.getD []).length < minSecretLength then
    [ofString label ++ ofString " must be at least " ++ numeral minSecretLength ++ ofString " characters"]
  else []

/-- The body of the loop over the two lifetimes. -/
def durationProblems (label : String) : Option Text → List Text
  | none => [ofString label ++ ofString " is required (e.g. \"15m\", \"7d\")"]
  | some [] => [ofString label ++ ofString " is required (e.g. \"15m\", \"7d\")"]
  | some value =>
    match parseDurationSeconds value with
    | .ok _ => []
    | .error _ =>
      [ofString label ++ ofString " is invalid: \"" ++ value ++ ofString "\" (expected e.g. \"15m\", \"7d\")"]

/-- `/^https?:\/\//.test(url)`. -/
def isHttpUrl (url : Text) : Bool := (ofString "http://").isPrefixOf url || (ofString "https://").isPrefixOf url

namespace AuthModuleOptions
variable (options : AuthModuleOptions)

def access : Option Token := options.jwt.bind Jwt.accessToken

def refresh : Option Token := options.jwt.bind Jwt.refreshToken

def problems (context : ValidateContext) : List Text :=
  let accessSecret := options.access.bind Token.secret
  let refreshSecret := options.refresh.bind Token.secret
  let emailFrom := options.email.bind Email.from
  let emailHost := (options.email.bind Email.transport).bind Transport.host
  (if options.keycloak.isNone && !isGiven options.keycloakConfigPath then
    [ofString "either `keycloak` or `keycloakConfigPath` is required"] else []) ++
  secretProblems "jwt.accessToken.secret" accessSecret ++
  secretProblems "jwt.refreshToken.secret" refreshSecret ++
  (if isGiven accessSecret && isGiven refreshSecret && accessSecret = refreshSecret then
    [ofString "jwt.accessToken.secret and jwt.refreshToken.secret must be different"] else []) ++
  durationProblems "jwt.accessToken.expiresIn" (options.access.bind Token.expiresIn) ++
  durationProblems "jwt.refreshToken.expiresIn" (options.refresh.bind Token.expiresIn) ++
  (if !context.hasCustomSender.getD false && (!isGiven emailFrom || !isGiven emailHost) then
    [ofString "email.from and email.transport.host are required (unless you provide a custom `emailSender`)"]
    else []) ++
  (if isGiven options.baseUrl && !options.baseUrl.any isHttpUrl then
    [ofString "baseUrl must start with http:// or https:// (got \"" ++ options.baseUrl.getD [] ++ ofString "\")"]
    else [])

end AuthModuleOptions

def validateAuthModuleOptions (options : AuthModuleOptions) (context : ValidateContext := {}) :
    Except Text AuthModuleOptions :=
  let problems := options.problems context
  if problems.length > 0 then
    .error (ofString "Invalid AuthModuleOptions:\n" ++
      (ofString "\n").intercalate (problems.map fun problem => ofString "  - " ++ problem))
  else .ok options

inductive ConfigError
  | typeError
  | error (message : Text)
deriving DecidableEq, Repr

def refreshTokenTtlMs (options : AuthModuleOptions) : Except ConfigError Number :=
  match options.refresh.bind (·.expiresIn) with
  | none => .error .typeError
  | some value => (parseDurationMs value).mapError .error

/-- The part of `LoginUseCaseOptions` that lockouts depend on. -/
structure LoginUseCaseOptions where
  maxFailedAttempts : Option Number
  lockoutDurationMs : Option Number

/-- What the constructor of `LoginUseCase` makes of them. -/
def LoginUseCaseOptions.limits (options : LoginUseCaseOptions) : Counter.Limits where
  maxFailedAttempts := options.maxFailedAttempts.getD (.finite (5 : ℕ))
  lockoutDurationMs := options.lockoutDurationMs.getD (.finite (15 * 60 * 1000 : ℕ))

/-- The limits of the `LoginUseCase` that the module provides. -/
def AuthModuleOptions.limits (options : AuthModuleOptions) : Counter.Limits :=
  LoginUseCaseOptions.limits ⟨options.lockout.bind (·.maxAttempts), options.lockout.bind (·.duration)⟩

/-- How many seconds one of the units has. -/
def unitSeconds (letter : CodeUnit) : Nat :=
  if letter = unit 's' then 1 else if letter = unit 'm' then 60 else if letter = unit 'h' then 3600 else 86400

/-- The whole number of seconds that a duration names, without regard to what a double can hold. -/
def durationSeconds (value : Text) : Option Nat :=
  (matchDuration value).map fun (digits, letter) => digitsValue digits * unitSeconds letter

theorem not_isDecimal_of_durationUnits {letter : CodeUnit} (member : letter ∈ durationUnits) :
    isDecimal letter = false := by
  simp only [durationUnits, List.mem_cons, List.not_mem_nil, or_false] at member
  rcases member with rfl | rfl | rfl | rfl <;> rfl

/-- A duration is any row of digits with a unit behind it. -/
theorem matchDuration_eq_some {value digits : Text} {letter : CodeUnit} :
    matchDuration value = some (digits, letter) ↔
      value = digits ++ [letter] ∧ digits ≠ [] ∧ (∀ c ∈ digits, isDecimal c = true) ∧ letter ∈ durationUnits := by
  unfold matchDuration
  rw [List.span_eq_takeWhile_dropWhile]
  constructor
  · intro matched
    split at matched
    · rename_i read last split
      obtain ⟨taken, left⟩ := Prod.mk.inj split
      split_ifs at matched with shape
      obtain ⟨rfl, rfl⟩ := Prod.mk.inj (Option.some.inj matched)
      refine ⟨?_, shape.1, fun c member => ?_, shape.2⟩
      · rw [← taken, ← left, List.takeWhile_append_dropWhile]
      · exact List.mem_takeWhile_imp (taken ▸ member)
    · cases matched
  · rintro ⟨rfl, some, all, member⟩
    have ends : isDecimal letter = false := not_isDecimal_of_durationUnits member
    rw [List.takeWhile_append_of_pos all, List.dropWhile_append_of_pos all]
    simp [ends, some, member]

theorem parseDurationSeconds_saturates {value : Text} {seconds : Nat}
    (named : durationSeconds value = some seconds) :
    ∃ x, parseDurationSeconds value = .ok x ∧ Number.Saturates seconds x := by
  obtain ⟨⟨digits, letter⟩, matched, rfl⟩ := Option.map_eq_some_iff.mp named
  have read : Number.Saturates (digitsValue digits) (parseInt digits) := .ofExact _
  simp only [parseDurationSeconds, matched, unitSeconds]
  split_ifs
  · exact ⟨_, rfl, by simpa using read⟩
  · exact ⟨_, rfl, read.mul (by decide)⟩
  · exact ⟨_, rfl, read.mul (by decide)⟩
  · exact ⟨_, rfl, read.mul (by decide)⟩

theorem parseDurationMs_saturates {value : Text} {seconds : Nat} (named : durationSeconds value = some seconds) :
    ∃ x, parseDurationMs value = .ok x ∧ Number.Saturates (seconds * 1000) x := by
  obtain ⟨x, parsed, saturates⟩ := parseDurationSeconds_saturates named
  refine ⟨_, ?_, saturates.mul (by decide : 0 < 1000)⟩
  rw [parseDurationMs, parsed]
  rfl

/-- What is no duration is not parsed. -/
theorem parseDurationSeconds_matched {value : Text} {x : Number} (parsed : parseDurationSeconds value = .ok x) :
    ∃ digits letter, matchDuration value = some (digits, letter) := by
  unfold parseDurationSeconds at parsed
  cases matched : matchDuration value with
  | none =>
    rw [matched] at parsed
    cases parsed
  | some groups => exact ⟨groups.1, groups.2, rfl⟩

theorem durationSeconds_of_matched {value digits : Text} {letter : CodeUnit}
    (matched : matchDuration value = some (digits, letter)) :
    durationSeconds value = some (digitsValue digits * unitSeconds letter) := by
  rw [durationSeconds, matched]
  rfl

/-- Nothing is wrong with a lifetime, however long its row of digits is. -/
theorem durationProblems_eq_nil {label : String} {value : Option Text} : durationProblems label value = [] ↔
    ∃ digits letter, value = some (digits ++ [letter]) ∧ digits ≠ [] ∧ (∀ c ∈ digits, isDecimal c = true) ∧
      letter ∈ durationUnits := by
  constructor
  · intro none
    unfold durationProblems at none
    split at none
    · cases none
    · cases none
    · rename_i text _
      cases parsed : parseDurationSeconds text with
      | error message =>
        rw [parsed] at none
        cases none
      | ok x =>
        obtain ⟨digits, letter, matched⟩ := parseDurationSeconds_matched parsed
        obtain ⟨rfl, shape⟩ := matchDuration_eq_some.mp matched
        exact ⟨digits, letter, rfl, shape⟩
  · rintro ⟨digits, letter, rfl, shape⟩
    have matched := matchDuration_eq_some.mpr ⟨rfl, shape⟩
    obtain ⟨x, parsed, -⟩ := parseDurationSeconds_saturates (durationSeconds_of_matched matched)
    cases digits with
    | nil => exact (shape.1 rfl).elim
    | cons c rest =>
      rw [List.cons_append] at parsed ⊢
      rw [durationProblems, parsed]
      exact List.cons_ne_nil _ _

namespace AuthModuleOptions
variable {options : AuthModuleOptions} {context : ValidateContext}

/-- The options are returned unchanged, if nothing is wrong with them. -/
theorem validate_ok {returned : AuthModuleOptions} :
    validateAuthModuleOptions options context = .ok returned ↔
      options.problems context = [] ∧ options = returned := by
  unfold validateAuthModuleOptions
  cases problems : options.problems context <;> simp

/-- The whole number of seconds that the refresh tokens shall live. -/
def refreshSeconds (options : AuthModuleOptions) : Option Nat :=
  (options.refresh.bind Token.expiresIn).bind durationSeconds

/-- The options are accepted with any number of seconds. -/
theorem refreshSeconds_of_accepted {returned : AuthModuleOptions}
    (accepted : validateAuthModuleOptions options context = .ok returned) :
    ∃ seconds, options.refreshSeconds = some seconds := by
  have clean := (validate_ok.mp accepted).1
  simp only [problems, List.append_eq_nil_iff] at clean
  obtain ⟨⟨⟨-, durations⟩, -⟩, -⟩ := clean
  obtain ⟨digits, letter, given, shape⟩ := durationProblems_eq_nil.mp durations
  refine ⟨digitsValue digits * unitSeconds letter, ?_⟩
  rw [refreshSeconds, given]
  exact durationSeconds_of_matched (matchDuration_eq_some.mpr ⟨rfl, shape⟩)

theorem refreshTokenTtlMs_saturates {seconds : Nat} (named : options.refreshSeconds = some seconds) :
    ∃ ttl, refreshTokenTtlMs options = .ok ttl ∧ Number.Saturates (seconds * 1000) ttl := by
  obtain ⟨value, given, named⟩ := Option.bind_eq_some_iff.mp named
  obtain ⟨ttl, parsed, saturates⟩ := parseDurationMs_saturates named
  refine ⟨ttl, ?_, saturates⟩
  simp only [refreshTokenTtlMs, given, parsed, Except.mapError]

end AuthModuleOptions

end KeycloakAuth
