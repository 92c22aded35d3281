import KeycloakAuth.Controller
import KeycloakAuth.Realm

namespace KeycloakAuth
open Async

/-- The value of an `Authorization` header: a text, or a token behind the scheme of the bearer guard. -/
inductive Authorization
  | text (raw : String)
  | bearer (token : Str)
deriving DecidableEq, Repr

/-- What the guards see of a request: the metadata `isPublic` of its handler and of its class, its header, and
the user they have put into it. -/
structure ExecutionContext where
  handlerIsPublic : Option Bool
  classIsPublic : Option Bool
  authorization : Option Authorization
  user : Option TokenPayload
deriving DecidableEq, Repr

/-- What a guard may throw. -/
inductive GuardException
  | unauthorized (message : String)
  | forbidden
  | other (error : Thrown)
deriving DecidableEq, Repr

/-- The answer of a guard, and the request as the guard leaves it. -/
structure GuardResult where
  answer : Except GuardException Bool
  context : ExecutionContext

/-- `getAllAndOverride`: the first value that is not undefined. -/
def ExecutionContext.isPublic (context : ExecutionContext) : Bool :=
  (context.handlerIsPublic.or context.classIsPublic).getD false

namespace JwtTokenService

/-- The claims that `verify` returns at the clock reading `now`, or the error it throws. -/
def verified (token : Str) (type : TokenUse) (secret expiredMessage invalidMessage : String) (now : Nat) :
    Except Thrown TokenPayload :=
  match jwtVerify token secret now with
  | .expired => .error (.domain .tokenExpired expiredMessage)
  | .invalid => .error (.domain .tokenInvalid invalidMessage)
  | .valid payload =>
    if payload.typ ≠ some type.claim ∨ payload.sub = "" then .error (.domain .tokenInvalid invalidMessage)
    else .ok payload

/-- `verify` awaits nothing: it reads the clock and ends. -/
theorem verify_eq {Call : Type} {Ans : Call → Type} (token : Str) (type : TokenUse)
    (secret expiredMessage invalidMessage : String) :
    (verify token type secret expiredMessage invalidMessage : Program Ans Thrown TokenPayload) =
      .clock fun now => .ofExcept (verified token type secret expiredMessage invalidMessage now) := by
  simp only [verify, Program.bind_eq, Program.now_bind]
  congr 1
  funext now
  unfold verified
  cases jwtVerify token secret now with
  | expired => rfl
  | invalid => rfl
  | valid payload =>
    simp only
    split <;> rfl

/-- A token is accepted when it was signed with the secret for this use, names somebody and has not expired. -/
theorem verified_ok {token : Str} {type : TokenUse} {secret expiredMessage invalidMessage : String} {now : Nat}
    {payload : TokenPayload} :
    verified token type secret expiredMessage invalidMessage now = .ok payload ↔
      token = .jwt secret payload ∧ payload.typ = some type.claim ∧ payload.sub ≠ "" ∧
        ∀ exp, payload.exp = some exp → now / 1000 < exp := by
  constructor
  · intro accepted
    cases token with
    | jwt key claims =>
      by_cases other : key ≠ secret
      · simp [verified, jwtVerify, other] at accepted
      obtain rfl := not_not.mp other
      cases expiry : claims.exp with
      | none =>
        simp only [verified, jwtVerify, expiry, ne_eq, not_true_eq_false, if_false] at accepted
        split at accepted
        · cases accepted
        · rename_i fine
          cases accepted
          exact ⟨rfl, by simpa using fun no => fine (.inl no), fun no => fine (.inr no), by simp [expiry]⟩
      | some exp =>
        by_cases late : exp ≤ now / 1000
        · simp [verified, jwtVerify, expiry, late] at accepted
        simp only [verified, jwtVerify, expiry, ne_eq, not_true_eq_false, if_false, late] at accepted
        split at accepted
        · cases accepted
        · rename_i fine
          cases accepted
          refine ⟨rfl, by simpa using fun no => fine (.inl no), fun no => fine (.inr no), ?_⟩
          rintro _ same
          cases expiry.symm.trans same
          exact Nat.not_le.mp late
    | _ => simp [verified, jwtVerify] at accepted
  · rintro ⟨rfl, kind, named, alive⟩
    cases expiry : payload.exp with
    | none => simp [verified, jwtVerify, expiry, kind, named]
    | some exp => simp [verified, jwtVerify, expiry, kind, named, Nat.not_le.mpr (alive exp expiry)]

end JwtTokenService

namespace JwtAuthGuard

def extractToken : Option Authorization → Option Str
  | none => none
  | some (.text raw) =>
    if "Bearer ".toList.isPrefixOf raw.toList then some (.lit (String.ofList (raw.toList.drop 7))) else none
  | some (.bearer token) => some token

/-- The guard on any route. -/
def canActivateIn (config : JwtConfig) (context : ExecutionContext) (now : Nat) : GuardResult :=
  if context.isPublic then ⟨.ok true, context⟩ else
  match (extractToken context.authorization).filter Str.truthy with
  | none => ⟨.error (.unauthorized "Missing authorization header"), context⟩
  | some token =>
    let verify : Program (fun none : Empty => none.elim) Thrown TokenPayload :=
      JwtTokenService.verifyAccessToken config token
    match (verify.settle now 0 0).1 with
    | .returned payload => ⟨.ok true, { context with user := some payload }⟩
    | .threw (.domain .tokenExpired _) => ⟨.error (.unauthorized "Access token has expired"), context⟩
    | .threw (.domain .tokenInvalid _) => ⟨.error (.unauthorized "Invalid access token"), context⟩
    | .threw _ => ⟨.error (.unauthorized "Authentication failed"), context⟩

end JwtAuthGuard

namespace GlobalAuthGuard

/-- `authGuard` is `options.globals?.authGuard`. -/
def canActivate (authGuard : Option Bool) (config : JwtConfig)
    (context : ExecutionContext) (now : Nat) : GuardResult :=
  if authGuard = some false then ⟨.ok true, context⟩ else JwtAuthGuard.canActivateIn config context now

end GlobalAuthGuard

namespace OptionalAuthGuard

def canActivate (config : JwtConfig) (context : ExecutionContext) (now : Nat) : GuardResult :=
  let guarded := JwtAuthGuard.canActivateIn config context now
  match guarded.answer with
  | .ok _ => guarded
  | .error (.unauthorized _) => ⟨.ok true, { guarded.context with user := none }⟩
  | .error _ => guarded

end OptionalAuthGuard

/-- The global guard, then the guard of the route, each at its own clock reading. For an answer `false` Nest throws
an exception itself. -/
def guardChain (authGuard : Option Bool) (config : JwtConfig) (context : ExecutionContext) (now later : Nat) :
    GuardResult :=
  let first := GlobalAuthGuard.canActivate authGuard config context now
  match first.answer with
  | .ok true => OptionalAuthGuard.canActivate config first.context later
  | .ok false => ⟨.error .forbidden, first.context⟩
  | .error _ => first

/-- The claims of the valid access token that a header carries. -/
def verifiedClaims (config : JwtConfig) (authorization : Option Authorization) (now : Nat) : Option TokenPayload :=
  (JwtAuthGuard.extractToken authorization).bind fun token =>
    (JwtTokenService.verified token .access config.accessToken.secret "Access token has expired"
      "Invalid access token" now).toOption

/-- The bearer guard lets nobody in but on a public route or with a valid access token, and throws nothing else
than its `UnauthorizedException`. -/
theorem canActivateIn_eq (config : JwtConfig) (context : ExecutionContext) (now : Nat) :
    context.isPublic = true ∧ JwtAuthGuard.canActivateIn config context now = ⟨.ok true, context⟩ ∨
    context.isPublic = false ∧
      ((∃ user, verifiedClaims config context.authorization now = some user ∧
          JwtAuthGuard.canActivateIn config context now = ⟨.ok true, { context with user := some user }⟩) ∨
        verifiedClaims config context.authorization now = none ∧
          ∃ message, JwtAuthGuard.canActivateIn config context now =
            ⟨.error (.unauthorized message), context⟩) := by
  unfold JwtAuthGuard.canActivateIn
  cases onPublic : context.isPublic with
  | true => exact .inl ⟨rfl, if_pos rfl⟩
  | false =>
    refine .inr ⟨rfl, ?_⟩
    rw [if_neg (by simp)]
    unfold verifiedClaims
    cases extracted : JwtAuthGuard.extractToken context.authorization with
    | none => exact .inr ⟨rfl, _, rfl⟩
    | some token =>
      by_cases empty : token.truthy = true
      swap
      · obtain rfl : token = .lit "" := by simpa [Str.truthy] using empty
        exact .inr ⟨rfl, _, rfl⟩
      simp only [Option.filter, empty, if_true, Option.bind_some, JwtTokenService.verifyAccessToken,
        JwtTokenService.verify_eq, Program.settle]
      cases JwtTokenService.verified token .access config.accessToken.secret "Access token has expired"
        "Invalid access token" now with
      | ok payload => exact .inl ⟨payload, rfl, rfl⟩
      | error thrown =>
        refine .inr ⟨rfl, ?_⟩
        simp only [Program.ofExcept_error, Program.settle]
        cases thrown with
        | domain kind message => cases kind <;> exact ⟨_, rfl⟩
        | _ => exact ⟨_, rfl⟩

/-- The optional guard lets everybody in, on a public route without a look at the header. -/
theorem optional_eq (config : JwtConfig) (context : ExecutionContext) (now : Nat) :
    OptionalAuthGuard.canActivate config context now = ⟨.ok true, if context.isPublic then context else
      { context with user := verifiedClaims config context.authorization now }⟩ := by
  unfold OptionalAuthGuard.canActivate
  rcases canActivateIn_eq config context now with ⟨onPublic, admits⟩ | ⟨notPublic, ⟨user, valid, admits⟩ |
    ⟨invalid, message, refuses⟩⟩
  · simp [admits, onPublic]
  · simp [admits, notPublic, valid]
  · simp [refuses, notPublic, invalid]

/-- The chain admits the request and leaves it with the claims of its access token, or with no user if it has no
valid one. -/
def OptionallyAuthenticated (authGuard : Option Bool) (config : JwtConfig) (context : ExecutionContext)
    (now later : Nat) : Prop :=
  (guardChain authGuard config context now later).answer = .ok true ∧
    (guardChain authGuard config context now later).context.user = verifiedClaims config context.authorization later

/-- Of the requests that come without a user, the chain treats as documented those to a public route that have no
valid token and those to any other route that have one. -/
theorem optionally_authenticated_iff {authGuard : Option Bool}
    (active : authGuard ≠ some false) (config : JwtConfig)
    {context : ExecutionContext} (anonymous : context.user = none) (now later : Nat) :
    OptionallyAuthenticated authGuard config context now later ↔
      if context.isPublic then verifiedClaims config context.authorization later = none
      else (verifiedClaims config context.authorization now).isSome = true := by
  unfold OptionallyAuthenticated guardChain GlobalAuthGuard.canActivate
  simp only [if_neg active]
  rcases canActivateIn_eq config context now with ⟨onPublic, admits⟩ | ⟨notPublic, ⟨user, valid, admits⟩ |
    ⟨invalid, message, refuses⟩⟩
  · simp only [admits, optional_eq, onPublic, if_true, true_and, anonymous]
    exact eq_comm
  · have still : ({ context with user := some user } : ExecutionContext).isPublic = false := notPublic
    simp [admits, optional_eq, still, notPublic, valid]
  · simp [refuses, notPublic, invalid]

namespace Sample

/-- A route with the optional guard, as the documentation has it. -/
def publicProfile (authorization : Option Authorization) : ExecutionContext := ⟨none, none, authorization, none⟩

theorem optionally_authenticated_iff_profile :
    OptionallyAuthenticated none options.jwt (publicProfile (some (.bearer (.jwt "access secret"
      ⟨"ann", "ann@mail", "ann", some "access", some 1, some 901⟩)))) 1000 1000 :=
  (optionally_authenticated_iff (by decide) options.jwt rfl 1000 1000).mpr rfl

/-- Who comes without a token is turned away by the global guard. -/
theorem not_optionally_authenticated : ¬ ∀ config context now later, context.user = none →
    OptionallyAuthenticated none config context now later := by
  intro always
  cases (always options.jwt (publicProfile none) 1000 1000 rfl).1

end Sample

end KeycloakAuth
