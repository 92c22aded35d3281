import KeycloakAuth.Guards

namespace KeycloakAuth
open Async JwtTokenService

/-- A signing function that returns `token` when the clock reads `now`. -/
def Signs (sign : Program (fun none : Empty => none.elim) Thrown Str) (now : Nat) (token : Str) : Prop :=
  (sign.settle now 0 0).1 = .returned token

/-- A string that somebody may send. HS256 is an ideal MAC, so what carries a signature under one of the two
secrets was made with it, by one of the two functions that hold it. -/
structure Circulating (config : JwtConfig) where
  token : Str
  unforged : ∀ secret claims, token = .jwt secret claims →
    secret = config.accessToken.secret ∨ secret = config.refreshToken.secret →
    ∃ payload issuedAt, Signs (signAccessToken config payload) issuedAt token ∨
      Signs (signRefreshToken config payload) issuedAt token

/-- The provider's `refreshToken` gets past its verification: it goes on to await something. -/
def PastVerification (platform : Platform) (config : JwtConfig) (token : Str) (now : Nat) : Prop :=
  ∃ call rest, ((KeycloakAuthProvider.refreshToken platform config token).settle now 0 0).1 = .awaiting call rest

/-- The bearer guard turns the request away and leaves it as it was. -/
def TurnsAway (config : JwtConfig) (context : ExecutionContext) (now : Nat) : Prop :=
  ∃ message, JwtAuthGuard.canActivateIn config context now = ⟨.error (.unauthorized message), context⟩

/-- Tokens of each kind pass where they should, and nothing else does. -/
structure NeverInterchangeable (platform : Platform) (config : JwtConfig) : Prop where
  admits : ∀ payload issuedAt token now context, payload.sub ≠ "" →
    Signs (signAccessToken config payload) issuedAt token →
    now / 1000 < issuedAt / 1000 + config.accessToken.expiresIn →
    context.isPublic = false → context.authorization = some (.bearer token) →
    ∃ user, JwtAuthGuard.canActivateIn config context now = ⟨.ok true, { context with user := some user }⟩ ∧
      user.sub = payload.sub ∧ user.email = payload.email ∧ user.username = payload.username
  rejectsRefresh : ∀ payload issuedAt token now context, Signs (signRefreshToken config payload) issuedAt token →
    context.isPublic = false → context.authorization = some (.bearer token) → TurnsAway config context now
  rejectsOthers : ∀ (sent : Circulating config) now context,
    (∀ payload issuedAt, ¬ Signs (signAccessToken config payload) issuedAt sent.token) →
    context.isPublic = false → context.authorization = some (.bearer sent.token) → TurnsAway config context now
  rejectsText : ∀ raw now context, context.isPublic = false → context.authorization = some (.text raw) →
    TurnsAway config context now
  refreshes : ∀ (sent : Circulating config) now, PastVerification platform config sent.token now ↔
    ∃ payload issuedAt, payload.sub ≠ "" ∧ Signs (signRefreshToken config payload) issuedAt sent.token ∧
      now / 1000 < issuedAt / 1000 + config.refreshToken.expiresIn
  neverAccess : ∀ payload issuedAt token now, Signs (signAccessToken config payload) issuedAt token →
    ¬ PastVerification platform config token now

section
variable {config : JwtConfig} {payload : TokenPayload} {issuedAt now : Nat} {token : Str}

theorem signs_access : Signs (signAccessToken config payload) issuedAt token ↔
    token = .jwt config.accessToken.secret (claims payload .access config.accessToken.expiresIn issuedAt) := by
  simp only [Signs, signAccessToken, sign, Program.bind_eq, Program.now_bind, Program.settle, Program.pure_eq,
    Suspended.returned.injEq]
  exact eq_comm

theorem signs_refresh : Signs (signRefreshToken config payload) issuedAt token ↔
    token = .jwt config.refreshToken.secret (claims payload .refresh config.refreshToken.expiresIn issuedAt) := by
  simp only [Signs, signRefreshToken, sign, Program.bind_eq, Program.now_bind, Program.settle, Program.pure_eq,
    Suspended.returned.injEq]
  exact eq_comm

namespace Circulating
variable (config)

/-- What `signAccessToken` has returned. -/
def ofAccess (payload : TokenPayload) (issuedAt : Nat) : Circulating config where
  token := .jwt config.accessToken.secret (claims payload .access config.accessToken.expiresIn issuedAt)
  unforged _ _ _ _ := ⟨payload, issuedAt, .inl (signs_access.mpr rfl)⟩

/-- What `signRefreshToken` has returned. -/
def ofRefresh (payload : TokenPayload) (issuedAt : Nat) : Circulating config where
  token := .jwt config.refreshToken.secret (claims payload .refresh config.refreshToken.expiresIn issuedAt)
  unforged _ _ _ _ := ⟨payload, issuedAt, .inr (signs_refresh.mpr rfl)⟩

/-- What somebody has signed with a secret of their own, whatever they claim. -/
def ofForeign (secret : String) (claimed : TokenPayload)
    (own : secret ≠ config.accessToken.secret ∧ secret ≠ config.refreshToken.secret) : Circulating config where
  token := .jwt secret claimed
  unforged _ _ same held := by
    cases same
    exact (held.elim own.1 own.2).elim

end Circulating

theorem turnsAway_iff {context : ExecutionContext} (notPublic : context.isPublic = false) :
    TurnsAway config context now ↔ verifiedClaims config context.authorization now = none := by
  rcases canActivateIn_eq config context now with ⟨onPublic, -⟩ | ⟨-, ⟨user, valid, admits⟩ |
    ⟨invalid, message, refuses⟩⟩
  · rw [notPublic] at onPublic
    cases onPublic
  · simp [TurnsAway, admits, valid]
  · simp [TurnsAway, refuses, invalid]

theorem verifiedClaims_bearer {user : TokenPayload} :
    verifiedClaims config (some (.bearer token)) now = some user ↔
      token = .jwt config.accessToken.secret user ∧ user.typ = some TokenUse.access.claim ∧ user.sub ≠ "" ∧
        ∀ exp, user.exp = some exp → now / 1000 < exp := by
  rw [← @verified_ok _ _ _ "Access token has expired" "Invalid access token"]
  simp only [verifiedClaims, JwtAuthGuard.extractToken, Option.bind_some]
  cases verified token .access config.accessToken.secret "Access token has expired" "Invalid access token" now with
  | ok claims => simp [Except.toOption]
  | error thrown => simp [Except.toOption]

theorem pastVerification_iff {platform : Platform} : PastVerification platform config token now ↔
    ∃ claims, token = .jwt config.refreshToken.secret claims ∧ claims.typ = some TokenUse.refresh.claim ∧
      claims.sub ≠ "" ∧ ∀ exp, claims.exp = some exp → now / 1000 < exp := by
  simp only [← @verified_ok _ _ _ "Refresh token has expired" "Invalid refresh token",
    PastVerification, KeycloakAuthProvider.refreshToken, verifyRefreshToken, verify_eq, Program.bind_eq,
    Program.clock_bind, Program.settle]
  cases verified token .refresh config.refreshToken.secret "Refresh token has expired"
    "Invalid refresh token" now with
  | ok claims =>
    constructor
    · exact fun _ => ⟨claims, rfl⟩
    · exact fun _ => ⟨_, _, rfl⟩
  | error thrown =>
    constructor
    · rintro ⟨call, rest, waits⟩
      cases waits
    · rintro ⟨claims, no⟩
      cases no

theorem claims_alive {expiresIn : Nat} {type : TokenUse} : (∀ exp, (claims payload type expiresIn issuedAt).exp =
    some exp → now / 1000 < exp) ↔ now / 1000 < issuedAt / 1000 + expiresIn := by
  simp [claims]

theorem claims_typ {expiresIn : Nat} {type other : TokenUse} :
    (claims payload type expiresIn issuedAt).typ = some other.claim ↔ type = other := by
  cases type <;> cases other <;> simp [claims, TokenUse.claim]

/-- What verifies under one of the secrets was made by the function that puts in its kind. -/
theorem Circulating.made (sent : Circulating config) {secret : String} {claimed : TokenPayload}
    (signed : sent.token = .jwt secret claimed)
    (held : secret = config.accessToken.secret ∨ secret = config.refreshToken.secret) :
    (∃ payload issuedAt, Signs (signAccessToken config payload) issuedAt sent.token ∧
        claimed = claims payload .access config.accessToken.expiresIn issuedAt) ∨
      ∃ payload issuedAt, Signs (signRefreshToken config payload) issuedAt sent.token ∧
        claimed = claims payload .refresh config.refreshToken.expiresIn issuedAt := by
  obtain ⟨payload, issuedAt, access | refresh⟩ := sent.unforged secret claimed signed held
  · have same := signed.symm.trans (signs_access.mp access)
    exact .inl ⟨payload, issuedAt, access, (Str.jwt.inj same).2⟩
  · have same := signed.symm.trans (signs_refresh.mp refresh)
    exact .inr ⟨payload, issuedAt, refresh, (Str.jwt.inj same).2⟩

end

/-- Whatever the secrets, each kind of token passes only where it should. -/
theorem tokens_never_interchangeable (platform : Platform) (config : JwtConfig) :
    NeverInterchangeable platform config where
  admits payload issuedAt token now context named signed unexpired notPublic bearer := by
    rw [signs_access] at signed
    have valid : verifiedClaims config context.authorization now =
        some (claims payload .access config.accessToken.expiresIn issuedAt) := by
      rw [bearer, verifiedClaims_bearer]
      exact ⟨signed, rfl, named, claims_alive.mpr unexpired⟩
    rcases canActivateIn_eq config context now with ⟨onPublic, -⟩ | ⟨-, ⟨user, valid', admits⟩ | ⟨invalid, -⟩⟩
    · rw [notPublic] at onPublic
      cases onPublic
    · cases valid.symm.trans valid'
      exact ⟨_, admits, rfl, rfl, rfl⟩
    · cases valid.symm.trans invalid
  rejectsRefresh payload issuedAt token now context signed notPublic bearer := by
    rw [turnsAway_iff notPublic, bearer]
    refine Option.eq_none_iff_forall_ne_some.mpr fun user valid => ?_
    obtain ⟨made, kind, -⟩ := verifiedClaims_bearer.mp valid
    cases (Str.jwt.inj ((signs_refresh.mp signed).symm.trans made)).2
    cases claims_typ.mp kind
  rejectsOthers sent now context never notPublic bearer := by
    rw [turnsAway_iff notPublic, bearer]
    refine Option.eq_none_iff_forall_ne_some.mpr fun user valid => ?_
    obtain ⟨made, kind, -⟩ := verifiedClaims_bearer.mp valid
    rcases sent.made made (.inl rfl) with ⟨payload, issuedAt, access, -⟩ | ⟨payload, issuedAt, -, rfl⟩
    · exact never payload issuedAt access
    · cases claims_typ.mp kind
  rejectsText raw now context notPublic header := by
    rw [turnsAway_iff notPublic, header]
    refine Option.eq_none_iff_forall_ne_some.mpr fun user valid => ?_
    simp only [verifiedClaims, JwtAuthGuard.extractToken] at valid
    split at valid
    · simp [verified, jwtVerify, Except.toOption] at valid
    · cases valid
  refreshes sent now := by
    rw [pastVerification_iff]
    constructor
    · rintro ⟨claimed, made, kind, named, alive⟩
      rcases sent.made made (.inr rfl) with ⟨payload, issuedAt, -, rfl⟩ | ⟨payload, issuedAt, refresh, rfl⟩
      · cases claims_typ.mp kind
      · exact ⟨payload, issuedAt, named, refresh, claims_alive.mp alive⟩
    · rintro ⟨payload, issuedAt, named, signed, unexpired⟩
      exact ⟨_, signs_refresh.mp signed, rfl, named, claims_alive.mpr unexpired⟩
  neverAccess payload issuedAt token now signed := by
    rw [pastVerification_iff]
    rintro ⟨claimed, made, kind, -⟩
    cases (Str.jwt.inj ((signs_access.mp signed).symm.trans made)).2
    cases claims_typ.mp kind

namespace Sample

/-- The payload claims to be a refresh token that has expired. -/
def annsClaims : TokenPayload := ⟨"ann", "ann@mail", "ann", some "refresh", none, some 1⟩

/-- Both kinds of tokens are signed with one secret. -/
def oneSecret : JwtConfig := ⟨⟨"secret", 900⟩, ⟨"secret", 604800⟩⟩

/-- The profile is asked for with that token, at a route that is not public. -/
def profileWith (sent : Circulating oneSecret) : ExecutionContext := publicProfile (some (.bearer sent.token))

/-- What the guard and the refresh make of Ann's two tokens and of one that she has signed herself. -/
theorem tokens_never_interchangeable_oneSecret :
    (∃ user, JwtAuthGuard.canActivateIn oneSecret (profileWith (.ofAccess oneSecret annsClaims 1000)) 2000 =
      ⟨.ok true, { profileWith (.ofAccess oneSecret annsClaims 1000) with user := some user }⟩ ∧ user.sub = "ann") ∧
    TurnsAway oneSecret (profileWith (.ofRefresh oneSecret annsClaims 1000)) 2000 ∧
    TurnsAway oneSecret
      (profileWith (.ofForeign oneSecret "mine" ⟨"ann", "ann@mail", "ann", some "access",
        none, none⟩ (by decide))) 2000 ∧
    PastVerification platform oneSecret (Circulating.ofRefresh oneSecret annsClaims 1000).token 2000 ∧
    ¬ PastVerification platform oneSecret (Circulating.ofAccess oneSecret annsClaims 1000).token 2000 := by
  have never := tokens_never_interchangeable platform oneSecret
  refine ⟨?_, ?_, ?_, ?_, ?_⟩
  · obtain ⟨user, admits, sub, -⟩ := never.admits annsClaims 1000 _ 2000
      (profileWith (.ofAccess oneSecret annsClaims 1000)) (by decide) (signs_access.mpr rfl) (by decide) rfl rfl
    exact ⟨user, admits, sub⟩
  · exact never.rejectsRefresh annsClaims 1000 _ 2000 _ (signs_refresh.mpr rfl) rfl rfl
  · refine never.rejectsOthers (.ofForeign oneSecret "mine" _ (by decide)) 2000 _
      (fun payload issuedAt signed => ?_)
      rfl rfl
    exact absurd (Str.jwt.inj (signs_access.mp signed)).1 (by decide)
  · exact (never.refreshes (.ofRefresh oneSecret annsClaims 1000) 2000).mpr
      ⟨annsClaims, 1000, by decide, signs_refresh.mpr rfl, by decide⟩
  · exact never.neverAccess annsClaims 1000 _ 2000 (signs_access.mpr rfl)

end Sample

end KeycloakAuth
