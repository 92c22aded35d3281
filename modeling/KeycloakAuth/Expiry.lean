import KeycloakAuth.FreshTokens
import KeycloakAuth.Guards

namespace KeycloakAuth
open Async InMemoryTokenStore

theorem Date.before_of_le {date : Date} {earlier later : Nat} (order : earlier ≤ later)
    (past : date.before earlier = true) : date.before later = true := by
  by_contra alive
  cases (Date.before_mono order (by simpa using alive)).symm.trans past

theorem Date.before_ofMs {ms now : Nat} : (Date.ofMs ms).before now = true ↔ ms ≤ Date.maxTime ∧ ms < now := by
  unfold Date.ofMs Date.before
  split
  · rename_i small
    simp [small]
  · rename_i large
    simp [large]

/-- `verifyRefreshToken` returns the claims of the token at the clock reading `now`. -/
def Verifies (config : JwtConfig) (token : Str) (now : Nat) : Prop :=
  ∃ payload, (JwtTokenService.verifyRefreshToken config token :
    Program (fun none : Empty => none.elim) Thrown TokenPayload).settle now 0 0 = (.returned payload, 0)

theorem verifies_verified {config : JwtConfig} {token : Str} {now : Nat} : Verifies config token now ↔
    ∃ payload, JwtTokenService.verified token .refresh config.refreshToken.secret "Refresh token has expired"
      "Invalid refresh token" now = .ok payload := by
  simp only [Verifies, JwtTokenService.verifyRefreshToken, JwtTokenService.verify_eq, Program.settle]
  cases JwtTokenService.verified token .refresh config.refreshToken.secret "Refresh token has expired"
    "Invalid refresh token" now <;> simp [Program.settle]

/-- A refresh token is verified before the second in which it expires. -/
theorem verifies_iff {options : Deployment} {user : User} (named : user.id ≠ "") {signedAt now : Nat} :
    Verifies options.jwt (issued options signedAt user).refreshToken now ↔
      now / 1000 < signedAt / 1000 + options.jwt.refreshToken.expiresIn := by
  simp only [verifies_verified, JwtTokenService.verified_ok, issued, Str.jwt.injEq, true_and]
  constructor
  · rintro ⟨payload, rfl, -, -, alive⟩
    exact alive _ rfl
  · intro alive
    refine ⟨_, rfl, rfl, named, ?_⟩
    rintro _ ⟨⟩
    exact alive

section
variable {κ : Type} (server : KeycloakServer κ) (platform : Platform) (options : Deployment)

/-- The record that stands for the token was filed at `savedAt` and has not been consumed. -/
def FiledAt (store : InMemoryTokenStore) (token : Str) (savedAt : Nat) : Prop :=
  ∃ record, store.findByToken token .refreshToken = some record ∧ record.consumedAt = none ∧
    record.expiresAt = .ofMs (savedAt + options.refreshTokenTtlMs)

/-- A refresh that is answered `TokenExpiredError` and changes nothing on file. -/
def Declined (cfg : AuthConfig κ) (schedule : Schedule Plan) (token : Str) : Prop :=
  (authSystem server platform options).result cfg schedule (.refresh token) =
      .error (.domain .tokenExpired "Refresh token has expired") ∧
    ((authSystem server platform options).serve cfg schedule (.refresh token)).shared.store = cfg.shared.store

/-- For a token that was signed at `signedAt` and filed at `savedAt`, the two checks agree at `now`: a record that
passes has a token that passes; and if the token has expired while its record is unconsumed, it is declined now,
which leaves the record unconsumed, and is declined again later. -/
structure ChecksAgree (user : User) (signedAt savedAt now : Nat) : Prop where
  agree : (Date.ofMs (savedAt + options.refreshTokenTtlMs)).before now = false →
    Verifies options.jwt (issued options signedAt user).refreshToken now
  declined : ∀ (cfg : AuthConfig κ) schedule, cfg.clock = now →
    FiledAt options cfg.shared.store (issued options signedAt user).refreshToken savedAt →
    ¬ Verifies options.jwt (issued options signedAt user).refreshToken now →
    Declined server platform options cfg schedule (issued options signedAt user).refreshToken
  again : ∀ (cfg : AuthConfig κ) schedule schedule', cfg.clock = now →
    FiledAt options cfg.shared.store (issued options signedAt user).refreshToken savedAt →
    ¬ Verifies options.jwt (issued options signedAt user).refreshToken now →
    Declined server platform options ((authSystem server platform options).serve cfg schedule
      (.refresh (issued options signedAt user).refreshToken)) schedule' (issued options signedAt user).refreshToken

variable {server platform options}

/-- So every unused refresh token of a run was signed and filed. -/
theorem reach_filedAt {permitted : AuthConfig κ → AuthEvent κ → Prop} {clock : Nat}
    {keycloak : κ} {cfg : AuthConfig κ}
    (reach : (authSystem server platform options).Reach permitted (.start clock (.fresh keycloak)) cfg) {t : Str}
    {record : TokenRecord} (found : cfg.shared.store.findByToken t .refreshToken = some record)
    (unused : record.consumedAt = none) : ∃ user signedAt savedAt, user.id ≠ "" ∧ signedAt ≤ savedAt ∧
      t = (issued options signedAt user).refreshToken ∧ FiledAt options cfg.shared.store t savedAt := by
  obtain ⟨member, hashed, typed⟩ := findByToken_spec found
  obtain ⟨original, saved, _, rfl⟩ := (reach_ledger reach).stems record member
  obtain ⟨user, signedAt, savedAt, named, signed, order, lifetime⟩ := reach_session reach saved typed
  have token : original.token = t := Str.sha256.inj hashed
  exact ⟨user, signedAt, savedAt, named ▸ reach_owner reach saved, order, token.symm.trans signed,
    _, found, unused, lifetime⟩

/-- A refresh that finds an unused record past its time changes nothing. -/
theorem declined_of_past {cfg : AuthConfig κ} {schedule : Schedule Plan} {token : Str} {record : TokenRecord}
    (found : cfg.shared.store.findByToken token .refreshToken = some record) (unused : record.consumedAt = none)
    (past : record.expiresAt.before cfg.clock = true) : Declined server platform options cfg schedule token := by
  have ends : ((Request.refresh token).body platform options).Ensures (answerCall server platform options)
      (fun _ => True) cfg.threads.length (fun result _ shared _ =>
        result = .error (.domain .tokenExpired "Refresh token has expired") ∧ shared.store = cfg.shared.store)
      cfg.clock 0 cfg.shared cfg.log := by
    simp only [Request.body, RefreshTokenUseCase.execute, Service.tokenStore, Program.bind_eq, Program.bind_assoc]
    refine tokenStore_ensures server platform options fun looked since => ?_
    simp only [answerStore, found, unused, Option.isSome_none, Bool.false_eq_true, if_false, Program.bind_assoc]
    refine .now ?_
    simp only [Date.before_of_le since past, if_true]
    exact ⟨rfl, rfl⟩
  exact served server platform options ends fun _ => trivial

theorem checksAgree_iff {user : User} (named : user.id ≠ "") {signedAt savedAt now : Nat} :
    ChecksAgree server platform options user signedAt savedAt now ↔
      now / 1000 < signedAt / 1000 + options.jwt.refreshToken.expiresIn ∨
        savedAt + options.refreshTokenTtlMs ≤ Date.maxTime ∧ savedAt + options.refreshTokenTtlMs < now := by
  constructor
  · intro agrees
    by_contra gap
    obtain ⟨late, kept⟩ := not_or.mp gap
    refine late ((verifies_iff named).mp (agrees.agree ?_))
    rw [Bool.eq_false_iff]
    exact fun past => kept (Date.before_ofMs.mp past)
  · intro apart
    have declined (cfg : AuthConfig κ) (schedule : Schedule Plan) (later : now ≤ cfg.clock)
        (filed : FiledAt options cfg.shared.store (issued options signedAt user).refreshToken savedAt)
        (expired : ¬ Verifies options.jwt (issued options signedAt user).refreshToken now) :
        Declined server platform options cfg schedule (issued options signedAt user).refreshToken := by
      obtain ⟨record, found, unused, lifetime⟩ := filed
      have past := Date.before_ofMs.mpr (apart.resolve_left fun alive => expired ((verifies_iff named).mpr alive))
      exact declined_of_past found unused (Date.before_of_le later (lifetime ▸ past))
    refine ⟨fun alive => ?_, fun cfg schedule here => declined cfg schedule here.ge, ?_⟩
    · refine (verifies_iff named).mpr (apart.resolve_right fun past => ?_)
      cases (Date.before_ofMs.mpr past).symm.trans alive
    · intro cfg schedule schedule' here filed expired
      have first := declined cfg schedule here.ge filed expired
      have later := (System.serve_reach (S := authSystem server platform options) cfg schedule
        (.refresh (issued options signedAt user).refreshToken)).clock_le
      refine declined _ schedule' (here ▸ later) ?_ expired
      rw [first.2]
      exact filed

/-- A token of two seconds' life, between its last second and the end of its record. -/
theorem checksAgree_iff_twoSeconds :
    let options : Deployment := { Sample.options with jwt := ⟨⟨"access secret", 900⟩, ⟨"refresh secret", 2⟩⟩ }
    let user := KeycloakAuthProvider.kcUserToUser Sample.ann.representation 1500
    ChecksAgree Realm.server Sample.platform options user 1500 1510 3100 ↔
      3100 / 1000 < 1500 / 1000 + options.jwt.refreshToken.expiresIn ∨
        1510 + options.refreshTokenTtlMs ≤ Date.maxTime ∧ 1510 + options.refreshTokenTtlMs < 3100 :=
  checksAgree_iff (by decide)

/-- Half a second after the token has expired its record still passes. -/
theorem checksAgree_not_always : ¬ ∀ (κ : Type) (server : KeycloakServer κ) platform options (user : User)
    (signedAt savedAt now : Nat), user.id ≠ "" → signedAt ≤ savedAt → savedAt ≤ now →
    ChecksAgree server platform options user signedAt savedAt now := by
  intro always
  let options : Deployment := { Sample.options with jwt := ⟨⟨"access secret", 900⟩, ⟨"refresh secret", 2⟩⟩ }
  let user := KeycloakAuthProvider.kcUserToUser Sample.ann.representation 1500
  have agrees := always Realm Realm.server Sample.platform options user 1500 1500 3400 (by decide)
    (by decide) (by decide)
  have verified := agrees.agree (by decide)
  exact absurd ((verifies_iff (by decide)).mp verified) (by decide)

end

end KeycloakAuth
