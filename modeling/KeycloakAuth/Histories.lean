import KeycloakAuth.Service

namespace KeycloakAuth
open Async Service

abbrev ServiceView := View Call Thrown Response

abbrev foundEntry (p : Nat) (token : Str) (type : TokenType) (record : TokenRecord) (t : Nat) : LogEntry :=
  ⟨p, .store (.findByToken token type), .ok (some record), t⟩

abbrev markedEntry (p : Nat) (id : Str) (consumed : Bool) (t : Nat) : LogEntry :=
  ⟨p, .store (.markConsumed id), .ok consumed, t⟩

/-- The record `saveRecord` files at the clock reading `now`. -/
abbrev freshRecord (nonce : Nonce) (userId : String) (type : TokenType) (token : Str) (ttlMs now : Nat) :
    TokenRecord :=
  ⟨.random nonce, userId, type, token, .ofMs (now + ttlMs), none, .ofMs now⟩

theorem saveRecord_along {β : Type} {Φ : List LogEntry → View Call Thrown β → Prop} {p now drawn : Nat}
    {history : List LogEntry} {userId : String} {type : TokenType} {token : Str} {ttlMs : Nat}
    {next : Unit → Service β}
    (here : Φ history (.awaiting (.store (.save (freshRecord ⟨p, drawn⟩ userId type token ttlMs now)))))
    (answered : ∀ value later, now ≤ later → (next value).Along Φ p later (drawn + 1) (history ++
      [⟨p, .store (.save (freshRecord ⟨p, drawn⟩ userId type token ttlMs now)), .ok value, later⟩]))
    (rejected : ∀ error later, Φ (history ++
      [⟨p, .store (.save (freshRecord ⟨p, drawn⟩ userId type token ttlMs now)), .error error, later⟩])
      (.threw error)) :
    ((saveRecord userId type token ttlMs).bind next).Along Φ p now drawn history := by
  refine ⟨here, ?_⟩
  rintro (error | value) later after
  · exact rejected error later
  · exact answered value later after

/-- `RefreshTokenUseCase`. -/
inductive RefreshPhase (p ttl : Nat) (token : Str) : List LogEntry → ServiceView → Prop
  | lookup : RefreshPhase p ttl token [] (.awaiting (.store (.findByToken token .refreshToken)))
  | reused {record t} (used : record.consumedAt.isSome) :
      RefreshPhase p ttl token [foundEntry p token .refreshToken record t]
        (.awaiting (.store (.deleteAllForUser record.userId)))
  | taking {record t} (unused : record.consumedAt = none) (alive : record.expiresAt.before t = false) :
      RefreshPhase p ttl token [foundEntry p token .refreshToken record t]
        (.awaiting (.store (.markConsumed record.id)))
  | lost {record t t'} (unused : record.consumedAt = none) :
      RefreshPhase p ttl token
        [foundEntry p token .refreshToken record t, markedEntry p record.id false t']
        (.awaiting (.store (.deleteAllForUser record.userId)))
  | issuing {record t t'} (unused : record.consumedAt = none) (alive : record.expiresAt.before t = false) :
      RefreshPhase p ttl token
        [foundEntry p token .refreshToken record t, markedEntry p record.id true t']
        (.awaiting (.auth (.refreshToken token)))
  | saving {record tokens t t' now} (unused : record.consumedAt = none)
      (alive : record.expiresAt.before t = false) :
      RefreshPhase p ttl token
        [foundEntry p token .refreshToken record t, markedEntry p record.id true t',
          ⟨p, .auth (.refreshToken token), .ok tokens, now⟩]
        (.awaiting (.store (.save
          (freshRecord ⟨p, 0⟩ record.userId .refreshToken tokens.refreshToken ttl now))))
  | returned {record : TokenRecord} {tokens t t' now saved} :
      RefreshPhase p ttl token
        [foundEntry p token .refreshToken record t, markedEntry p record.id true t',
          ⟨p, .auth (.refreshToken token), .ok tokens, now⟩,
          ⟨p, .store (.save (freshRecord ⟨p, 0⟩ record.userId .refreshToken tokens.refreshToken ttl now)),
            .ok (), saved⟩]
        (.returned (.refresh ⟨tokens.accessToken, tokens.refreshToken, tokens.expiresIn⟩))
  | threw {history error} : RefreshPhase p ttl token history (.threw error)

theorem refresh_along (platform : Platform) (options : Deployment) (p now : Nat) (token : Str) :
    ((Request.refresh token).body platform options).Along
      (RefreshPhase p options.refreshTokenTtlMs token) p now 0 [] := by
  simp only [Request.body, RefreshTokenUseCase.execute, tokenStore, authProvider, Program.bind_eq,
    Program.bind_assoc]
  refine .perform .lookup ?_ fun _ _ => .threw
  rintro (_ | record) t -
  · exact .threw
  by_cases used : record.consumedAt.isSome
  · simp only [used, if_true, Program.bind_assoc]
    exact .perform (.reused used) (fun _ _ _ => .threw) fun _ _ => .threw
  simp only [used, Bool.false_eq_true, if_false, Program.bind_assoc]
  refine .now ?_
  have unused : record.consumedAt = none := by simpa using used
  by_cases expired : record.expiresAt.before t = true
  · simp only [expired, if_true]
    exact .threw
  have alive : record.expiresAt.before t = false := by simpa using expired
  simp only [alive, Bool.false_eq_true, if_false, Program.bind_assoc]
  refine .perform (.taking unused alive) ?_ fun _ _ => .threw
  rintro (_ | _) t' -
  · simp only [Bool.not_false, if_true, Program.bind_assoc]
    exact .perform (.lost unused) (fun _ _ _ => .threw) fun _ _ => .threw
  simp only [Bool.not_true, Bool.false_eq_true, if_false, Program.bind_assoc]
  refine .perform (.issuing unused alive) ?_ fun _ _ => .threw
  intro tokens now' _
  refine saveRecord_along (.saving unused alive) ?_ fun _ _ => .threw
  exact fun _ _ _ => .returned

/-- `Complete2FALoginUseCase`. -/
inductive Complete2FAPhase (p ttl : Nat) (token : Str) (code : String) : List LogEntry → ServiceView → Prop
  | lookup : Complete2FAPhase p ttl token code [] (.awaiting (.store (.findByToken token .preAuth2FA)))
  | verifying {record t} (unused : record.consumedAt = none) (alive : record.expiresAt.before t = false) :
      Complete2FAPhase p ttl token code [foundEntry p token .preAuth2FA record t]
        (.awaiting (.auth (.verify2FA record.userId code)))
  | taking {record t t'} (unused : record.consumedAt = none) (alive : record.expiresAt.before t = false) :
      Complete2FAPhase p ttl token code
        [foundEntry p token .preAuth2FA record t, ⟨p, .auth (.verify2FA record.userId code), .ok true, t'⟩]
        (.awaiting (.store (.markConsumed record.id)))
  | fetching {record t t' t''} (unused : record.consumedAt = none)
      (alive : record.expiresAt.before t = false) :
      Complete2FAPhase p ttl token code
        [foundEntry p token .preAuth2FA record t, ⟨p, .auth (.verify2FA record.userId code), .ok true, t'⟩,
          markedEntry p record.id true t'']
        (.awaiting (.auth (.getUserById record.userId)))
  | issuing {record user t t' t'' t'''} (unused : record.consumedAt = none)
      (alive : record.expiresAt.before t = false) :
      Complete2FAPhase p ttl token code
        [foundEntry p token .preAuth2FA record t, ⟨p, .auth (.verify2FA record.userId code), .ok true, t'⟩,
          markedEntry p record.id true t'', ⟨p, .auth (.getUserById record.userId), .ok user, t'''⟩]
        (.awaiting (.auth (.issueTokens record.userId)))
  | saving {record user tokens t t' t'' t''' now} (unused : record.consumedAt = none)
      (alive : record.expiresAt.before t = false) :
      Complete2FAPhase p ttl token code
        [foundEntry p token .preAuth2FA record t, ⟨p, .auth (.verify2FA record.userId code), .ok true, t'⟩,
          markedEntry p record.id true t'', ⟨p, .auth (.getUserById record.userId), .ok user, t'''⟩,
          ⟨p, .auth (.issueTokens record.userId), .ok tokens, now⟩]
        (.awaiting (.store (.save
          (freshRecord ⟨p, 0⟩ record.userId .refreshToken tokens.refreshToken ttl now))))
  | returned {record : TokenRecord} {user : User} {tokens t t' t'' t''' now saved} :
      Complete2FAPhase p ttl token code
        [foundEntry p token .preAuth2FA record t, ⟨p, .auth (.verify2FA record.userId code), .ok true, t'⟩,
          markedEntry p record.id true t'', ⟨p, .auth (.getUserById record.userId), .ok user, t'''⟩,
          ⟨p, .auth (.issueTokens record.userId), .ok tokens, now⟩,
          ⟨p, .store (.save (freshRecord ⟨p, 0⟩ record.userId .refreshToken tokens.refreshToken ttl now)),
            .ok (), saved⟩]
        (.returned (.complete2FA ⟨tokens.accessToken, tokens.refreshToken, tokens.expiresIn⟩
          ⟨user.id, user.email, user.username⟩))
  | threw {history error} : Complete2FAPhase p ttl token code history (.threw error)

theorem complete2FA_along (platform : Platform) (options : Deployment) (p now : Nat) (token : Str)
    (code : String) : ((Request.complete2FA token code).body platform options).Along
      (Complete2FAPhase p options.refreshTokenTtlMs token code) p now 0 [] := by
  simp only [Request.body, Complete2FALoginUseCase.execute, tokenStore, authProvider, Program.bind_eq,
    Program.bind_assoc]
  refine .perform .lookup ?_ fun _ _ => .threw
  rintro (_ | record) t -
  · exact .threw
  by_cases used : record.consumedAt.isNone = true
  swap
  · simp only [Option.filter, used, Bool.false_eq_true, if_false]
    exact .threw
  simp only [Option.filter, used, if_true, Program.bind_assoc]
  refine .now ?_
  have unused : record.consumedAt = none := by simpa using used
  by_cases expired : record.expiresAt.before t = true
  · simp only [expired, if_true]
    exact .threw
  have alive : record.expiresAt.before t = false := by simpa using expired
  simp only [alive, Bool.false_eq_true, if_false, Program.bind_assoc, Program.pure_eq]
  refine .perform (.verifying unused alive) ?_ fun _ _ => .threw
  rintro (_ | _) t' -
  · exact .threw
  simp only [Bool.not_true, Bool.false_eq_true, if_false, Program.bind_assoc]
  refine .perform (.taking unused alive) ?_ fun _ _ => .threw
  rintro (_ | _) t'' -
  · exact .threw
  simp only [Bool.not_true, Bool.false_eq_true, if_false, Program.bind_assoc]
  refine .perform (.fetching unused alive) (fun user t''' _ => ?_) fun _ _ => .threw
  refine .perform (.issuing unused alive) (fun tokens now' _ => ?_) fun _ _ => .threw
  exact saveRecord_along (.saving unused alive) (fun _ _ _ => .returned) fun _ _ => .threw

/-- `VerifyMagicLinkUseCase`. -/
inductive MagicLinkPhase (p ttl : Nat) (token : Str) : List LogEntry → ServiceView → Prop
  | lookup : MagicLinkPhase p ttl token [] (.awaiting (.store (.findByToken token .magicLink)))
  | taking {record t} (unused : record.consumedAt = none) (alive : record.expiresAt.before t = false) :
      MagicLinkPhase p ttl token [foundEntry p token .magicLink record t]
        (.awaiting (.store (.markConsumed record.id)))
  | issuing {record t t'} (unused : record.consumedAt = none) (alive : record.expiresAt.before t = false) :
      MagicLinkPhase p ttl token
        [foundEntry p token .magicLink record t, markedEntry p record.id true t']
        (.awaiting (.auth (.issueTokens record.userId)))
  | saving {record tokens t t' now} (unused : record.consumedAt = none)
      (alive : record.expiresAt.before t = false) :
      MagicLinkPhase p ttl token
        [foundEntry p token .magicLink record t, markedEntry p record.id true t',
          ⟨p, .auth (.issueTokens record.userId), .ok tokens, now⟩]
        (.awaiting (.store (.save
          (freshRecord ⟨p, 0⟩ record.userId .refreshToken tokens.refreshToken ttl now))))
  | returned {record : TokenRecord} {tokens t t' now saved} :
      MagicLinkPhase p ttl token
        [foundEntry p token .magicLink record t, markedEntry p record.id true t',
          ⟨p, .auth (.issueTokens record.userId), .ok tokens, now⟩,
          ⟨p, .store (.save (freshRecord ⟨p, 0⟩ record.userId .refreshToken tokens.refreshToken ttl now)),
            .ok (), saved⟩]
        (.returned (.verifyMagicLink ⟨tokens.accessToken, tokens.refreshToken, tokens.expiresIn⟩))
  | threw {history error} : MagicLinkPhase p ttl token history (.threw error)

theorem magicLink_along (platform : Platform) (options : Deployment) (p now : Nat) (token : Str) :
    ((Request.verifyMagicLink token).body platform options).Along
      (MagicLinkPhase p options.refreshTokenTtlMs token) p now 0 [] := by
  simp only [Request.body, VerifyMagicLinkUseCase.execute, tokenStore, authProvider, Program.bind_eq,
    Program.bind_assoc]
  refine .perform .lookup ?_ fun _ _ => .threw
  rintro (_ | record) t -
  · exact .threw
  by_cases used : record.consumedAt.isSome
  · simp only [used, if_true]
    exact .threw
  simp only [used, Bool.false_eq_true, if_false, Program.bind_assoc, Program.pure_eq]
  refine .now ?_
  have unused : record.consumedAt = none := by simpa using used
  by_cases expired : record.expiresAt.before t = true
  · simp only [expired, if_true]
    exact .threw
  have alive : record.expiresAt.before t = false := by simpa using expired
  simp only [alive, Bool.false_eq_true, if_false, Program.bind_assoc]
  refine .perform (.taking unused alive) ?_ fun _ _ => .threw
  rintro (_ | _) t' -
  · exact .threw
  simp only [Bool.not_true, Bool.false_eq_true, if_false, Program.bind_assoc]
  refine .perform (.issuing unused alive) (fun tokens now' _ => ?_) fun _ _ => .threw
  exact saveRecord_along (.saving unused alive) (fun _ _ _ => .returned) fun _ _ => .threw

/-- `ResetPasswordUseCase`. -/
inductive ResetPhase (p : Nat) (token : Str) (newPassword : String) : List LogEntry → ServiceView → Prop
  | lookup : ResetPhase p token newPassword [] (.awaiting (.store (.findByToken token .resetPassword)))
  | taking {record t} (unused : record.consumedAt = none) (alive : record.expiresAt.before t = false) :
      ResetPhase p token newPassword [foundEntry p token .resetPassword record t]
        (.awaiting (.store (.markConsumed record.id)))
  | changing {record t t'} (unused : record.consumedAt = none) (alive : record.expiresAt.before t = false) :
      ResetPhase p token newPassword
        [foundEntry p token .resetPassword record t, markedEntry p record.id true t']
        (.awaiting (.auth (.completePasswordReset record.userId newPassword)))
  | revoking {record t t' t''} (unused : record.consumedAt = none) :
      ResetPhase p token newPassword
        [foundEntry p token .resetPassword record t, markedEntry p record.id true t',
          ⟨p, .auth (.completePasswordReset record.userId newPassword), .ok (), t''⟩]
        (.awaiting (.store (.deleteAllForUser record.userId)))
  | returned {record : TokenRecord} {t t' t'' t'''} :
      ResetPhase p token newPassword
        [foundEntry p token .resetPassword record t, markedEntry p record.id true t',
          ⟨p, .auth (.completePasswordReset record.userId newPassword), .ok (), t''⟩,
          ⟨p, .store (.deleteAllForUser record.userId), .ok (), t'''⟩]
        (.returned (.passwordReset "Password has been reset successfully." record.userId))
  | threw {history error} : ResetPhase p token newPassword history (.threw error)

theorem reset_along (platform : Platform) (options : Deployment) (p now : Nat) (token : Str)
    (newPassword : String) : ((Request.resetPassword token newPassword).body platform options).Along
      (ResetPhase p token newPassword) p now 0 [] := by
  simp only [Request.body, ResetPasswordUseCase.execute, tokenStore, authProvider, Program.bind_eq,
    Program.bind_assoc]
  cases Password.create newPassword with
  | error weak => exact .threw
  | ok password =>
  refine .perform .lookup ?_ fun _ _ => .threw
  rintro (_ | record) t -
  · exact .threw
  by_cases used : record.consumedAt.isSome
  · simp only [used, if_true]
    exact .threw
  simp only [used, Bool.false_eq_true, if_false, Program.bind_assoc, Program.pure_eq]
  refine .now ?_
  have unused : record.consumedAt = none := by simpa using used
  by_cases expired : record.expiresAt.before t = true
  · simp only [expired, if_true]
    exact .threw
  have alive : record.expiresAt.before t = false := by simpa using expired
  simp only [alive, Bool.false_eq_true, if_false, Program.bind_assoc]
  refine .perform (.taking unused alive) ?_ fun _ _ => .threw
  rintro (_ | _) t' -
  · exact .threw
  simp only [Bool.not_true, Bool.false_eq_true, if_false, Program.bind_assoc]
  refine .perform (.changing unused alive) (fun _ t'' _ => ?_) fun _ _ => .threw
  exact .perform (.revoking unused) (fun _ _ _ => .returned) fun _ _ => .threw

/-- `LogoutUseCase`. -/
inductive LogoutPhase (p : Nat) (token : Str) : List LogEntry → ServiceView → Prop
  | lookup : LogoutPhase p token [] (.awaiting (.store (.findByToken token .refreshToken)))
  | taking {record t} (unused : record.consumedAt = none) :
      LogoutPhase p token [foundEntry p token .refreshToken record t]
        (.awaiting (.store (.markConsumed record.id)))
  | leaving {history} : LogoutPhase p token history (.awaiting (.auth (.logout token)))
  | returned {history} : LogoutPhase p token history (.returned .loggedOut)
  | threw {history error} : LogoutPhase p token history (.threw error)

theorem logout_along (platform : Platform) (options : Deployment) (p now : Nat) (token : Str) :
    ((Request.logout token).body platform options).Along (LogoutPhase p token) p now 0 [] := by
  simp only [Request.body, LogoutUseCase.execute, tokenStore, authProvider, Program.bind_eq,
    Program.bind_assoc]
  refine .perform .lookup ?_ fun _ _ => .threw
  rintro (_ | record) t -
  · exact .perform .leaving (fun _ _ _ => .returned) fun _ _ => .threw
  by_cases unused : record.consumedAt.isNone = true
  · simp only [unused, if_true, Program.bind_assoc]
    refine .perform (.taking (by simpa using unused)) (fun _ _ _ => ?_) fun _ _ => .threw
    exact .perform .leaving (fun _ _ _ => .returned) fun _ _ => .threw
  · simp only [unused, Bool.false_eq_true, if_false]
    exact .perform .leaving (fun _ _ _ => .returned) fun _ _ => .threw

/-- `ForgotPasswordUseCase` and `SendMagicLinkUseCase`. A link is drawn for the user looked up, and sent to that
user's address. -/
inductive MailPhase (p : Nat) (type : TokenType) (ttl : Nat)
    (page email : String) : List LogEntry → ServiceView → Prop
  | lookup : MailPhase p type ttl page email [] (.awaiting (.auth (.getUserByEmail email)))
  | saving {user : User} {now} : MailPhase p type ttl page email [⟨p, .auth (.getUserByEmail email), .ok user, now⟩]
      (.awaiting (.store (.save (freshRecord ⟨p, 1⟩ user.id type (.random ⟨p, 0⟩) ttl now))))
  | rendering {user : User} {now t template} : MailPhase p type ttl page email
      [⟨p, .auth (.getUserByEmail email), .ok user, now⟩,
        ⟨p, .store (.save (freshRecord ⟨p, 1⟩ user.id type (.random ⟨p, 0⟩) ttl now)), .ok (), t⟩]
      (.awaiting (.render template ⟨page, .random ⟨p, 0⟩⟩))
  | sending {user : User} {now t template rendered t'} : MailPhase p type ttl page email
      [⟨p, .auth (.getUserByEmail email), .ok user, now⟩,
        ⟨p, .store (.save (freshRecord ⟨p, 1⟩ user.id type (.random ⟨p, 0⟩) ttl now)), .ok (), t⟩,
        ⟨p, .render template ⟨page, .random ⟨p, 0⟩⟩, .ok rendered, t'⟩]
      (.awaiting (.send ⟨user.email, rendered.subject, rendered.html, rendered.text⟩))
  | returned {history message userId} : MailPhase p type ttl page email history
      (.returned (.linkSent message userId))
  | threw {history error} : MailPhase p type ttl page email history (.threw error)

theorem sendLink_mails (p now : Nat) (type : TokenType) (ttl : Nat) (template : EmailTemplate)
    (page message email : String) : ((sendLink type ttl template page message email).bind fun sent =>
      Program.done (Response.linkSent sent.1 sent.2)).Along (MailPhase p type ttl page email) p now 0 [] := by
  simp only [sendLink, authProvider, Program.bind_eq, Program.tryCatch_eq, Program.bind_assoc]
  refine ⟨.lookup, ?_⟩
  rintro (error | user) t -
  · simp only [Program.ofExcept_error, Program.fail_bind, Program.attempt]
    split
    · exact .returned
    · exact .threw
  · simp only [Program.ofExcept_ok, Program.done_bind, Program.pure_eq, Program.attempt, randomHex,
      Program.bind_eq, Program.bind_assoc]
    refine .random ?_
    refine saveRecord_along .saving (fun _ _ _ => ?_) fun _ _ => .threw
    refine .perform .rendering (fun mail _ _ => ?_) fun _ _ => .threw
    exact .perform .sending (fun _ _ _ => .returned) fun _ _ => .threw

/-- The same, whatever is rendered and sent. -/
inductive LinkPhase (p : Nat) (type : TokenType) (ttl : Nat) (email : String) :
    List LogEntry → ServiceView → Prop
  | lookup : LinkPhase p type ttl email [] (.awaiting (.auth (.getUserByEmail email)))
  | saving {user : User} {now} :
      LinkPhase p type ttl email [⟨p, .auth (.getUserByEmail email), .ok user, now⟩]
        (.awaiting (.store (.save (freshRecord ⟨p, 1⟩ user.id type (.random ⟨p, 0⟩) ttl now))))
  | rendering {history template link} :
      LinkPhase p type ttl email history (.awaiting (.render template link))
  | sending {history mail} : LinkPhase p type ttl email history (.awaiting (.send mail))
  | returned {history message userId} :
      LinkPhase p type ttl email history (.returned (.linkSent message userId))
  | threw {history error} : LinkPhase p type ttl email history (.threw error)

theorem MailPhase.link {p : Nat} {type : TokenType} {ttl : Nat} {page email : String} {history : List LogEntry}
    {view : ServiceView} (phase : MailPhase p type ttl page email history view) :
    LinkPhase p type ttl email history view := by
  cases phase with
  | lookup => exact .lookup
  | saving => exact .saving
  | rendering => exact .rendering
  | sending => exact .sending
  | returned => exact .returned
  | threw => exact .threw

theorem sendLink_along (p now : Nat) (type : TokenType) (ttl : Nat) (template : EmailTemplate)
    (page message email : String) :
    ((sendLink type ttl template page message email).bind fun sent =>
      Program.done (Response.linkSent sent.1 sent.2)).Along (LinkPhase p type ttl email) p now 0 [] :=
  (sendLink_mails p now type ttl template page message email).mono fun _ _ phase => phase.link

end KeycloakAuth
