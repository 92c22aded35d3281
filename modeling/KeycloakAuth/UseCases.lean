import KeycloakAuth.ValueObjects

namespace KeycloakAuth
open Async Service

namespace RegisterUseCase

def execute (platform : Platform) (requireEmailVerification : Bool) (email username password : String) :
    Service (User × String) := do
  let _ ← Program.ofExcept (Email.create platform email)
  let _ ← Program.ofExcept (Password.create password)
  let user : User ← authProvider (.register ⟨email, username, password, some (!requireEmailVerification)⟩)
  if requireEmailVerification then
    let _ ← authProvider (.sendVerifyEmail user.id)
    return (user, "Registration successful. Check your inbox to verify your email.")
  else
    return (user, "Registration successful.")

end RegisterUseCase

namespace Complete2FALoginUseCase

def execute (refreshTokenTtlMs : Nat) (preAuthToken : Str) (code : String) :
    Service (SessionResponse × PublicUser) := do
  let found : Option TokenRecord ← tokenStore (.findByToken preAuthToken .preAuth2FA)
  match found.filter (·.consumedAt.isNone) with
  | none => throw (.domain .tokenInvalid "Invalid or already used pre-auth token")
  | some record =>
    if record.expiresAt.before (← Program.now) then
      throw (.domain .tokenExpired "Pre-auth token has expired — log in again")
    let valid : Bool ← authProvider (.verify2FA record.userId code)
    if !valid then throw (.domain .twoFactorInvalid "Invalid 2FA code")
    let consumed : Bool ← tokenStore (.markConsumed record.id)
    if !consumed then throw (.domain .tokenInvalid "Invalid or already used pre-auth token")
    let user : User ← authProvider (.getUserById record.userId)
    let tokens : IssueTokensResponse ← authProvider (.issueTokens record.userId)
    saveRecord record.userId .refreshToken tokens.refreshToken refreshTokenTtlMs
    return (⟨tokens.accessToken, tokens.refreshToken, tokens.expiresIn⟩, ⟨user.id, user.email, user.username⟩)

end Complete2FALoginUseCase

namespace RefreshTokenUseCase

def reuseDetected : Thrown :=
  .domain .tokenReuseDetected "Refresh token reuse detected — all sessions have been revoked"

def execute (refreshTokenTtlMs : Nat) (refreshToken : Str) : Service SessionResponse := do
  let found : Option TokenRecord ← tokenStore (.findByToken refreshToken .refreshToken)
  match found with
  | none => throw (.domain .tokenInvalid "Refresh token not recognized")
  | some record =>
    if record.consumedAt.isSome then
      let _ ← tokenStore (.deleteAllForUser record.userId)
      throw reuseDetected
    else if record.expiresAt.before (← Program.now) then
      throw (.domain .tokenExpired "Refresh token has expired")
    else
      let consumed : Bool ← tokenStore (.markConsumed record.id)
      if !consumed then
        -- lost the race against a concurrent request using the same token
        let _ ← tokenStore (.deleteAllForUser record.userId)
        throw reuseDetected
      else
        let payload : IssueTokensResponse ← authProvider (.refreshToken refreshToken)
        saveRecord record.userId .refreshToken payload.refreshToken refreshTokenTtlMs
        return ⟨payload.accessToken, payload.refreshToken, payload.expiresIn⟩

end RefreshTokenUseCase

/-- `ForgotPasswordUseCase` and `SendMagicLinkUseCase` differ in the purpose and lifetime of the token,
in the mail and in the message. -/
def sendLink (type : TokenType) (ttlMs : Nat) (template : EmailTemplate) (page message : String)
    (email : String) : Service (String × Option String) := do
  let lookup : Option User ←
    try
      let user : User ← authProvider (.getUserByEmail email)
      pure (some user)
    catch
      -- never reveal whether the email is registered
      | .domain .userNotFound _ => pure none
      | err => throw err
  match lookup with
  | none => return (message, none)
  | some user =>
    let token ← randomHex
    saveRecord user.id type token ttlMs
    let mail : RenderedEmail ← Program.perform (Call.render template ⟨page, token⟩)
    let _ ← Program.perform (Call.send ⟨user.email, mail.subject, mail.html, mail.text⟩)
    return (message, some user.id)

namespace ForgotPasswordUseCase

def execute (baseUrl email : String) : Service (String × Option String) :=
  sendLink .resetPassword (60 * 60 * 1000) .forgotPassword (baseUrl ++ "/reset-password?token=")
    "Password reset email sent if the account exists." email

end ForgotPasswordUseCase

namespace SendMagicLinkUseCase

def execute (baseUrl email : String) : Service (String × Option String) :=
  sendLink .magicLink (15 * 60 * 1000) .magicLink (baseUrl ++ "/magic-link?token=")
    "Magic link sent if the account exists." email

end SendMagicLinkUseCase

namespace ResetPasswordUseCase

def execute (token : Str) (newPassword : String) : Service (String × String) := do
  let _ ← Program.ofExcept (Password.create newPassword)
  let found : Option TokenRecord ← tokenStore (.findByToken token .resetPassword)
  match found with
  | none => throw (.domain .tokenInvalid "Invalid or expired reset token")
  | some record =>
    if record.consumedAt.isSome then throw (.domain .tokenInvalid "Reset token has already been used")
    if record.expiresAt.before (← Program.now) then
      throw (.domain .resetTokenExpired "Reset token has expired")
    -- consumed before the password changes, so that the token can never be replayed
    let consumed : Bool ← tokenStore (.markConsumed record.id)
    if !consumed then throw (.domain .tokenInvalid "Reset token has already been used")
    let _ ← authProvider (.completePasswordReset record.userId newPassword)
    let _ ← tokenStore (.deleteAllForUser record.userId)
    return ("Password has been reset successfully.", record.userId)

end ResetPasswordUseCase

namespace VerifyMagicLinkUseCase

def execute (refreshTokenTtlMs : Nat) (token : Str) : Service SessionResponse := do
  let found : Option TokenRecord ← tokenStore (.findByToken token .magicLink)
  match found with
  | none => throw (.domain .tokenInvalid "Invalid magic link token")
  | some record =>
    if record.consumedAt.isSome then throw (.domain .magicLinkAlreadyUsed "Magic link has already been used")
    if record.expiresAt.before (← Program.now) then
      throw (.domain .magicLinkExpired "Magic link has expired")
    let consumed : Bool ← tokenStore (.markConsumed record.id)
    if !consumed then throw (.domain .magicLinkAlreadyUsed "Magic link has already been used")
    let tokens : IssueTokensResponse ← authProvider (.issueTokens record.userId)
    saveRecord record.userId .refreshToken tokens.refreshToken refreshTokenTtlMs
    return ⟨tokens.accessToken, tokens.refreshToken, tokens.expiresIn⟩

end VerifyMagicLinkUseCase

namespace Setup2FAUseCase

def execute (userId : String) : Service Setup2FAResponse := authProvider (.setup2FA userId)

end Setup2FAUseCase

namespace Verify2FAUseCase

def execute (userId code : String) : Service Unit := do
  let isValid : Bool ← authProvider (.verify2FA userId code)
  if !isValid then throw (.domain .twoFactorInvalid "Invalid 2FA code")

end Verify2FAUseCase

namespace LogoutUseCase

def execute (refreshToken : Str) : Service Unit := do
  let found : Option TokenRecord ← tokenStore (.findByToken refreshToken .refreshToken)
  match found with
  | some record =>
    if record.consumedAt.isNone then
      let _ ← tokenStore (.markConsumed record.id)
  | none => pure ()
  authProvider (.logout refreshToken)

end LogoutUseCase

end KeycloakAuth
