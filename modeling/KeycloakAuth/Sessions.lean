import KeycloakAuth.Ledger

namespace KeycloakAuth
open Async

/-- A record of a refresh token that was signed for the user it is filed under. Its lifetime begins when it
is filed, and so not before that of the token. -/
def Session (options : Deployment) (original : TokenRecord) : Prop :=
  ∃ user issuedAt filedAt, user.id = original.userId ∧
    original.token = (issued options issuedAt user).refreshToken ∧ issuedAt ≤ filedAt ∧
    original.expiresAt = .ofMs (filedAt + options.refreshTokenTtlMs)

/-- The three ways to a session: a password, another credential, or the rotation of a session. -/
theorem Phase.saving_session {platform : Platform} {options : Deployment} {p : Nat} {request : Request}
    {history : List LogEntry} {record : TokenRecord} (session : record.type = .refreshToken)
    (phase : Phase platform options p request history (.awaiting (.store (.save record)))) :
    ∃ issuedAt filedAt, record.expiresAt = .ofMs (filedAt + options.refreshTokenTtlMs) ∧
      (history.Pairwise (·.time ≤ ·.time) → issuedAt ≤ filedAt) ∧
      ((∃ email password result, ⟨p, .auth (.authenticate email password), .ok result, issuedAt⟩ ∈ history ∧
        record.userId = result.user.id ∧ record.token = result.refreshToken) ∨
      (∃ userId tokens, ⟨p, .auth (.issueTokens userId), .ok tokens, issuedAt⟩ ∈ history ∧
        record.userId = userId ∧ record.token = tokens.refreshToken) ∨
      (∃ token found t tokens, foundEntry p token .refreshToken found t ∈ history ∧
        ⟨p, .auth (.refreshToken token), .ok tokens, issuedAt⟩ ∈ history ∧
        record.userId = found.userId ∧ record.token = tokens.refreshToken)) := by
  cases request with
  | login email password =>
    cases phase with
    | challenging passed enrolled => simp at session
    | @saving before result t _ _ secret now passed notEnrolled =>
      refine ⟨t, now, rfl, fun sorted => ?_, .inl ⟨_, _, result, by simp, rfl, rfl⟩⟩
      have order := (List.pairwise_append.mp sorted).2.1
      exact (List.pairwise_cons.mp order).1 _
        (List.mem_cons_of_mem _ (List.mem_cons_of_mem _ (List.mem_singleton_self _)))
  | complete2FA token code =>
    cases phase with
    | @saving _ _ tokens _ _ _ _ now =>
      exact ⟨now, now, rfl, fun _ => Nat.le_refl _, .inr (.inl ⟨_, tokens, by simp, rfl, rfl⟩)⟩
  | verifyMagicLink token =>
    cases phase with
    | @saving _ tokens _ _ now =>
      exact ⟨now, now, rfl, fun _ => Nat.le_refl _, .inr (.inl ⟨_, tokens, by simp, rfl, rfl⟩)⟩
  | refresh token =>
    cases phase with
    | @saving record tokens t _ now =>
      exact ⟨now, now, rfl, fun _ => Nat.le_refl _,
        .inr (.inr ⟨token, record, t, tokens, by simp, by simp, rfl, rfl⟩)⟩
  | forgotPassword email => cases phase with | saving => simp at session
  | sendMagicLink email => cases phase with | saving => simp at session
  | resetPassword token newPassword => cases phase
  | logout token => cases phase
  | register email username password => cases phase
  | setup2FA userId => cases phase
  | verify2FA userId code => cases phase

/-- What a request has done before it files the session that it returns: no password was refused to it, and it
has presented a session, had a code checked, followed a magic link or logged in. -/
structure BeforeSession (p : Nat) (request : Request) (tokens : SessionResponse) (front : List LogEntry)
    (record : TokenRecord) : Prop where
  typed : record.type = .refreshToken
  token : record.token = tokens.refreshToken
  accepted : ∀ email password answer t, ⟨p, .auth (.authenticate email password), answer, t⟩ ∈ front →
    ∃ result, answer = .ok result
  ways : (∃ t, request = .refresh t) ∨
    (∃ code t, ⟨p, .auth (.verify2FA record.userId code), .ok true, t⟩ ∈ front) ∨
    (∃ token, request = .verifyMagicLink token) ∨ ∃ email password, request = .login email password

theorem Phase.returned_session {platform : Platform} {options : Deployment} {p : Nat} {request : Request}
    {history : List LogEntry} {response : Response} {tokens : SessionResponse}
    (phase : Phase platform options p request history (.returned response))
    (session : response.session = some tokens) :
    ∃ front record saved, history = front ++ [⟨p, .store (.save record), .ok (), saved⟩] ∧
      BeforeSession p request tokens front record := by
  have plainly (plain : PlainPhase p history (.returned response)) : False := by
    cases plain with
    | returned plain => cases plain.symm.trans session
  cases request with
  | login email password =>
    cases phase with
    | challenged => cases session
    | @returned before result t t' t'' secret now saved passed notEnrolled =>
      cases session
      refine ⟨_, _, saved, (List.append_assoc before [_, _, _, _] [_]).symm, rfl, rfl, ?_,
        .inr (.inr (.inr ⟨_, _, rfl⟩))⟩
      intro name word answer asked member
      cases passed <;> simp at member
      all_goals exact ⟨result, member.2.1⟩
  | complete2FA token code =>
    cases phase with
    | @returned record user issued t t' t'' t''' now saved =>
      cases session
      exact ⟨[_, _, _, _, _], _, saved, rfl, rfl, rfl, by simp, .inr (.inl ⟨code, t', by simp⟩)⟩
  | verifyMagicLink token =>
    cases phase with
    | @returned record issued t t' now saved =>
      cases session
      exact ⟨[_, _, _], _, saved, rfl, rfl, rfl, by simp, .inr (.inr (.inl ⟨token, rfl⟩))⟩
  | refresh token =>
    cases phase with
    | @returned record issued t t' now saved =>
      cases session
      exact ⟨[_, _, _], _, saved, rfl, rfl, rfl, by simp, .inl ⟨token, rfl⟩⟩
  | forgotPassword email => cases phase with | returned => cases session
  | sendMagicLink email => cases phase with | returned => cases session
  | resetPassword token newPassword => cases phase with | returned => cases session
  | logout token => cases phase with | returned => cases session
  | register email username password => exact (plainly phase).elim
  | setup2FA userId => exact (plainly phase).elim
  | verify2FA userId code => exact (plainly phase).elim

section
variable {κ : Type} {server : KeycloakServer κ} {platform : Platform} {options : Deployment}
  {permitted : AuthConfig κ → AuthEvent κ → Prop} {clock : Nat} {world : World κ} {cfg : AuthConfig κ}

/-- Tokens issued for a user id are signed for the user with that id. -/
theorem answerAuth_issueTokens_ok {plan : Plan} {now request : Nat} {userId : String}
    {tokens : IssueTokensResponse}
    (answered : (answerAuth server platform options plan now request (.issueTokens userId) world).1 = .ok tokens) :
    ∃ user, user.id = userId ∧ tokens = issued options now user := by
  rw [answerAuth_issueTokens] at answered
  obtain ⟨-, -, found⟩ := answerAuth_getUserById server platform options plan now request world userId
  cases looked : (answerAuth server platform options plan now request (.getUserById userId) world).1 with
  | error error => simp [looked, Except.map] at answered
  | ok user =>
    simp only [looked, Except.map, Except.ok.injEq] at answered
    exact ⟨user, (found user looked).1, answered.symm⟩

theorem answerAuth_refreshToken_ok {plan : Plan} {now request : Nat} {token : Str} {tokens : IssueTokensResponse}
    (answered : (answerAuth server platform options plan now request (.refreshToken token) world).1 = .ok tokens) :
    ∃ payload user, refreshClaims options now token = .ok payload ∧ user.id = payload.sub ∧
      tokens = issued options now user := by
  rw [answerAuth_refreshToken] at answered
  cases valid : refreshClaims options now token with
  | error error => simp [valid] at answered
  | ok payload =>
    simp only [valid] at answered
    obtain ⟨user, named, same⟩ := answerAuth_issueTokens_ok answered
    exact ⟨payload, user, rfl, named, same⟩

/-- An answer on the log was given by `perform` in some reachable configuration. -/
theorem reach_answered
    (reach : (authSystem server platform options).Reach permitted (.start clock world) cfg) {p t : Nat}
    {call : Call} {answer : Except Thrown call.Ans} (member : ⟨p, call, answer, t⟩ ∈ cfg.log) :
    ∃ plan world, (answerCall server platform options plan t p call world).1 = answer := by
  obtain ⟨before, after, split⟩ := List.append_of_mem member
  refine reach.justified_entry (fun _ entry => ∃ plan world,
    (answerCall server platform options plan entry.time entry.request entry.call world).1 = entry.answer) ?_ split
  intro cfg p thread call rest choice _ _ _ _
  exact ⟨choice, cfg.shared, rfl⟩

theorem reach_issued
    (reach : (authSystem server platform options).Reach permitted (.start clock world) cfg) {p t : Nat}
    {userId : String} {tokens : IssueTokensResponse}
    (member : ⟨p, .auth (.issueTokens userId), .ok tokens, t⟩ ∈ cfg.log) :
    ∃ user, user.id = userId ∧ tokens = issued options t user := by
  obtain ⟨plan, world, answered⟩ := reach_answered reach member
  exact answerAuth_issueTokens_ok answered

theorem reach_refreshed
    (reach : (authSystem server platform options).Reach permitted (.start clock world) cfg) {p t : Nat}
    {token : Str} {tokens : IssueTokensResponse}
    (member : ⟨p, .auth (.refreshToken token), .ok tokens, t⟩ ∈ cfg.log) :
    ∃ payload user, refreshClaims options t token = .ok payload ∧ user.id = payload.sub ∧
      tokens = issued options t user := by
  obtain ⟨plan, world, answered⟩ := reach_answered reach member
  exact answerAuth_refreshToken_ok answered

theorem reach_authenticated
    (reach : (authSystem server platform options).Reach permitted (.start clock world) cfg) {p t : Nat}
    {email password : String} {result : AuthenticateResponse}
    (member : ⟨p, .auth (.authenticate email password), .ok result, t⟩ ∈ cfg.log) :
    result = authenticated options t result.user := by
  obtain ⟨plan, world, answered⟩ := reach_answered reach member
  obtain ⟨-, ok⟩ := answerAuth_authenticate server platform options plan t p world email password
  obtain ⟨-, found, others, -, rfl⟩ := ok result answered
  rfl

/-- A refresh token that passes the JWT check was signed for the user it is filed under. -/
theorem Session.claims {original : TokenRecord} (session : Session options original) {now : Nat}
    {payload : TokenPayload} (valid : refreshClaims options now original.token = .ok payload) :
    payload.sub = original.userId := by
  obtain ⟨user, issuedAt, _, named, signed, _⟩ := session
  have made := (refreshClaims_ok valid).1
  rw [signed] at made
  rw [← named, ← (Str.jwt.inj made).2]
  rfl

theorem reach_session {keycloak : κ}
    (reach : (authSystem server platform options).Reach permitted (.start clock (.fresh keycloak)) cfg)
    {original : TokenRecord} (saved : Saved cfg.log original) (typed : original.type = .refreshToken) :
    Session options original := by
  refine reach.invariant (fun _ log => ∀ original, Saved log original → original.type = .refreshToken →
    Session options original) ?_ ?_ ?_ original saved typed
  · intro original noSave
    obtain ⟨entry, member, -⟩ := noSave
    cases member
  · exact fun _ _ _ _ sessions => sessions
  intro cfg p thread call rest choice reach found waiting _ sessions original saved typed
  obtain ⟨entry, member, save⟩ := saved
  rcases List.mem_append.mp member with old | new
  · exact sessions original ⟨entry, old, save⟩ typed
  rw [List.mem_singleton.mp new] at save
  subst save
  have phase := reach_phase reach found
  rw [waiting] at phase
  have logged {entry : LogEntry} (own : entry ∈ cfg.history p) : entry ∈ cfg.log :=
    (System.mem_history.mp own).1
  obtain ⟨issuedAt, filedAt, lifetime, order, ways⟩ := phase.saving_session typed
  have order := order (reach.times_sorted.sublist List.filter_sublist)
  rcases ways with ⟨_, _, result, own, user, token⟩ | ⟨_, tokens, own, user, token⟩ |
    ⟨token', record, t, tokens, looked, own, user, token⟩
  · have same := reach_authenticated reach (logged own)
    exact ⟨result.user, issuedAt, filedAt, user.symm, by rw [token, same]; rfl, order, lifetime⟩
  · obtain ⟨account, named, rfl⟩ := reach_issued reach (logged own)
    exact ⟨account, issuedAt, filedAt, named.trans user.symm, token, order, lifetime⟩
  · obtain ⟨payload, account, valid, named, rfl⟩ := reach_refreshed reach (logged own)
    obtain ⟨before, after, split⟩ := List.append_of_mem (logged looked)
    obtain ⟨earlier, ⟨entry, member, save⟩, ⟨_, rfl⟩, rfl, purpose⟩ := reach_found reach split
    have session := sessions earlier ⟨entry, by rw [split]; simp [member], save⟩ purpose
    exact ⟨account, issuedAt, filedAt, by rw [named, session.claims valid, user], token, order, lifetime⟩

/-- The refresh tokens on the log were signed before now. -/
theorem reach_signed {keycloak : κ}
    (reach : (authSystem server platform options).Reach permitted (.start clock (.fresh keycloak)) cfg)
    {original : TokenRecord} (saved : Saved cfg.log original) (typed : original.type = .refreshToken) :
    ∃ user issuedAt, original.token = (issued options issuedAt user).refreshToken ∧ issuedAt ≤ cfg.clock := by
  obtain ⟨entry, member, save⟩ := saved
  obtain ⟨i, at_entry⟩ := List.mem_iff_getElem?.mp member
  obtain ⟨_, _, phase⟩ := reach_phase_at reach at_entry
  rw [save] at phase
  obtain ⟨issuedAt, _, _, _, ways⟩ := phase.saving_session typed
  have logged {earlier : LogEntry} (own : earlier ∈ (cfg.log.take i).filter (·.request = entry.request)) :
      earlier ∈ cfg.log := List.mem_of_mem_take (System.mem_ownEntries.mp own).1
  rcases ways with ⟨_, _, result, own, _, token⟩ | ⟨_, _, own, _, token⟩ | ⟨_, _, _, _, _, own, _, token⟩
  · have same := reach_authenticated reach (logged own)
    exact ⟨result.user, issuedAt, by rw [token, same]; rfl, reach.time_le _ (logged own)⟩
  · obtain ⟨account, _, rfl⟩ := reach_issued reach (logged own)
    exact ⟨account, issuedAt, token, reach.time_le _ (logged own)⟩
  · obtain ⟨_, account, _, _, rfl⟩ := reach_refreshed reach (logged own)
    exact ⟨account, issuedAt, token, reach.time_le _ (logged own)⟩

/-- Whoever a record is filed for: the user who logged in, the user a link is sent to, or the owner of an
earlier record. -/
theorem Phase.saving_owner {platform : Platform} {options : Deployment} {p : Nat} {request : Request}
    {history : List LogEntry} {record : TokenRecord}
    (phase : Phase platform options p request history (.awaiting (.store (.save record)))) :
    (∃ email password result t, ⟨p, .auth (.authenticate email password), .ok result, t⟩ ∈ history ∧
      record.userId = result.user.id) ∨
    (∃ email user t, ⟨p, .auth (.getUserByEmail email), .ok user, t⟩ ∈ history ∧ record.userId = user.id) ∨
    ∃ token type found t, foundEntry p token type found t ∈ history ∧ record.userId = found.userId := by
  cases request with
  | login email password =>
    cases phase with
    | @challenging before result t => exact .inl ⟨_, _, result, t, by simp, rfl⟩
    | @saving before result t => exact .inl ⟨_, _, result, t, by simp, rfl⟩
  | complete2FA token code =>
    cases phase with | @saving found _ _ t => exact .inr (.inr ⟨token, .preAuth2FA, found, t, by simp, rfl⟩)
  | refresh token =>
    cases phase with | @saving found _ t => exact .inr (.inr ⟨token, .refreshToken, found, t, by simp, rfl⟩)
  | verifyMagicLink token =>
    cases phase with | @saving found _ t => exact .inr (.inr ⟨token, .magicLink, found, t, by simp, rfl⟩)
  | forgotPassword email => cases phase with | @saving user t => exact .inr (.inl ⟨email, user, t, by simp, rfl⟩)
  | sendMagicLink email => cases phase with | @saving user t => exact .inr (.inl ⟨email, user, t, by simp, rfl⟩)
  | resetPassword token newPassword => cases phase
  | logout token => cases phase
  | register email username password => cases phase
  | setup2FA userId => cases phase
  | verify2FA userId code => cases phase

/-- Records are filed for users that Keycloak knows. -/
theorem reach_owner {keycloak : κ}
    (reach : (authSystem server platform options).Reach permitted (.start clock (.fresh keycloak)) cfg)
    {original : TokenRecord} (saved : Saved cfg.log original) : original.userId ≠ "" := by
  refine reach.invariant (fun _ log => ∀ original, Saved log original →
    original.userId ≠ "") ?_ ?_ ?_ original saved
  · intro original noSave
    obtain ⟨entry, member, -⟩ := noSave
    cases member
  · exact fun _ _ _ _ owners => owners
  intro cfg p thread call rest choice reach found waiting _ owners original saved
  obtain ⟨entry, member, save⟩ := saved
  rcases List.mem_append.mp member with old | new
  · exact owners original ⟨entry, old, save⟩
  rw [List.mem_singleton.mp new] at save
  subst save
  have phase := reach_phase reach found
  rw [waiting] at phase
  have logged {entry : LogEntry} (own : entry ∈ cfg.history p) : entry ∈ cfg.log :=
    (System.mem_history.mp own).1
  have listed {state : κ} {email : String} {found : KcUserRepresentation} {others : List KcUserRepresentation}
      {now : Nat} (users : server.usersByEmail state email = .ok (found :: others)) :
      (KeycloakAuthProvider.kcUserToUser found now).id ≠ "" := by
    obtain ⟨id, same, named⟩ := server.usersByEmail_id _ _ _ users found List.mem_cons_self
    simpa [KeycloakAuthProvider.kcUserToUser, same] using named
  rcases phase.saving_owner with ⟨email, password, result, t, own, user⟩ | ⟨email, account, t, own, user⟩ |
    ⟨token, type, record, t, own, user⟩
  · obtain ⟨plan, world, answered⟩ := reach_answered reach (logged own)
    obtain ⟨-, ok⟩ := answerAuth_authenticate server platform options plan t p world email password
    obtain ⟨-, account, others, users, rfl⟩ := ok result answered
    exact user ▸ listed users
  · obtain ⟨plan, world, answered⟩ := reach_answered reach (logged own)
    obtain ⟨-, ok⟩ := getUserByEmail_spec server platform plan t p world email 0
    obtain ⟨account, others, users, rfl⟩ := ok _ answered
    exact user ▸ listed users
  · obtain ⟨before, after, split⟩ := List.append_of_mem (logged own)
    obtain ⟨earlier, ⟨entry, member, save⟩, stems, _⟩ := reach_found reach split
    rw [user, stems.userId_eq]
    exact owners earlier ⟨entry, by rw [split]; simp [member], save⟩

end

end KeycloakAuth
