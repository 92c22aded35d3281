import KeycloakAuth.Enrolment
import KeycloakAuth.Lookup
import KeycloakAuth.PasswordReset

namespace KeycloakAuth
open Async Service LoginUseCase InMemoryTokenStore

/-- The token that a request presents. -/
def Request.presented : Request → Option Str
  | .complete2FA preAuthToken _ => some preAuthToken
  | .refresh refreshToken => some refreshToken
  | .resetPassword token _ => some token
  | .verifyMagicLink token => some token
  | .logout refreshToken => some refreshToken
  | _ => none

/-- The tokens and secrets that a response shows. -/
def Response.shown : Response → List Str
  | .login (.success tokens _) => [tokens.accessToken, tokens.refreshToken]
  | .login (.twoFactorRequired preAuthToken _) => [preAuthToken]
  | .complete2FA tokens _ => [tokens.accessToken, tokens.refreshToken]
  | .refresh tokens => [tokens.accessToken, tokens.refreshToken]
  | .verifyMagicLink tokens => [tokens.accessToken, tokens.refreshToken]
  | .setup2FA setup => [setup.secret]
  | _ => []

/-- Somebody who takes part in a run: the requests it makes, by their numbers, and the mailboxes it reads. -/
structure Reader where
  makes : Nat → Prop
  reads : String → Prop

namespace Reader
variable {κ : Type} (reader : Reader) (options : Deployment)

/-- What the reader can come by: whatever anyone can write down, tokens it signs with secrets of its own, digests,
everything that the store has ever held, the answers to its requests and the links in its mailboxes. -/
inductive Knows (cfg : AuthConfig κ) : Str → Prop
  | lit {text} : Knows cfg (.lit text)
  | failedAttempts {count updatedAt} : Knows cfg (.failedAttempts count updatedAt)
  | isoDate {time} : Knows cfg (.isoDate time)
  | signed {secret payload} (access : secret ≠ options.jwt.accessToken.secret)
      (refresh : secret ≠ options.jwt.refreshToken.secret) : Knows cfg (.jwt secret payload)
  | digest {text} (known : Knows cfg text) : Knows cfg (.sha256 text)
  | storedToken {record} (filed : Saved cfg.log record) : Knows cfg (hashToken record.token)
  | storedId {record} (filed : Saved cfg.log record) : Knows cfg record.id
  | storedSecret {p userId answer t} (drawn : ⟨p, .auth (.setup2FA userId), answer, t⟩ ∈ cfg.log) :
      Knows cfg (.random ⟨p, 0⟩)
  | answered {p thread response text} (own : reader.makes p) (found : cfg.threads[p]? = some thread)
      (returned : thread.state.view = .returned response) (shown : text ∈ response.shown) : Knows cfg text
  | mailed {p template link rendered t mail delivered t'}
      (linked : ⟨p, .render template link, rendered, t⟩ ∈ cfg.log) (sent : ⟨p, .send mail, delivered, t'⟩ ∈ cfg.log)
      (reads : reader.reads mail.recipient) : Knows cfg link.token

/-- The reader's requests present what it knows. -/
def Plays (cfg : AuthConfig κ) : AuthEvent κ → Prop
  | .arrive request => reader.makes cfg.threads.length → ∀ token ∈ request.presented, reader.Knows options cfg token
  | _ => True

/-- The reader has logged in with the password of `userId`. -/
def LoggedIn (log : List LogEntry) (userId : String) : Prop :=
  ∃ p email password result t, reader.makes p ∧ acceptedEntry p email password result t ∈ log ∧
    result.user.id = userId

/-- A link for `userId` was sent to the address that Keycloak has of that user, and the reader reads its mailbox. -/
def Mailed (log : List LogEntry) (type : TokenType) (userId : String) : Prop :=
  ∃ p email user t record saved t' mail delivered t'', ⟨p, .auth (.getUserByEmail email), .ok user, t⟩ ∈ log ∧
    user.id = userId ∧ ⟨p, .store (.save record), saved, t'⟩ ∈ log ∧ record.type = type ∧ record.userId = userId ∧
    ⟨p, .send mail, delivered, t''⟩ ∈ log ∧ mail.recipient = user.email ∧ reader.reads user.email

/-- How the reader can rightly come by a token of that type for `userId`. -/
def Entitled (log : List LogEntry) : TokenType → String → Prop
  | .magicLink, userId => reader.Mailed log .magicLink userId
  | .resetPassword, userId => reader.Mailed log .resetPassword userId
  | .preAuth2FA, userId => reader.LoggedIn log userId
  | .refreshToken, userId => reader.LoggedIn log userId ∨ reader.Mailed log .magicLink userId
  | .verifyEmail, _ => False

/-- What the reader's requests get and do is about users whose password or mailbox it has. -/
structure Confined (cfg : AuthConfig κ) : Prop where
  sessions : ∀ p thread response tokens, reader.makes p → cfg.threads[p]? = some thread →
    thread.state.view = .returned response → response.session = some tokens →
    ∃ userId, tokens.accessToken.subject = some userId ∧ tokens.refreshToken.subject = some userId ∧
      (reader.LoggedIn cfg.log userId ∨ reader.Mailed cfg.log .magicLink userId)
  passwords : ∀ p userId password answer t, reader.makes p →
    ⟨p, .auth (.completePasswordReset userId password), answer, t⟩ ∈ cfg.log →
      reader.Mailed cfg.log .resetPassword userId
  taken : ∀ p id answer t original, reader.makes p → ⟨p, .store (.markConsumed id), answer, t⟩ ∈ cfg.log →
    Saved cfg.log original → original.id = id → reader.Entitled cfg.log original.type original.userId
  wiped : ∀ p userId answer t, reader.makes p → ⟨p, .store (.deleteAllForUser userId), answer, t⟩ ∈ cfg.log →
    ∃ type, reader.Entitled cfg.log type userId

variable {reader options} {log longer : List LogEntry} {type : TokenType} {userId : String}

theorem LoggedIn.mono (logged : reader.LoggedIn log userId)
    (sub : log ⊆ longer) : reader.LoggedIn longer userId := by
  obtain ⟨p, email, password, result, t, own, accepted, named⟩ := logged
  exact ⟨p, email, password, result, t, own, sub accepted, named⟩

theorem Mailed.mono (mailed : reader.Mailed log type userId) (sub : log ⊆ longer) :
    reader.Mailed longer type userId := by
  obtain ⟨p, email, user, t, record, saved, t', mail, delivered, t'', looked, named, filed, typed, theirs, sent,
    address, reads⟩ := mailed
  exact ⟨p, email, user, t, record, saved, t', mail, delivered, t'', sub looked, named, sub filed, typed, theirs,
    sub sent, address, reads⟩

theorem Entitled.mono (entitled : reader.Entitled log type userId) (sub : log ⊆ longer) :
    reader.Entitled longer type userId := by
  cases type with
  | magicLink => exact Mailed.mono entitled sub
  | resetPassword => exact Mailed.mono entitled sub
  | preAuth2FA => exact LoggedIn.mono entitled sub
  | refreshToken => exact entitled.imp (LoggedIn.mono · sub) (Mailed.mono · sub)
  | verifyEmail => exact entitled

end Reader

/-- Nothing is rendered or mailed next. -/
def Unposted : ServiceView → Prop
  | .awaiting (.render _ _) => False
  | .awaiting (.send _) => False
  | _ => True

/-- Only the two requests that send a link have anything rendered or mailed. -/
def Posting (options : Deployment) (p : Nat) : Request → List LogEntry → ServiceView → Prop
  | .forgotPassword email =>
    MailPhase p .resetPassword (60 * 60 * 1000) (options.baseUrl ++ "/reset-password?token=") email
  | .sendMagicLink email => MailPhase p .magicLink (15 * 60 * 1000) (options.baseUrl ++ "/magic-link?token=") email
  | _ => fun _ view => Unposted view

theorem posting_along (platform : Platform) (options : Deployment) (p now : Nat) (request : Request) :
    (request.body platform options).Along (Posting options p request) p now 0 [] := by
  have phase := phase_along platform options p now request
  cases request with
  | forgotPassword email => exact sendLink_mails ..
  | sendMagicLink email => exact sendLink_mails ..
  | register email username password => exact phase.mono fun _ _ phase => by cases phase <;> trivial
  | login email password => exact phase.mono fun _ _ phase => by cases phase <;> trivial
  | complete2FA token code => exact phase.mono fun _ _ phase => by cases phase <;> trivial
  | refresh token => exact phase.mono fun _ _ phase => by cases phase <;> trivial
  | resetPassword token newPassword => exact phase.mono fun _ _ phase => by cases phase <;> trivial
  | verifyMagicLink token => exact phase.mono fun _ _ phase => by cases phase <;> trivial
  | setup2FA userId => exact phase.mono fun _ _ phase => by cases phase <;> trivial
  | verify2FA userId code => exact phase.mono fun _ _ phase => by cases phase <;> trivial
  | logout token => exact phase.mono fun _ _ phase => by cases phase <;> trivial

/-- What holds of every view but the last is only to be shown of the last part of a program. -/
theorem bind_along {α β : Type} {Φ : List LogEntry → View Call Thrown β → Prop} {p now drawn : Nat}
    {history : List LogEntry} {body : Service α} {next : α → Service β}
    (awaiting : ∀ history call, Φ history (.awaiting call)) (threw : ∀ history error, Φ history (.threw error))
    (goes_on : ∀ value now drawn history, (next value).Along Φ p now drawn history) :
    (body.bind next).Along Φ p now drawn history := by
  induction body generalizing now drawn history with
  | done value => exact goes_on value now drawn history
  | fail error => exact threw history error
  | clock rest ih => exact ih now
  | draw rest ih => exact ih ⟨p, drawn⟩
  | await call rest ih => exact ⟨awaiting history call, fun answer later _ => ih answer⟩

/-- The secret of a challenge is drawn by the login that is challenged, that of an enrolment by the provider. -/
def Handed (p : Nat) (request : Request) (history : List LogEntry) : ServiceView → Prop
  | .returned (.login (.twoFactorRequired preAuthToken _)) =>
    (∃ email password, request = .login email password) ∧ ∃ index, preAuthToken = .random ⟨p, index⟩
  | .returned (.setup2FA setup) => ∃ userId t, ⟨p, .auth (.setup2FA userId), .ok setup, t⟩ ∈ history
  | _ => True

theorem handed_along (platform : Platform) (options : Deployment) (p now : Nat) (request : Request) :
    (request.body platform options).Along (Handed p request) p now 0 [] := by
  have last {α : Type} {body : Service α} {wrap : α → Response} (plain : ∀ value history, Handed p request history
      (.returned (wrap value))) :
      (body.bind fun value => Program.done (wrap value)).Along (Handed p request) p now 0 [] :=
    bind_along (fun _ _ => trivial) (fun _ _ => trivial) fun value _ _ history => plain value history
  cases request with
  | login email password =>
    simp only [Request.body, execute, Program.bind_eq, Program.bind_assoc]
    refine bind_along (fun _ _ => trivial) (fun _ _ => trivial) fun _ _ _ _ => ?_
    refine bind_along (fun _ _ => trivial) (fun _ _ => trivial) fun result _ _ _ => ?_
    simp only [issue, randomHex, Program.bind_eq, Program.bind_assoc]
    refine bind_along (fun _ _ => trivial) (fun _ _ => trivial) fun _ _ _ _ => ?_
    refine bind_along (fun _ _ => trivial) (fun _ _ => trivial) fun _ _ _ _ => ?_
    refine bind_along (fun _ _ => trivial) (fun _ _ => trivial) fun secret _ drawn _ => ?_
    split
    · simp only [Program.bind_assoc, Program.pure_eq, Program.done_bind]
      refine .random ?_
      exact bind_along (fun _ _ => trivial) (fun _ _ => trivial) fun _ _ _ _ => ⟨⟨email, password, rfl⟩, drawn, rfl⟩
    · simp only [Program.bind_assoc, Program.pure_eq, Program.done_bind]
      exact bind_along (fun _ _ => trivial) (fun _ _ => trivial) fun _ _ _ _ => trivial
  | setup2FA userId =>
    exact .perform trivial (fun setup t _ => ⟨userId, t, List.mem_append_right _ (List.mem_singleton_self _)⟩)
      fun _ _ => trivial
  | register email username password => exact last fun _ _ => trivial
  | complete2FA token code => exact last fun _ _ => trivial
  | refresh token => exact last fun _ _ => trivial
  | forgotPassword email => exact last fun _ _ => trivial
  | resetPassword token newPassword => exact last fun _ _ => trivial
  | sendMagicLink email => exact last fun _ _ => trivial
  | verifyMagicLink token => exact last fun _ _ => trivial
  | verify2FA userId code => exact last fun _ _ => trivial
  | logout token => exact last fun _ _ => trivial

/-- A request looks up the token that it presents. -/
theorem Phase.looking {platform : Platform} {options : Deployment} {p : Nat} {request : Request}
    {history : List LogEntry} {token : Str} {type : TokenType}
    (phase : Phase platform options p request history (.awaiting (.store (.findByToken token type)))) :
    token ∈ request.presented := by
  cases request <;> cases phase <;> rfl

section
variable {κ : Type} {server : KeycloakServer κ} {platform : Platform} {options : Deployment}
  {permitted : AuthConfig κ → AuthEvent κ → Prop} {clock : Nat} {keycloak : κ} {cfg : AuthConfig κ}

/-- A token other than a refresh token was drawn by the request that has filed it. -/
theorem reach_drawn (reach : (authSystem server platform options).Reach permitted
    (.start clock (.fresh keycloak)) cfg)
    {original : TokenRecord} (saved : Saved cfg.log original) (typed : original.type ≠ .refreshToken) :
    ∃ p thread history, original.token = .random ⟨p, 0⟩ ∧ original.id = .random ⟨p, 1⟩ ∧
      cfg.threads[p]? = some thread ∧ history ⊆ cfg.log ∧
      Phase platform options p thread.request history (.awaiting (.store (.save original))) := by
  obtain ⟨entry, member, save⟩ := saved
  obtain ⟨i, at_entry⟩ := List.mem_iff_getElem?.mp member
  obtain ⟨thread, found, phase⟩ := reach_phase_at reach at_entry
  rw [save] at phase
  obtain ⟨token, id⟩ := phase.saving_drawn typed
  exact ⟨entry.request, thread, _, token, id, found,
    fun entry own => List.mem_of_mem_take (System.mem_ownEntries.mp own).1, phase⟩

/-- A refresh token is a token for the user it is filed under. -/
theorem reach_filed_jwt
    (reach : (authSystem server platform options).Reach permitted (.start clock (.fresh keycloak)) cfg)
    {original : TokenRecord} (saved : Saved cfg.log original) (typed : original.type = .refreshToken) :
    ∃ payload, original.token = .jwt options.jwt.refreshToken.secret payload ∧ payload.sub = original.userId := by
  obtain ⟨user, issuedAt, _, named, token, _⟩ := reach_session reach saved typed
  exact ⟨_, token, named⟩

/-- What has a subject can only be on file as a refresh token of that user. -/
theorem reach_filed_subject
    (reach : (authSystem server platform options).Reach permitted (.start clock (.fresh keycloak)) cfg)
    {original : TokenRecord} (saved : Saved cfg.log original) {userId : String}
    (subject : original.token.subject = some userId) : original.type = .refreshToken ∧
      original.userId = userId := by
  by_cases typed : original.type = .refreshToken
  · obtain ⟨payload, token, named⟩ := reach_filed_jwt reach saved typed
    rw [token] at subject
    exact ⟨typed, named.symm.trans (Option.some.inj subject)⟩
  · obtain ⟨p, _, _, token, _⟩ := reach_drawn reach saved typed
    rw [token] at subject
    cases subject

/-- What was drawn by `p` can only be on file as a token that `p` has filed. -/
theorem reach_filed_random
    (reach : (authSystem server platform options).Reach permitted (.start clock (.fresh keycloak)) cfg)
    {original : TokenRecord} (saved : Saved cfg.log original) {p index : Nat}
    (token : original.token = .random ⟨p, index⟩) :
    index = 0 ∧ original.type ≠ .refreshToken ∧ ∃ thread history,
      cfg.threads[p]? = some thread ∧ history ⊆ cfg.log ∧
      Phase platform options p thread.request history (.awaiting (.store (.save original))) := by
  by_cases typed : original.type = .refreshToken
  · obtain ⟨payload, signed, _⟩ := reach_filed_jwt reach saved typed
    cases token.symm.trans signed
  · obtain ⟨q, thread, history, drawn, _, found, sub, phase⟩ := reach_drawn reach saved typed
    cases token.symm.trans drawn
    exact ⟨rfl, typed, thread, history, found, sub, phase⟩

/-- A request files one record, so the ids it draws are no tokens. -/
theorem reach_id_not_token
    (reach : (authSystem server platform options).Reach permitted (.start clock (.fresh keycloak)) cfg)
    {record original : TokenRecord} (filed : Saved cfg.log record) (saved : Saved cfg.log original) :
    original.token ≠ record.id := by
  intro same
  obtain ⟨⟨first, member, save⟩, ⟨second, member', save'⟩⟩ := And.intro filed saved
  obtain ⟨⟨index, id⟩, _⟩ := reach_saved_id reach member save
  obtain ⟨rfl, typed, _⟩ := reach_filed_random reach saved (same.trans id)
  obtain ⟨p, _, _, token, drawn, _⟩ := reach_drawn reach saved typed
  cases (same.trans id).symm.trans token
  obtain ⟨⟨_, named⟩, _⟩ := reach_saved_id reach member' save'
  have own : second.request = first.request := congrArg Nonce.request (Str.random.inj (named.symm.trans drawn))
  obtain ⟨i, at_first⟩ := List.mem_iff_getElem?.mp member
  obtain ⟨j, at_second⟩ := List.mem_iff_getElem?.mp member'
  rcases Nat.lt_trichotomy i j with less | equal | more
  · obtain ⟨_, _, phase⟩ := reach_phase_at reach at_second
    rw [save'] at phase
    exact phase.saving.2.2 first (System.mem_ownEntries.mpr
      ⟨System.mem_take.mpr ⟨i, less, at_first⟩, own.symm⟩) _ save
  · subst equal
    cases Option.some.inj (at_first.symm.trans at_second)
    have same : record = original := by simpa only [save, Call.store.injEq, StoreCall.save.injEq] using save'
    rw [same, drawn] at id
    simp at id
  · obtain ⟨_, _, phase⟩ := reach_phase_at reach at_first
    rw [save] at phase
    exact phase.saving.2.2 second (System.mem_ownEntries.mpr
      ⟨System.mem_take.mpr ⟨j, more, at_second⟩, own⟩) _ save'

theorem Phase.enrolling {p : Nat} {request : Request} {history : List LogEntry} {userId : String}
    (phase : Phase platform options p request history (.awaiting (.auth (.setup2FA userId)))) :
    ∀ earlier record, ¬ Phase platform options p request earlier (.awaiting (.store (.save record))) := by
  intro earlier record filing
  cases request <;> cases phase <;> cases filing

/-- An enrolment files nothing. -/
theorem reach_secret_not_token
    (reach : (authSystem server platform options).Reach permitted (.start clock (.fresh keycloak)) cfg) {p t : Nat}
    {userId : String} {answer : Except Thrown Setup2FAResponse}
    (drawn : ⟨p, .auth (.setup2FA userId), answer, t⟩ ∈ cfg.log) {original : TokenRecord}
    (saved : Saved cfg.log original) (index : Nat) : original.token ≠ .random ⟨p, index⟩ := by
  intro token
  obtain ⟨_, _, thread, history, found, _, filing⟩ := reach_filed_random reach saved token
  obtain ⟨i, at_entry⟩ := List.mem_iff_getElem?.mp drawn
  obtain ⟨other, found', phase⟩ := reach_phase_at reach at_entry
  cases Option.some.inj (found.symm.trans found')
  exact phase.enrolling _ _ filing

/-- The provider answers an enrolment with the first value that the request has drawn. -/
theorem reach_enrolled
    (reach : (authSystem server platform options).Reach permitted (.start clock (.fresh keycloak)) cfg) {p t : Nat}
    {userId : String} {setup : Setup2FAResponse} (drawn : ⟨p, .auth (.setup2FA userId), .ok setup, t⟩ ∈ cfg.log) :
    setup.secret = .random ⟨p, 0⟩ := by
  obtain ⟨plan, world, answered⟩ := reach_answered reach drawn
  simp only [answerCall, answerAuth, evalMethod, KeycloakAuthProvider.setup2FA, KeycloakAuthProvider.perform,
    Program.bind_eq, Program.eval_bind, Program.eval_perform, Outcome.andThen, answerProvider] at answered
  split at answered
  · cases answered
  · rw [Program.eval_random_bind] at answered
    simp only [Program.eval_bind, Program.eval_perform, Outcome.andThen, answerProvider] at answered
    generalize plan.toDataURL = url at answered
    cases url with
    | error error => cases answered
    | ok url =>
      cases answered
      rfl

theorem reach_posting_at
    (reach : (authSystem server platform options).Reach permitted (.start clock (.fresh keycloak)) cfg)
    {p t : Nat} {call : Call} {answer : Except Thrown call.Ans} (member : ⟨p, call, answer, t⟩ ∈ cfg.log) :
    ∃ request history, history ⊆ cfg.log ∧ Posting options p request history (.awaiting call) := by
  obtain ⟨before, after, split⟩ := List.append_of_mem member
  obtain ⟨thread, _, posting⟩ := reach.justified (fun request before entry => Posting options entry.request request
    (before.filter (·.request = entry.request)) (.awaiting entry.call)) (by
      intro cfg p thread call rest choice reach found waiting _
      have posting := reach.view (fun p request now => posting_along platform options p now request) found
      rw [waiting] at posting
      exact posting) split
  refine ⟨thread.request, _, fun own inHistory => ?_, posting⟩
  rw [split]
  exact List.mem_append_left _ (System.mem_ownEntries.mp inHistory).1

/-- A link that is rendered carries the token that the request has drawn. -/
theorem reach_rendered
    (reach : (authSystem server platform options).Reach permitted (.start clock (.fresh keycloak)) cfg) {p t : Nat}
    {template : EmailTemplate} {link : EmailLink} {answer : Except Thrown RenderedEmail}
    (rendered : ⟨p, .render template link, answer, t⟩ ∈ cfg.log) : link.token = .random ⟨p, 0⟩ := by
  obtain ⟨request, history, _, posting⟩ := reach_posting_at reach rendered
  cases request with
  | forgotPassword email => cases posting with | rendering => rfl
  | sendMagicLink email => cases posting with | rendering => rfl
  | _ => exact posting.elim

/-- A mail goes to the address of the user whose link it brings. -/
theorem reach_sent (reach : (authSystem server platform options).Reach permitted
    (.start clock (.fresh keycloak)) cfg)
    {p t : Nat} {mail : SendEmailRequest} {answer : Except Thrown Unit}
    (sent : ⟨p, .send mail, answer, t⟩ ∈ cfg.log) :
    ∃ email user t record saved t', ⟨p, .auth (.getUserByEmail email), .ok user, t⟩ ∈ cfg.log ∧
      ⟨p, .store (.save record), saved, t'⟩ ∈ cfg.log ∧ mail.recipient = user.email ∧ record.userId = user.id ∧
      record.token = .random ⟨p, 0⟩ ∧ (record.type = .resetPassword ∨ record.type = .magicLink) := by
  obtain ⟨request, history, sub, posting⟩ := reach_posting_at reach sent
  cases request with
  | forgotPassword email =>
    cases posting with
    | @sending user now t template rendered t' =>
      exact ⟨email, user, now, _, _, t, sub (by simp), sub
        (List.mem_cons_of_mem _ List.mem_cons_self), rfl, rfl, rfl,
        .inl rfl⟩
  | sendMagicLink email =>
    cases posting with
    | @sending user now t template rendered t' =>
      exact ⟨email, user, now, _, _, t, sub (by simp), sub
        (List.mem_cons_of_mem _ List.mem_cons_self), rfl, rfl, rfl,
        .inr rfl⟩
  | _ => exact posting.elim

/-- A value of the user data that is no second factor is a lock or a counter. -/
theorem Phase.saving_data {p : Nat} {request : Request} {history : List LogEntry}
    {userId key : String} {value : Str}
    (phase : Phase platform options p request history (.awaiting (.store (.saveUserData userId key value)))) :
    (∃ count updatedAt, value = .failedAttempts count updatedAt) ∨ ∃ time, value = .isoDate time := by
  cases request with
  | login email password =>
    cases phase with
    | recording => exact .inl ⟨_, _, rfl⟩
    | locking => exact .inr ⟨_, rfl⟩
  | _ => cases phase

namespace Reader
variable {reader : Reader}

/-- The reader forgets nothing. -/
theorem Knows.next {event : AuthEvent κ} {next : AuthConfig κ} {text : Str} (known : reader.Knows options cfg text)
    (step : (authSystem server platform options).advance cfg event = some next) :
      reader.Knows options next text := by
  have sub := (System.advance_log step).subset
  have after : (authSystem server platform options).Reach anyEvent cfg next := .next .start trivial step
  induction known with
  | lit => exact .lit
  | failedAttempts => exact .failedAttempts
  | isoDate => exact .isoDate
  | signed access refresh => exact .signed access refresh
  | digest _ ih => exact .digest ih
  | storedToken filed => exact .storedToken (filed.mono sub)
  | storedId filed => exact .storedId (filed.mono sub)
  | storedSecret drawn => exact .storedSecret (sub drawn)
  | @answered p thread response text own found returned shown =>
    have ended : thread.state.finished = true := by
      cases stands : thread.state with
      | returned value => rfl
      | threw error => rfl
      | awaiting call rest =>
        rw [stands] at returned
        cases returned
    exact .answered own (after.finished_kept found ended) returned shown
  | mailed linked sent reads => exact .mailed (sub linked) (sub sent) reads

/-- Whatever the reader's requests have presented, it knows. -/
theorem reach_presented
    (reach : (authSystem server platform options).Reach (reader.Plays options) (.start clock (.fresh keycloak)) cfg)
    {p : Nat} {thread : Thread Call.Ans Thrown Request Response} {token : Str} (own : reader.makes p)
    (found : cfg.threads[p]? = some thread) (presented : token ∈ thread.request.presented) :
    reader.Knows options cfg token := by
  induction reach generalizing thread with
  | start => cases found
  | @next before after event previous allowed step ih =>
    rcases System.advance_cases step with ⟨_, _, rfl⟩ | ⟨_, _, rfl⟩ | ⟨request, rfl, rfl⟩ |
      ⟨active, choice, running, call, rest, rfl, at_active, waiting, rfl⟩
    · exact (ih found presented).next step
    · exact (ih found presented).next step
    · simp only [System.arrive, List.getElem?_append] at found
      split at found
      · exact (ih found presented).next step
      · rename_i beyond
        have bound := (List.getElem?_eq_some_iff.mp found).1
        simp only [List.length_singleton] at bound
        obtain rfl : p = before.threads.length := by omega
        simp only [Nat.sub_self, List.getElem?_cons_zero, Option.some.injEq] at found
        subst found
        exact (allowed own token presented).next step
    · by_cases same : active = p
      · subst same
        cases Option.some.inj ((List.getElem?_set_self (List.getElem?_eq_some_iff.mp at_active).1).symm.trans found)
        exact (ih at_active presented).next step
      · exact (ih ((List.getElem?_set_ne same).symm.trans found) presented).next step

/-- The reader has looked up tokens only of users it is entitled to. -/
def LooksUp (reader : Reader) (cfg : AuthConfig κ) : Prop := ∀ p token type record t, reader.makes p →
  foundEntry p token type record t ∈ cfg.log → reader.Entitled cfg.log type record.userId

/-- The sessions that the reader's requests get are of users it is entitled to. -/
theorem LooksUp.sessions (looksUp : reader.LooksUp cfg)
    (reach : (authSystem server platform options).Reach permitted (.start clock (.fresh keycloak)) cfg) {p : Nat}
    {thread : Thread Call.Ans Thrown Request Response} {response : Response} {tokens : SessionResponse}
    (own : reader.makes p) (found : cfg.threads[p]? = some thread)
    (returned : thread.state.view = .returned response)
    (session : response.session = some tokens) :
    ∃ userId, tokens.accessToken.subject = some userId ∧ tokens.refreshToken.subject = some userId ∧
      reader.Entitled cfg.log .refreshToken userId := by
  have logged {entry : LogEntry} (inHistory : entry ∈ cfg.history p) : entry ∈ cfg.log :=
    (System.mem_history.mp inHistory).1
  have phase := reach_phase reach found
  rw [returned] at phase
  generalize cfg.history p = history at phase logged
  cases request : thread.request with
  | login email password =>
    rw [request] at phase
    cases phase with
    | challenged => cases session
    | @returned before result t t' t'' secret now saved passed notEnrolled =>
      cases session
      have accepted : acceptedEntry p (normalize platform email) password result t ∈ cfg.log := logged (by simp)
      have same := reach_authenticated reach accepted
      refine ⟨result.user.id, ?_, ?_, .inl ⟨p, _, _, result, t, own, accepted, rfl⟩⟩ <;> rw [same] <;> rfl
  | complete2FA token code =>
    rw [request] at phase
    cases phase with
    | @returned record user issued t t' t'' t''' now saved =>
      cases session
      obtain ⟨account, named, rfl⟩ := reach_issued reach (logged (by simp) : ⟨p, _, .ok issued, now⟩ ∈ cfg.log)
      exact ⟨record.userId, congrArg some named, congrArg some named,
        .inl (looksUp p token .preAuth2FA record t own (logged List.mem_cons_self))⟩
  | verifyMagicLink token =>
    rw [request] at phase
    cases phase with
    | @returned record issued t t' now saved =>
      cases session
      obtain ⟨account, named, rfl⟩ := reach_issued reach (logged (by simp) : ⟨p, _, .ok issued, now⟩ ∈ cfg.log)
      exact ⟨record.userId, congrArg some named, congrArg some named,
        .inr (looksUp p token .magicLink record t own (logged List.mem_cons_self))⟩
  | refresh token =>
    rw [request] at phase
    cases phase with
    | @returned record issued t t' now saved =>
      cases session
      obtain ⟨payload, account, valid, named, rfl⟩ :=
        reach_refreshed reach (logged (by simp) : ⟨p, .auth (.refreshToken token), .ok issued, now⟩ ∈ cfg.log)
      have looked : foundEntry p token .refreshToken record t ∈ cfg.log := logged List.mem_cons_self
      obtain ⟨before, after, split⟩ := List.append_of_mem looked
      obtain ⟨original, saved, stems, rfl, typed⟩ := reach_found reach split
      have filed : Saved cfg.log original := saved.mono (split ▸ List.subset_append_left ..)
      have subject := (reach_session reach filed typed).claims valid
      refine ⟨record.userId, ?_, ?_, looksUp p _ .refreshToken record t own looked⟩ <;>
        exact congrArg some (named.trans (subject.trans stems.userId_eq.symm))
  | forgotPassword email => rw [request] at phase; cases phase with | returned => cases session
  | sendMagicLink email => rw [request] at phase; cases phase with | returned => cases session
  | resetPassword token newPassword => rw [request] at phase; cases phase with | returned => cases session
  | logout token => rw [request] at phase; cases phase with | returned => cases session
  | register email username password =>
    rw [request] at phase
    cases phase with | returned plain => cases plain.symm.trans session
  | setup2FA userId =>
    rw [request] at phase
    cases phase with | returned plain => cases plain.symm.trans session
  | verify2FA userId code =>
    rw [request] at phase
    cases phase with | returned plain => cases plain.symm.trans session

/-- A session that the reader has got is on file only as a token of a user it is entitled to. -/
theorem LooksUp.of_session (looksUp : reader.LooksUp cfg)
    (reach : (authSystem server platform options).Reach permitted (.start clock (.fresh keycloak)) cfg) {p : Nat}
    {thread : Thread Call.Ans Thrown Request Response} {response : Response} {tokens : SessionResponse}
    (own : reader.makes p) (found : cfg.threads[p]? = some thread)
    (returned : thread.state.view = .returned response)
    (session : response.session = some tokens) {original : TokenRecord} (saved : Saved cfg.log original)
    (shown : original.token = tokens.accessToken ∨ original.token = tokens.refreshToken) :
    reader.Entitled cfg.log original.type original.userId := by
  obtain ⟨userId, access, refresh, entitled⟩ := looksUp.sessions reach own found returned session
  have subject : original.token.subject = some userId := by
    rcases shown with same | same
    · exact same ▸ access
    · exact same ▸ refresh
  obtain ⟨typed, named⟩ := reach_filed_subject reach saved subject
  exact typed ▸ named ▸ entitled

/-- The secret of a challenge is on file as the challenge of the user who has given the password. -/
theorem entitled_of_challenge
    (reach : (authSystem server platform options).Reach permitted (.start clock (.fresh keycloak)) cfg) {p : Nat}
    {thread : Thread Call.Ans Thrown Request Response} {preAuthToken : Str} {expiresIn : Nat} (own : reader.makes p)
    (found : cfg.threads[p]? = some thread)
    (returned : thread.state.view = .returned (.login (.twoFactorRequired preAuthToken expiresIn)))
    {original : TokenRecord} (saved : Saved cfg.log original) (same : original.token = preAuthToken) :
    reader.Entitled cfg.log original.type original.userId := by
  have handed := reach.view (fun p request now => handed_along platform options p now request) found
  rw [returned] at handed
  obtain ⟨⟨email, password, request⟩, index, drawn⟩ := handed
  obtain ⟨_, typed, other, history, found', sub, filing⟩ := reach_filed_random reach saved (same.trans drawn)
  cases Option.some.inj (found.symm.trans found')
  rw [request] at filing
  cases filing with
  | @challenging before result t =>
    exact ⟨p, normalize platform email, password, result, t, own, sub (by simp), rfl⟩
  | saving => exact absurd rfl typed

/-- The secret of an enrolment is on file as no token. -/
theorem not_filed_of_setup
    (reach : (authSystem server platform options).Reach permitted (.start clock (.fresh keycloak)) cfg) {p : Nat}
    {thread : Thread Call.Ans Thrown Request Response} {setup : Setup2FAResponse}
    (found : cfg.threads[p]? = some thread) (returned : thread.state.view = .returned (.setup2FA setup))
    {original : TokenRecord} (saved : Saved cfg.log original) : original.token ≠ setup.secret := by
  have handed := reach.view (fun p request now => handed_along platform options p now request) found
  rw [returned] at handed
  obtain ⟨userId, t, drawn⟩ := handed
  have drawn := (System.mem_history.mp drawn).1
  rw [reach_enrolled reach drawn]
  exact reach_secret_not_token reach drawn saved 0

/-- The token of a link in a mailbox of the reader is on file as a token for the owner of the mailbox. -/
theorem entitled_of_mail
    (reach : (authSystem server platform options).Reach permitted (.start clock (.fresh keycloak)) cfg) {p : Nat}
    {template : EmailTemplate} {link : EmailLink} {rendered : Except Thrown RenderedEmail} {t t' : Nat}
    {mail : SendEmailRequest} {delivered : Except Thrown Unit}
    (linked : ⟨p, .render template link, rendered, t⟩ ∈ cfg.log) (sent : ⟨p, .send mail, delivered, t'⟩ ∈ cfg.log)
    (reads : reader.reads mail.recipient) {original : TokenRecord} (saved : Saved cfg.log original)
    (same : original.token = link.token) : reader.Entitled cfg.log original.type original.userId := by
  obtain ⟨email, user, looked, record, stored, filedAt, asked, filed, address, owner, token, purpose⟩ :=
    reach_sent reach sent
  have drawn := reach_rendered reach linked
  have typed : original.type ≠ .refreshToken := (reach_filed_random reach saved (same.trans drawn)).2.1
  have theirs : record.type ≠ .refreshToken := by rcases purpose with typed | typed <;> rw [typed] <;> decide
  obtain rfl := reach_drawn_eq reach saved ⟨_, filed, rfl⟩ typed theirs (same.trans (drawn.trans token.symm))
  have mailed (type : TokenType) (typed : original.type = type) : reader.Mailed cfg.log type original.userId :=
    ⟨p, email, user, looked, original, stored, filedAt, mail, delivered, t', asked, owner.symm, filed, typed, rfl,
      sent, address, address ▸ reads⟩
  rcases purpose with typed | typed
  · rw [typed]
    exact mailed _ typed
  · rw [typed]
    exact mailed _ typed

/-- What an answer to the reader shows is on file only as a token of a user it is entitled to. -/
theorem LooksUp.of_answer (looksUp : reader.LooksUp cfg)
    (reach : (authSystem server platform options).Reach permitted (.start clock (.fresh keycloak)) cfg) {p : Nat}
    {thread : Thread Call.Ans Thrown Request Response} {response : Response} (own : reader.makes p)
    (found : cfg.threads[p]? = some thread) (returned : thread.state.view = .returned response)
    {original : TokenRecord} (saved : Saved cfg.log original) (shown : original.token ∈ response.shown) :
    reader.Entitled cfg.log original.type original.userId := by
  have session (tokens : SessionResponse) (hands : response.session = some tokens)
      (one : original.token ∈ [tokens.accessToken, tokens.refreshToken]) :
      reader.Entitled cfg.log original.type original.userId :=
    looksUp.of_session reach own found returned hands saved (by simpa using one)
  cases response with
  | login result =>
    cases result with
    | success tokens user => exact session tokens rfl shown
    | twoFactorRequired preAuthToken expiresIn =>
      exact entitled_of_challenge reach own found returned saved (List.mem_singleton.mp shown)
  | setup2FA setup => exact absurd (List.mem_singleton.mp shown) (not_filed_of_setup reach found returned saved)
  | complete2FA tokens user => exact session tokens rfl shown
  | refresh tokens => exact session tokens rfl shown
  | verifyMagicLink tokens => exact session tokens rfl shown
  | registered => cases shown
  | linkSent => cases shown
  | passwordReset => cases shown
  | verified => cases shown
  | loggedOut => cases shown

/-- What the reader knows is on file only as a token of a user it is entitled to. -/
theorem LooksUp.guarded (looksUp : reader.LooksUp cfg)
    (reach : (authSystem server platform options).Reach permitted (.start clock (.fresh keycloak)) cfg) {text : Str}
    (known : reader.Knows options cfg text) {original : TokenRecord} (saved : Saved cfg.log original)
    (same : original.token = text) : reader.Entitled cfg.log original.type original.userId := by
  have made : (∃ p, original.token = .random ⟨p, 0⟩) ∨
      ∃ payload, original.token = .jwt options.jwt.refreshToken.secret payload := by
    by_cases typed : original.type = .refreshToken
    · obtain ⟨payload, token, _⟩ := reach_filed_jwt reach saved typed
      exact .inr ⟨payload, token⟩
    · obtain ⟨p, _, _, token, _⟩ := reach_drawn reach saved typed
      exact .inl ⟨p, token⟩
  cases known with
  | lit => rcases made with ⟨_, token⟩ | ⟨_, token⟩ <;> cases same.symm.trans token
  | failedAttempts => rcases made with ⟨_, token⟩ | ⟨_, token⟩ <;> cases same.symm.trans token
  | isoDate => rcases made with ⟨_, token⟩ | ⟨_, token⟩ <;> cases same.symm.trans token
  | digest => rcases made with ⟨_, token⟩ | ⟨_, token⟩ <;> cases same.symm.trans token
  | storedToken => rcases made with ⟨_, token⟩ | ⟨_, token⟩ <;> cases same.symm.trans token
  | signed access refresh =>
    rcases made with ⟨_, token⟩ | ⟨_, token⟩
    · cases same.symm.trans token
    · exact absurd (Str.jwt.inj (same.symm.trans token)).1 refresh
  | storedId filed => exact absurd same (reach_id_not_token reach filed saved)
  | storedSecret drawn => exact absurd same (reach_secret_not_token reach drawn saved 0)
  | mailed linked sent reads => exact entitled_of_mail reach linked sent reads saved same
  | answered own found returned shown => exact looksUp.of_answer reach own found returned saved (same ▸ shown)

/-- The invariant of the run: a token that the reader presents is found only if the reader is entitled to it. -/
theorem reach_looksUp
    (reach : (authSystem server platform options).Reach (reader.Plays options)
      (.start clock (.fresh keycloak)) cfg) :
    reader.LooksUp cfg := by
  induction reach with
  | start => intro p token type record t _ member; cases member
  | @next before after event previous allowed step ih =>
    intro p token type record t own member
    have sub := (System.advance_log step).subset
    rcases System.advance_cases step with ⟨_, _, rfl⟩ | ⟨_, _, rfl⟩ | ⟨_, rfl, rfl⟩ |
      ⟨active, choice, thread, call, rest, rfl, found, waiting, rfl⟩
    · exact ih p token type record t own member
    · exact ih p token type record t own member
    · exact ih p token type record t own member
    · rcases List.mem_append.mp member with old | new
      · exact (ih p token type record t own old).mono sub
      · have split := congrArg (before.log ++ [·]) (List.mem_singleton.mp new).symm
        obtain ⟨rfl, rfl, _⟩ := Entry.mk.inj (List.mem_singleton.mp new)
        have phase := reach_phase previous found
        rw [waiting] at phase
        have known := reach_presented previous own found phase.looking
        obtain ⟨original, saved, stems, same, typed⟩ := reach_found (previous.next allowed step) split
        have entitled := (LooksUp.guarded ih previous known saved same).mono sub
        rw [typed] at entitled
        rw [stems.userId_eq]
        exact entitled

end Reader

/-- The records that a request wipes are those of the user whose token it has looked up. -/
theorem Phase.wiping_found {p : Nat} {request : Request} {history : List LogEntry} {userId : String}
    (phase : Phase platform options p request history (.awaiting (.store (.deleteAllForUser userId)))) :
    ∃ token type record t, foundEntry p token type record t ∈ history ∧ record.userId = userId := by
  cases request with
  | refresh token =>
    cases phase with
    | @reused record t => exact ⟨token, .refreshToken, record, t, List.mem_cons_self, rfl⟩
    | @lost record t => exact ⟨token, .refreshToken, record, t, List.mem_cons_self, rfl⟩
  | resetPassword token newPassword =>
    cases phase with
    | @revoking record t => exact ⟨token, .resetPassword, record, t, List.mem_cons_self, rfl⟩
  | _ => cases phase

theorem Phase.changing_found {p : Nat} {request : Request} {history : List LogEntry} {userId password : String}
    (phase : Phase platform options p request history (.awaiting
      (.auth (.completePasswordReset userId password)))) :
    ∃ token record t, foundEntry p token .resetPassword record t ∈ history ∧ record.userId = userId := by
  cases request with
  | resetPassword token newPassword =>
    cases phase with
    | @changing record t => exact ⟨token, record, t, List.mem_cons_self, rfl⟩
  | _ => cases phase

/-- At every entry of the log the request that made the call was in one of its phases. -/
theorem reach_phase_of_mem (reach : (authSystem server platform options).Reach permitted (.start clock
    (.fresh keycloak)) cfg) {p t : Nat} {call : Call} {answer : Except Thrown call.Ans}
    (member : ⟨p, call, answer, t⟩ ∈ cfg.log) :
    ∃ request history, history ⊆ cfg.log ∧ Phase platform options p request history (.awaiting call) := by
  obtain ⟨i, at_entry⟩ := List.mem_iff_getElem?.mp member
  obtain ⟨thread, _, phase⟩ := reach_phase_at reach at_entry
  exact ⟨thread.request, _, fun own inHistory => List.mem_of_mem_take (System.mem_ownEntries.mp inHistory).1, phase⟩

/-- The user data consists of second factors, locks and counters. -/
theorem reach_user_data
    (reach : (authSystem server platform options).Reach permitted (.start clock (.fresh keycloak)) cfg)
    {userId key : String} {value : Str} (stored : cfg.shared.store.getUserData userId key = some value) :
    (∃ p answer t, value = .random ⟨p, 0⟩ ∧ ⟨p, .auth (.setup2FA userId), answer, t⟩ ∈ cfg.log) ∨
      (∃ count updatedAt, value = .failedAttempts count updatedAt) ∨ ∃ time, value = .isoDate time := by
  by_cases second : key = "totpSecret"
  · subst second
    exact .inl (reach_secret reach stored)
  refine .inr ?_
  refine reach.invariant (fun shared _ => ∀ value, shared.store.getUserData userId key = some value →
    (∃ count updatedAt, value = .failedAttempts count updatedAt) ∨ ∃ time,
      value = .isoDate time) ?_ ?_ ?_ value stored
  · intro value stored
    cases stored
  · rintro (state | _) now shared log kept
    · exact kept
    · exact kept
  intro cfg p thread call rest choice reach found waiting _ kept value stored
  have phase := reach_phase reach found
  rw [waiting] at phase
  by_cases saves : ∃ written, call = .store (.saveUserData userId key written)
  · obtain ⟨written, rfl⟩ := saves
    cases Option.some.inj ((getUserData_saveUserData_self ..).symm.trans stored)
    exact phase.saving_data
  by_cases deletes : call = .store (.deleteUserData userId key)
  · subst deletes
    cases (getUserData_deleteUserData_self ..).symm.trans stored
  · refine kept value (Eq.trans (answerCall_getUserData _ _ _ _ _ _ _ call second ?_ ?_).symm stored)
    · rintro user name written rfl
      by_contra same
      simp only [ne_eq, not_or, Decidable.not_not] at same
      obtain ⟨rfl, rfl⟩ := same
      exact saves ⟨written, rfl⟩
    · rintro user name rfl
      by_contra same
      simp only [ne_eq, not_or, Decidable.not_not] at same
      obtain ⟨rfl, rfl⟩ := same
      exact deletes rfl

namespace Reader
variable {reader : Reader}

/-- The reader knows the store by heart. -/
theorem reach_store_known
    (reach : (authSystem server platform options).Reach permitted (.start clock (.fresh keycloak)) cfg) :
    (∀ record ∈ cfg.shared.store.records, reader.Knows options cfg record.token ∧
      reader.Knows options cfg record.id) ∧
      ∀ userId key value, cfg.shared.store.getUserData userId key = some value →
        reader.Knows options cfg value := by
  constructor
  · intro record member
    obtain ⟨original, saved, consumedAt, rfl⟩ := (reach_ledger reach).stems record member
    have id : reader.Knows options cfg original.id := .storedId saved
    exact ⟨.storedToken saved, id⟩
  · intro userId key value stored
    rcases reach_user_data reach stored with ⟨p, answer, t, rfl, drawn⟩ | ⟨count, updatedAt, rfl⟩ | ⟨time, rfl⟩
    · exact .storedSecret drawn
    · exact .failedAttempts
    · exact .isoDate

theorem LooksUp.confined (looksUp : reader.LooksUp cfg)
    (reach : (authSystem server platform options).Reach permitted (.start clock (.fresh keycloak)) cfg) :
    reader.Confined cfg where
  sessions p thread response tokens own found returned session :=
    looksUp.sessions reach own found returned session
  passwords p userId password answer t own member := by
    obtain ⟨request, history, sub, phase⟩ := reach_phase_of_mem reach member
    obtain ⟨token, record, t, looked, rfl⟩ := phase.changing_found
    exact looksUp p token .resetPassword record t own (sub looked)
  taken p id answer t original own member saved named := by
    obtain ⟨request, history, sub, phase⟩ := reach_phase_of_mem reach member
    obtain ⟨token, type, record, t, looked, rfl, -⟩ := phase.marking
    obtain ⟨before, after, split⟩ := List.append_of_mem (sub looked)
    obtain ⟨earlier, filed, stems, _, typed⟩ := reach_found reach split
    have filed : Saved cfg.log earlier := filed.mono (split ▸ List.subset_append_left ..)
    obtain rfl := reach_saved_eq reach saved filed (named.trans stems.id_eq)
    rw [typed, ← stems.userId_eq]
    exact looksUp p token type record t own (sub looked)
  wiped p userId answer t own member := by
    obtain ⟨request, history, sub, phase⟩ := reach_phase_of_mem reach member
    obtain ⟨token, type, record, t, looked, rfl⟩ := phase.wiping_found
    exact ⟨type, looksUp p token type record t own (sub looked)⟩

end Reader

/-- Whoever has a copy of all that the store holds or has ever held, and makes any requests at any time with what
it can come by: the sessions it gets and the passwords it changes are of users whose password or mailbox it has,
and it consumes and wipes the tokens of no one else. -/
theorem store_copy_opens_nothing {reader : Reader}
    (reach : (authSystem server platform options).Reach (reader.Plays options)
      (.start clock (.fresh keycloak)) cfg) :
    (∀ record ∈ cfg.shared.store.records, reader.Knows options cfg record.token ∧
      reader.Knows options cfg record.id) ∧
      (∀ userId key value, cfg.shared.store.getUserData userId key = some value → reader.Knows options cfg value) ∧
      reader.Confined cfg :=
  have known := Reader.reach_store_known reach
  ⟨known.1, known.2, (Reader.reach_looksUp reach).confined reach⟩

end

namespace Sample

/-- A reset link for Ann has been sent. -/
def linkSent : AuthConfig Realm := after start
  [.arrive (.forgotPassword "ann@mail"), .resume 0 .good, .resume 0 .good, .resume 0 .good, .resume 0 .good]

/-- Somebody presents what is stored for that link. -/
def digestTried : AuthConfig Realm := after linkSent
  [.arrive (.resetPassword (.sha256 (.random ⟨0, 0⟩)) "New Password 1!"), .resume 1 .good]

/-- Who makes that request, and reads no one's mail. -/
def thief : Reader := ⟨(· = 1), fun _ => False⟩

theorem digestTried_reach : system.Reach (thief.Plays options) start digestTried := by
  have sent : system.Reach (thief.Plays options) start linkSent := by
    refine after_reach ?_ (by decide +kernel)
    intro event member cfg
    rcases List.mem_cons.mp member with rfl | resumed
    · intro _ token presented
      cases presented
    · simp only [List.mem_cons, List.not_mem_nil, or_false, or_self] at resumed
      subst resumed
      trivial
  have filed : ∃ record, Saved linkSent.log record ∧ record.token = .random ⟨0, 0⟩ :=
    ⟨_, ⟨_, List.mem_of_getElem? (show linkSent.log[1]? = some _ from rfl), rfl⟩, rfl⟩
  obtain ⟨record, filed, token⟩ := filed
  have known : thief.Knows options linkSent (.sha256 (.random ⟨0, 0⟩)) := token ▸ .storedToken filed
  have asked : thief.Plays options linkSent (.arrive (.resetPassword
    (.sha256 (.random ⟨0, 0⟩)) "New Password 1!")) := by
    rintro - token presented
    cases presented
    exact known
  have looking : thief.Plays options (system.arrive linkSent (.resetPassword (.sha256 (.random ⟨0, 0⟩))
      "New Password 1!")) (.resume 1 .good) := trivial
  exact .next (.next sent asked rfl) looking (show system.advance _ (.resume 1 .good) = _ from rfl)

theorem store_copy_opens_nothing_digestTried :
    (∃ record ∈ digestTried.shared.store.records, record.userId = "ann" ∧ record.token = .sha256 (.random ⟨0, 0⟩) ∧
      thief.Knows options digestTried record.token) ∧
    digestTried.threads[1]?.map (·.state.view) =
      some (.threw (.domain .tokenInvalid "Invalid or expired reset token")) ∧
    ∀ userId password answer t, ⟨1, .auth (.completePasswordReset userId password),
      answer, t⟩ ∉ digestTried.log := by
  obtain ⟨records, -, confined⟩ := store_copy_opens_nothing digestTried_reach
  refine ⟨?_, rfl, fun userId password answer t changed => ?_⟩
  · have stored : ∃ record ∈ digestTried.shared.store.records, record.userId = "ann" ∧
        record.token = .sha256 (.random ⟨0, 0⟩) := by decide +kernel
    obtain ⟨record, member, owner, token⟩ := stored
    exact ⟨record, member, owner, token, (records record member).1⟩
  · obtain ⟨_, _, user, _, _, _, _, _, _, _, _, _, _, _, _, _, _, reads⟩ :=
      confined.passwords 1 userId password answer t rfl changed
    exact reads

end Sample

end KeycloakAuth
