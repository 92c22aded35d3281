import KeycloakAuth.Issuance
import KeycloakAuth.Redemption

namespace KeycloakAuth
open Async InMemoryTokenStore

theorem Request.refresh_of_credential {request : Request} {t : Str}
    (presents : request.credential = some (.refreshToken, t)) : request = .refresh t := by
  cases request <;> simp_all [Request.credential]

theorem Date.before_mono {date : Date} {earlier later : Nat} (order : earlier ≤ later)
    (alive : date.before later = false) : date.before earlier = false := by
  obtain ⟨_ | time⟩ := date
  · rfl
  · simp only [Date.before, Option.any_some, decide_eq_false_iff_not] at alive ⊢
    omega

/-- The token is on file as a consumed one, or the request is about to consume it. -/
def Reissued (store : InMemoryTokenStore) (request : Request) (t : Str) : Prop :=
  request = .refresh t ∨ ∃ record, store.findByToken t .refreshToken = some record ∧ record.consumedAt.isSome = true

/-- The record that a request pays with is marked, if it pays with one. -/
def Spends (store : InMemoryTokenStore) (request : Request) (spend : TokenRecord → TokenRecord) : Prop :=
  (request.credential = none ∧ spend = id) ∨
    ∃ type token record now, request.credential = some (type, token) ∧
      store.findByToken token type = some record ∧ spend = consume record.id now

theorem Spends.token {store : InMemoryTokenStore} {request : Request} {spend : TokenRecord → TokenRecord}
    (spends : Spends store request spend) (record : TokenRecord) :
    (spend record).token = record.token ∧ (spend record).type = record.type := by
  rcases spends with ⟨_, rfl⟩ | ⟨_, _, paid, now, _, _, rfl⟩
  · exact ⟨rfl, rfl⟩
  · exact ⟨consume_token .., consume_type ..⟩

/-- Which records are consumed after a request has paid. -/
theorem Spends.consumed_iff {store : InMemoryTokenStore} {request : Request} {spend : TokenRecord → TokenRecord}
    (spends : Spends store request spend) {t : Str} {record : TokenRecord}
    (found : store.findByToken t .refreshToken = some record) :
    (spend record).consumedAt.isSome = true ↔ Reissued store request t := by
  obtain ⟨member, hashed, typed⟩ := findByToken_spec found
  rcases spends with ⟨free, rfl⟩ | ⟨type, token, paid, now, presents, looked, rfl⟩
  · constructor
    · exact fun used => .inr ⟨record, found, used⟩
    · rintro (rfl | ⟨other, again, used⟩)
      · cases free
      · cases Option.some.inj (found.symm.trans again)
        exact used
  · obtain ⟨onFile, hashed', typed'⟩ := findByToken_spec looked
    constructor
    · intro used
      unfold consume at used
      split at used
      · rename_i own
        obtain rfl := eq_of_id_eq member onFile own
        rw [← typed', typed, ← Str.sha256.inj (hashed.symm.trans hashed')] at presents
        exact .inl (Request.refresh_of_credential presents)
      · exact .inr ⟨record, found, used⟩
    · rintro (rfl | ⟨other, again, used⟩)
      · cases presents
        cases Option.some.inj (found.symm.trans looked)
        simp [consume]
      · cases Option.some.inj (found.symm.trans again)
        exact consume_used paid.id now used

section
variable {κ : Type} {server : KeycloakServer κ} {platform : Platform} {options : Deployment} {p : Nat}

/-- A session is filed behind all other records. -/
theorem SessionIssued.records {before : World κ} {after : InMemoryTokenStore} {request : Request}
    {tokens : SessionResponse} (issued : SessionIssued server platform options p before after request tokens)
    (fresh : ∀ record ∈ before.store.records, ∀ index, record.id ≠ .random ⟨p, index⟩) :
    ∃ spend new, Spends before.store request spend ∧ after.records = before.store.records.map spend ++ [new] ∧
      new.token = hashToken tokens.refreshToken ∧ new.type = .refreshToken ∧ new.consumedAt = none := by
  have paid {type : TokenType} {token t : Str} {record : TokenRecord} {userId : String} {marked filed : Nat}
      (presents : request.credential = some (type, token))
        (found : before.store.findByToken token type = some record)
      (unused : record.consumedAt = none)
      (files : after = (before.store.markConsumed record.id marked).2.save
        (freshRecord ⟨p, 0⟩ userId .refreshToken t options.refreshTokenTtlMs filed)) :
      ∃ spend new, Spends before.store request spend ∧ after.records = before.store.records.map spend ++ [new] ∧
        new.token = hashToken t ∧ new.type = .refreshToken ∧ new.consumedAt = none := by
    have taken := (markConsumed_unused marked (findByToken_spec found).1 unused).2
    let new := freshRecord ⟨p, 0⟩ userId .refreshToken t options.refreshTokenTtlMs filed
    refine ⟨consume record.id marked, { new with token := hashToken new.token },
      .inr ⟨type, token, record, marked, presents, found, rfl⟩, ?_, rfl, rfl, rfl⟩
    rw [files, save_records_of_fresh, taken]
    intro old member same
    rw [taken] at member
    obtain ⟨original, onFile, rfl⟩ := List.mem_map.mp member
    exact fresh original onFile 0 ((consume_id ..).symm.trans same)
  cases issued with
  | @login _ _ result _ _ _ filed _ same accepted notEnrolled kept files =>
    let new := freshRecord ⟨p, 0⟩ result.user.id .refreshToken result.refreshToken options.refreshTokenTtlMs filed
    refine ⟨id, { new with token := hashToken new.token }, .inl ⟨rfl, rfl⟩, ?_, rfl, rfl, rfl⟩
    rw [files, save_records_of_fresh, kept, List.map_id]
    intro old member same
    rw [kept] at member
    exact fresh old member 0 same
  | rotated run =>
    generalize ended : (Except.ok (Response.refresh tokens) : Except Thrown Response) = result at run
    cases run with
    | rotated found unused same since order answered =>
      cases ended
      exact paid rfl found unused rfl
    | _ => cases ended
  | magicLink marked found unused same answered files => exact paid rfl found unused files
  | secondFactor marked found unused verified same answered files => exact paid rfl found unused files

/-- The record that stands for a token that has just been handed out. -/
theorem SessionIssued.found {before : World κ} {after : InMemoryTokenStore} {request : Request}
    {tokens : SessionResponse} (issued : SessionIssued server platform options p before after request tokens)
    (fresh : ∀ record ∈ before.store.records, ∀ index, record.id ≠ .random ⟨p, index⟩) :
    ∃ record, after.findByToken tokens.refreshToken .refreshToken = some record ∧
      (record.consumedAt.isSome = true ↔ Reissued before.store request tokens.refreshToken) := by
  obtain ⟨spend, new, spends, records, hashed, typed, unused⟩ := issued.records fresh
  have commutes : (fun record : TokenRecord => decide (record.token = hashToken tokens.refreshToken ∧
      record.type = .refreshToken)) ∘ spend = fun record => decide (record.token = hashToken tokens.refreshToken ∧
      record.type = .refreshToken) := by
    funext record
    simp only [Function.comp_apply, (spends.token record).1, (spends.token record).2]
  simp only [findByToken_eq, records, List.find?_append, List.find?_map, commutes]
  cases found : before.store.findByToken tokens.refreshToken .refreshToken with
  | some old =>
    rw [findByToken_eq] at found
    exact ⟨spend old, by rw [found]; rfl, spends.consumed_iff found⟩
  | none =>
    have notReissued : ¬ Reissued before.store request tokens.refreshToken := by
      rintro (rfl | ⟨other, again, _⟩)
      · rcases spends with ⟨free, _⟩ | ⟨_, _, _, _, presents, looked, _⟩
        · cases free
        · cases presents
          cases found.symm.trans looked
      · cases found.symm.trans again
    rw [findByToken_eq] at found
    exact ⟨new, by rw [found]; simp [hashed, typed], by simp [unused, notReissued]⟩

/-- No request arrives and none makes a step. -/
def onlyWaits (_ : AuthConfig κ) : AuthEvent κ → Prop
  | .tick _ => True
  | .disturb _ => True
  | _ => False

variable {permitted : AuthConfig κ → AuthEvent κ → Prop} {clock : Nat} {keycloak : κ} {cfg ready : AuthConfig κ}

/-- A record that has not expired still stands for its token after a while. -/
theorem waits_found {t : Str} {type : TokenType} {record : TokenRecord}
    (waits : (authSystem server platform options).Reach onlyWaits cfg ready)
    (found : cfg.shared.store.findByToken t type = some record)
    (alive : record.expiresAt.before ready.clock = false) :
    ready.shared.store.findByToken t type = some record := by
  induction waits with
  | start => exact found
  | @next before after event _ allowed step ih =>
    rcases System.advance_cases step with ⟨delay, _, rfl⟩ | ⟨change, _, rfl⟩ | ⟨_, rfl, rfl⟩ |
      ⟨_, _, _, _, _, rfl, _, _, rfl⟩
    · exact ih (Date.before_mono (Nat.le_add_right _ _) alive)
    · have found := ih alive
      cases change with
      | keycloak state => exact found
      | deleteExpired => exact findByToken_deleteRecords found alive
    · exact allowed.elim
    · exact allowed.elim

/-- The token was signed for the user of the record, and the record lives no shorter. -/
def SignedFor (options : Deployment) (t : Str) (record : TokenRecord) : Prop :=
  ∃ user issuedAt, t = (issued options issuedAt user).refreshToken ∧ user.id = record.userId ∧ user.id ≠ "" ∧
    ∀ now, now / 1000 < issuedAt / 1000 + options.jwt.refreshToken.expiresIn → record.expiresAt.before now = false

theorem reach_signedFor
    (reach : (authSystem server platform options).Reach permitted (.start clock (.fresh keycloak)) cfg) {t : Str}
    {record : TokenRecord} (member : record ∈ cfg.shared.store.records) (hashed : record.token = hashToken t)
    (typed : record.type = .refreshToken) : SignedFor options t record := by
  obtain ⟨original, saved, stems⟩ := (reach_ledger reach).stems record member
  obtain ⟨_, rfl⟩ := stems
  obtain ⟨user, issuedAt, filedAt, named, signed, order, lifetime⟩ := reach_session reach saved typed
  refine ⟨user, issuedAt, (Str.sha256.inj hashed).symm.trans signed, named, named ▸ reach_owner reach saved,
    fun now alive => ?_⟩
  rw [Bool.eq_false_iff]
  intro past
  simp only [lifetime] at past
  have late := Date.lt_of_before_ofMs past
  simp only [Deployment.refreshTokenTtlMs] at late
  omega

theorem reach_found_session
    (reach : (authSystem server platform options).Reach permitted (.start clock (.fresh keycloak)) cfg) {t : Str}
    {record : TokenRecord} (found : cfg.shared.store.findByToken t .refreshToken = some record) :
    SignedFor options t record := by
  obtain ⟨member, hashed, typed⟩ := findByToken_spec found
  exact reach_signedFor reach member hashed typed

variable (server platform options) in
/-- The refresh with `t` that is served next gets a new session and revokes nothing. -/
def Alive (ready : AuthConfig κ) (schedule : Schedule Plan) (t : Str) : Prop :=
  (∃ tokens, (authSystem server platform options).result ready schedule (.refresh t) = .ok (.refresh tokens)) ∧
    ∀ record ∈ ready.shared.store.records, ∃ kept ∈ ((authSystem server platform options).serve ready schedule
      (.refresh t)).shared.store.records, kept.Follows record

variable (server platform options) in
/-- A request that is served in a run of requests served one at a time hands out a session, and the next
request presents its refresh token, before that has expired and while Keycloak works. -/
structure PresentedNext (clock : Nat) (keycloak : κ) (cfg : AuthConfig κ)
    (schedule : Schedule Plan) (request : Request)
    (tokens : SessionResponse) (ready : AuthConfig κ) (schedule' : Schedule Plan) : Prop where
  run : (authSystem server platform options).Sequential (.start clock (.fresh keycloak)) cfg
  issued : ∃ response, (authSystem server platform options).result cfg schedule request = .ok response ∧
    response.session = some tokens
  waits : (authSystem server platform options).Reach onlyWaits
    ((authSystem server platform options).serve cfg schedule request) ready
  works : ∀ id, tokens.refreshToken.subject = some id → ∀ index,
    Reaches server ready.shared.keycloak id (schedule' index).2
  unexpired : ∀ exp, tokens.refreshToken.expires = some exp →
    ((authSystem server platform options).serve ready schedule' (.refresh tokens.refreshToken)).clock / 1000 < exp

theorem markConsumed_follows {store : InMemoryTokenStore} {id : Str} {now : Nat} {record : TokenRecord}
    (member : record ∈ store.records) : ∃ kept ∈ (store.markConsumed id now).2.records, kept.Follows record := by
  rcases markConsumed_cases store id now with ⟨_, _, _, _, _, after⟩ | ⟨_, same⟩
  · rw [after]
    exact ⟨_, List.mem_map_of_mem member, consume_follows id now record⟩
  · rw [same]
    exact ⟨record, member, .refl record⟩

variable (platform p) in
/-- A refresh token that verifies is answered while Keycloak works. -/
theorem answerAuth_refreshToken_works {plan : Plan} {asked issuedAt : Nat} {user : User} {world : World κ}
    (works : Reaches server world.keycloak user.id plan) (named : user.id ≠ "")
    (unexpired : asked / 1000 < issuedAt / 1000 + options.jwt.refreshToken.expiresIn) :
    ∃ tokens, (answerAuth server platform options plan asked p
      (.refreshToken (issued options issuedAt user).refreshToken) world).1 = .ok tokens := by
  have valid : refreshClaims options asked (issued options issuedAt user).refreshToken =
      .ok (JwtTokenService.claims (KeycloakAuthProvider.userPayload user) .refresh
        options.jwt.refreshToken.expiresIn issuedAt) := by
    have early : ¬ issuedAt / 1000 + options.jwt.refreshToken.expiresIn ≤ asked / 1000 := by omega
    simp [refreshClaims, jwtVerify, issued, JwtTokenService.claims, early, KeycloakAuthProvider.userPayload, named]
  rw [answerAuth_refreshToken, valid]
  simp only [answerAuth_issueTokens]
  obtain ⟨fetched, looked⟩ := answerAuth_getUserById_works server platform options plan asked p world works
  exact ⟨_, congrArg (Except.map (KeycloakAuth.issued options asked)) looked⟩

/-- A refresh with an unexpired token that is on file, while Keycloak works: it is refused as reused, or it
gets the next session. -/
theorem RefreshRun.rotates {t : Str} {before : World κ} {result : Except Thrown Response}
    {arrived now issuedAt : Nat} {after : InMemoryTokenStore} {record : TokenRecord} {user : User}
    (run : RefreshRun server platform options (Reaches server before.keycloak user.id) p t arrived before result
      now after)
    (found : before.store.findByToken t .refreshToken = some record) (alive : record.expiresAt.before now = false)
    (signed : t = (issued options issuedAt user).refreshToken) (named : user.id ≠ "")
    (unexpired : now / 1000 < issuedAt / 1000 + options.jwt.refreshToken.expiresIn) :
    (record.consumedAt.isSome = true ∧ result = .error RefreshTokenUseCase.reuseDetected ∧
      after = before.store.deleteAllForUser record.userId) ∨
    record.consumedAt = none ∧ ∃ tokens marked new, result = .ok (.refresh tokens) ∧ new.id = .random ⟨p, 0⟩ ∧
      after = (before.store.markConsumed record.id marked).2.save new := by
  cases run with
  | unknown absent => cases found.symm.trans absent
  | reused again used =>
    cases Option.some.inj (found.symm.trans again)
    exact .inl ⟨used, rfl, rfl⟩
  | expired again unused past order =>
    cases Option.some.inj (found.symm.trans again)
    rw [Date.before_mono order alive] at past
    cases past
  | @failed _ _ _ _ asked plan world again unused fine same order refused =>
    have works : Reaches server world.keycloak user.id plan := same ▸ fine
    obtain ⟨tokens, answered⟩ := answerAuth_refreshToken_works platform p works named
      (show asked / 1000 < issuedAt / 1000 + options.jwt.refreshToken.expiresIn by omega)
    rw [← signed, refused] at answered
    cases answered
  | rotated again unused same since order answered =>
    cases Option.some.inj (found.symm.trans again)
    exact .inr ⟨unused, _, _, _, rfl, rfl, rfl⟩

/-- A token on file is presented after a while, before it has expired and while Keycloak works. -/
theorem presented_later
    (reach : (authSystem server platform options).Reach permitted (.start clock (.fresh keycloak)) cfg)
    (waits : (authSystem server platform options).Reach onlyWaits cfg ready) {schedule : Schedule Plan} {t : Str}
    {record : TokenRecord} (found : cfg.shared.store.findByToken t .refreshToken = some record)
    (works : ∀ id, t.subject = some id → ∀ index, Reaches server ready.shared.keycloak id (schedule index).2)
    (unexpired : ∀ exp, t.expires = some exp →
      ((authSystem server platform options).serve ready schedule (.refresh t)).clock / 1000 < exp) :
    let result := (authSystem server platform options).result ready schedule (.refresh t)
    let after := ((authSystem server platform options).serve ready schedule (.refresh t)).shared.store
    (record.consumedAt.isSome = true ∧ result = .error RefreshTokenUseCase.reuseDetected ∧
      after = ready.shared.store.deleteAllForUser record.userId) ∨
    record.consumedAt = none ∧ ∃ tokens marked new, result = .ok (.refresh tokens) ∧
      new.id = .random ⟨ready.threads.length, 0⟩ ∧
      after = (ready.shared.store.markConsumed record.id marked).2.save new := by
  obtain ⟨user, issuedAt, signed, named, known, lives⟩ := reach_found_session reach found
  have subject : t.subject = some user.id := by rw [signed]; rfl
  have expires : t.expires = some (issuedAt / 1000 + options.jwt.refreshToken.expiresIn) := by rw [signed]; rfl
  have unexpired := unexpired _ expires
  have later := (System.serve_reach (S := authSystem server platform options) ready schedule (.refresh t)).clock_le
  have stands := waits_found waits found (Date.before_mono later (lives _ unexpired))
  have ran := (serve_refresh server platform options (Reaches server ready.shared.keycloak user.id) t ready schedule
    (works user.id subject)).1
  exact ran.rotates stands (lives _ unexpired) signed known unexpired

/-- The token is accepted unless it is the very string of a refresh token that has been used. -/
theorem fresh_token_alive_iff {schedule schedule' : Schedule Plan} {request : Request} {tokens : SessionResponse}
    (next : PresentedNext server platform options clock keycloak cfg schedule request tokens ready schedule') :
    Alive server platform options ready schedule' tokens.refreshToken ↔
      ¬ Reissued cfg.shared.store request tokens.refreshToken := by
  obtain ⟨run, ⟨response, answered, session⟩, waits, works, unexpired⟩ := next
  have served := run.reach.trans (System.serve_reach cfg schedule request)
  obtain ⟨record, found, consumed_iff⟩ := (serve_issues answered session).found fun _ member =>
    reach_unused_id run.reach member
  rw [← consumed_iff]
  rcases presented_later served waits found works unexpired with
    ⟨used, refused, _⟩ | ⟨unused, rotated, marked, new, accepted, drawn, files⟩
  · constructor
    · intro alive
      obtain ⟨⟨rotated, accepted⟩, _⟩ := alive
      cases refused.symm.trans accepted
    · exact fun unused => absurd used unused
  · refine ⟨fun _ used => by simp [unused] at used, fun _ => ⟨⟨rotated, accepted⟩, fun old onFile => ?_⟩⟩
    obtain ⟨kept, stays, follows⟩ := markConsumed_follows onFile
    refine ⟨kept, ?_, follows⟩
    rw [files, save_records_of_fresh]
    · exact List.mem_append_left _ stays
    · intro earlier member same
      exact reach_unused_id_marked (served.trans waits.any) member 0 (same.trans drawn)

variable (server platform options) in
/-- A refresh token that has just been handed out is alive. -/
def FreshTokensAlive (clock : Nat) (keycloak : κ) : Prop :=
  ∀ cfg schedule request tokens ready schedule',
    PresentedNext server platform options clock keycloak cfg schedule request tokens ready schedule' →
    Alive server platform options ready schedule' tokens.refreshToken

end

namespace Sample

def tokens (account : Account) (now : Nat) : SessionResponse :=
  (issued options now (KeycloakAuthProvider.kcUserToUser account.representation now)).session

/-- Ann's session is presented two seconds after her login. -/
theorem presented : PresentedNext Realm.server platform options 1000 realm start promptly
    (.login "ann@mail" "ann password") (tokens ann 1000) (after loggedIn [.tick 2000]) promptly where
  run := .start
  issued := ⟨_, rfl, rfl⟩
  waits := after_reach (by simp [onlyWaits]) rfl
  works := by
    rintro id ⟨⟩ index
    exact ⟨fun _ => rfl, ⟨_, rfl⟩, _, rfl⟩
  unexpired := by
    rintro exp ⟨⟩
    decide +kernel

theorem fresh_token_alive_iff_presented :
    Alive Realm.server platform options (after loggedIn [.tick 2000]) promptly (session ann 1000) := by
  refine (fresh_token_alive_iff presented).mpr ?_
  rintro (no | ⟨record, no, _⟩) <;> cases no

/-- The session is rotated within the second in which it was issued, and the new token is presented. -/
theorem presented_again : PresentedNext Realm.server platform options 1000 realm loggedIn promptly
    (.refresh (session ann 1000)) (tokens ann 1000) (system.serve loggedIn promptly (.refresh (session ann 1000)))
    promptly where
  run := .serve _ _ .start
  issued := ⟨_, rfl, rfl⟩
  waits := .start
  works := by
    rintro id ⟨⟩ index
    exact ⟨fun _ => rfl, ⟨_, rfl⟩, _, rfl⟩
  unexpired := by
    rintro exp ⟨⟩
    decide +kernel

theorem fresh_tokens_not_alive : ¬ FreshTokensAlive Realm.server platform options 1000 realm := by
  intro alive
  obtain ⟨⟨tokens, accepted⟩, _⟩ := alive _ _ _ _ _ _ presented_again
  cases (show system.result _ promptly (.refresh (session ann 1000)) = .error RefreshTokenUseCase.reuseDetected from
    rfl).symm.trans accepted

end Sample

end KeycloakAuth
