import KeycloakAuth.FreshTokens
import KeycloakAuth.LogoutRevocation
import KeycloakAuth.Lookup

namespace KeycloakAuth
open Async InMemoryTokenStore

section
variable {κ : Type}

/-- The session whose current record was saved as `original` is live: no refresh has taken that record, and its
token still stands for a record that can be taken. -/
structure Live (cfg : AuthConfig κ) (original : TokenRecord) : Prop where
  current : ∃ record ∈ cfg.shared.store.records, record.id = original.id ∧ record.consumedAt = none
  found : ∃ record, cfg.shared.store.findByToken original.token .refreshToken = some record ∧
    record.consumedAt = none

variable (server : KeycloakServer κ) (platform : Platform) (options : Deployment)

/-- Requests have been served one at a time, and two authentications of one user have opened sessions that are
live. -/
structure TwoSessions (clock : Nat) (keycloak : κ) (cfg : AuthConfig κ)
    (root root' own own' : TokenRecord) : Prop where
  run : (authSystem server platform options).Sequential (.start clock (.fresh keycloak)) cfg
  opens : Opens cfg root
  opens' : Opens cfg root'
  different : root ≠ root'
  user : root.userId = root'.userId
  chain : Chain cfg.log root own
  chain' : Chain cfg.log root' own'
  live : Live cfg own
  live' : Live cfg own'

/-- A logout with the token, or a refresh with it that is accepted. -/
def Uses (cfg : AuthConfig κ) (schedule : Schedule Plan) (t : Str) (request : Request) : Prop :=
  request = .logout t ∨ request = .refresh t ∧
    ∃ response, (authSystem server platform options).result cfg schedule request = .ok response

/-- The token is never taken for a reused one by a later refresh, and it is accepted, before it has expired and
while Keycloak works. -/
def Undisturbed (cfg : AuthConfig κ) (t : Str) : Prop :=
  ∀ ready schedule, (authSystem server platform options).Reach onlyWaits cfg ready →
    (authSystem server platform options).result ready schedule (.refresh t) ≠ .error
      RefreshTokenUseCase.reuseDetected ∧
      ((∀ id, t.subject = some id → ∀ index, Reaches server ready.shared.keycloak id (schedule index).2) →
        (∀ exp, t.expires = some exp →
          ((authSystem server platform options).serve ready schedule (.refresh t)).clock / 1000 < exp) →
        ∃ tokens, (authSystem server platform options).result ready schedule (.refresh t) = .ok (.refresh tokens))

/-- What one session of a user does leaves the others alone. -/
def SessionsIndependent (clock : Nat) (keycloak : κ) : Prop :=
  ∀ cfg root root' own own' schedule request,
    TwoSessions server platform options clock keycloak cfg root root' own own' →
    Uses server platform options cfg schedule own.token request →
    Undisturbed server platform options ((authSystem server platform options).serve cfg schedule request) own'.token

variable {server platform options} {permitted : AuthConfig κ → AuthEvent κ → Prop} {clock : Nat} {keycloak : κ}
  {cfg ready : AuthConfig κ} {schedule : Schedule Plan} {request : Request} {t : Str} {record : TokenRecord}

/-- While nothing is served, no record comes to the file. -/
theorem waits_records (waits : (authSystem server platform options).Reach onlyWaits cfg ready)
    (member : record ∈ ready.shared.store.records) : record ∈ cfg.shared.store.records := by
  induction waits with
  | start => exact member
  | next _ allowed step ih =>
    rcases System.advance_cases step with ⟨_, rfl, rfl⟩ | ⟨change, rfl, rfl⟩ | ⟨_, rfl, rfl⟩ |
      ⟨_, _, _, _, _, rfl, _, _, rfl⟩
    · exact ih member
    · exact ih (disturb_records server platform options member)
    · exact allowed.elim
    · exact allowed.elim

/-- A refresh served alone is refused as reused only where its token stands for a consumed record. -/
theorem reused_of_refused
    (refused : (authSystem server platform options).result cfg schedule (.refresh t) =
      .error RefreshTokenUseCase.reuseDetected) :
    ∃ record, cfg.shared.store.findByToken t .refreshToken = some record ∧ record.consumedAt.isSome = true := by
  have ran := (serve_refresh server platform options (fun _ => True) t cfg schedule fun _ => trivial).1
  rw [refused] at ran
  generalize ended : (Except.error RefreshTokenUseCase.reuseDetected : Except Thrown Response) = result at ran
  generalize ((authSystem server platform options).serve cfg schedule (.refresh t)).clock = now at ran
  generalize ((authSystem server platform options).serve cfg schedule (.refresh t)).shared.store = after at ran
  cases ran with
  | unknown => cases ended
  | reused found used => exact ⟨_, found, used⟩
  | expired => cases ended
  | failed found unused fine same order failed =>
    cases ended
    exact absurd rfl (answerAuth_refreshToken_noReuse _ _ _ _ _ _ _ failed _)
  | rotated => cases ended

theorem refused_of_reused (found : cfg.shared.store.findByToken t .refreshToken = some record)
    (used : record.consumedAt.isSome = true) :
    (authSystem server platform options).result cfg schedule (.refresh t) =
      .error RefreshTokenUseCase.reuseDetected := by
  have ran := (serve_refresh server platform options (fun _ => True) t cfg schedule fun _ => trivial).1
  generalize (authSystem server platform options).result cfg schedule (.refresh t) = result at ran ⊢
  generalize ((authSystem server platform options).serve cfg schedule (.refresh t)).clock = now at ran
  generalize ((authSystem server platform options).serve cfg schedule (.refresh t)).shared.store = after at ran
  have consumed {other : TokenRecord} (again : cfg.shared.store.findByToken t .refreshToken = some other)
      (unused : other.consumedAt = none) : False := by
    cases Option.some.inj (found.symm.trans again)
    simp [unused] at used
  cases ran with
  | unknown absent => cases found.symm.trans absent
  | reused => rfl
  | expired again unused => exact (consumed again unused).elim
  | failed again unused => exact (consumed again unused).elim
  | rotated again unused => exact (consumed again unused).elim

/-- Whoever uses a token consumes the record that it stands for. -/
theorem Uses.consumes (reach : (authSystem server platform options).Reach permitted
    (.start clock (.fresh keycloak)) cfg)
    (uses : Uses server platform options cfg schedule t request)
    (found : cfg.shared.store.findByToken t .refreshToken = some record) (unused : record.consumedAt = none) :
    ∃ marked, ∀ t' other, cfg.shared.store.findByToken t' .refreshToken = some other →
      ((authSystem server platform options).serve cfg schedule request).shared.store.findByToken t' .refreshToken =
        some (consume record.id marked other) := by
  have member := (findByToken_spec found).1
  have kept (marked : Nat) {t' : Str} {other : TokenRecord}
      (stands : cfg.shared.store.findByToken t' .refreshToken = some other) :
      (cfg.shared.store.markConsumed record.id marked).2.findByToken t' .refreshToken =
        some (consume record.id marked other) := by
    rw [findByToken_markConsumed marked member unused, stands]
    rfl
  rcases uses with rfl | ⟨rfl, response, accepted⟩
  · have ran := (serve_logout server platform options cfg schedule t).2
    generalize ((authSystem server platform options).serve cfg schedule (.logout t)).shared.store = after at ran ⊢
    cases ran with
    | kept spent =>
      have used := spent record found
      simp [unused] at used
    | taken marked again _ =>
      cases Option.some.inj (found.symm.trans again)
      exact ⟨marked, fun _ _ => kept marked⟩
  · have ran := (serve_refresh server platform options (fun _ => True) t cfg schedule fun _ => trivial).1
    rw [accepted] at ran
    generalize ((authSystem server platform options).serve cfg schedule (.refresh t)).shared.store = after at ran ⊢
    cases ran with
    | @rotated _ _ _ marked _ _ _ again =>
      cases Option.some.inj (found.symm.trans again)
      exact ⟨marked, fun _ _ stands => findByToken_save
        (fun _ onFile => reach_unused_id_marked reach onFile 0) (kept marked stands)⟩

/-- What one session does leaves another alone exactly when their current tokens are different strings: they are the
same if they were signed for the same claims in one second. -/
theorem sessions_independent_iff {root root' own own' : TokenRecord}
    (two : TwoSessions server platform options clock keycloak cfg root root' own own')
    (uses : Uses server platform options cfg schedule own.token request) :
    Undisturbed server platform options ((authSystem server platform options).serve cfg
      schedule request) own'.token ↔
      own.token ≠ own'.token := by
  have reach := two.run.reach
  have served := reach.trans (System.serve_reach cfg schedule request)
  obtain ⟨record, found, unused⟩ := two.live.found
  obtain ⟨marked, kept⟩ := uses.consumes reach found unused
  constructor
  · intro undisturbed same
    have used : (consume record.id marked record).consumedAt.isSome = true := by simp [consume]
    exact (undisturbed _ schedule .start).1 (refused_of_reused (same ▸ kept own.token record found) used)
  · intro different ready schedule' waits
    obtain ⟨record', found', unused'⟩ := two.live'.found
    have apart : record'.id ≠ record.id := by
      intro same
      obtain ⟨member, hashed, -⟩ := findByToken_spec found
      obtain ⟨member', hashed', -⟩ := findByToken_spec found'
      have one := eq_of_id_eq member' member same
      rw [one, hashed] at hashed'
      exact different (Str.sha256.inj hashed')
    have stands := kept own'.token record' found'
    rw [consume_other marked apart] at stands
    constructor
    · intro refused
      obtain ⟨other, looked, used⟩ := reused_of_refused refused
      obtain ⟨member, hashed, typed⟩ := findByToken_spec looked
      obtain ⟨first, first_found, first_used⟩ := reach_first_consumed served
        (waits_records waits member) hashed used
      rw [typed, stands] at first_found
      cases first_found
      simp [unused'] at first_used
    · intro works unexpired
      rcases presented_later served waits stands works unexpired with ⟨used, -⟩ | ⟨-, tokens, -, -, accepted, -⟩
      · simp [unused'] at used
      · exact ⟨tokens, accepted⟩

end

namespace Sample

/-- Ann logs in twice, the second time after a delay. -/
def twice (delay : Nat) : AuthConfig Realm :=
  system.serve { loggedIn with clock := loggedIn.clock + delay } promptly (.login "ann@mail" "ann password")

/-- The record of her second session. -/
def secondRecord (delay : Nat) : TokenRecord :=
  freshRecord ⟨1, 0⟩ "ann" .refreshToken (session ann (1000 + delay)) options.refreshTokenTtlMs (1000 + delay)

theorem twice_sessions {delay : Nat} (first : SavedBy (twice delay).log 0 annsRecord)
    (second : SavedBy (twice delay).log 1 (secondRecord delay))
    (live : Live (twice delay) annsRecord) (live' : Live (twice delay) (secondRecord delay)) :
    TwoSessions Realm.server platform options 1000 realm (twice delay) annsRecord (secondRecord delay)
      annsRecord (secondRecord delay) where
  run := .serve _ _ (.tick delay (.serve _ _ .start))
  opens := ⟨rfl, 0, _, first, rfl, by simp⟩
  opens' := ⟨rfl, 1, _, second, rfl, by simp⟩
  different same := by simp [annsRecord, secondRecord, freshRecord] at same
  user := rfl
  chain := .root first.saved
  chain' := .root second.saved
  live := live
  live' := live'

/-- She logs out of the session of her first login, four seconds after which she has logged in again. -/
theorem sessions_independent_iff_twice : Undisturbed Realm.server platform options
    (system.serve (twice 4000) promptly (.logout (session ann 1000))) (session ann 5000) := by
  have first : SavedBy (twice 4000).log 0 annsRecord :=
    ⟨_, List.mem_of_getElem? (show (twice 4000).log[5]? = some _ from rfl), rfl, rfl⟩
  have second : SavedBy (twice 4000).log 1 (secondRecord 4000) :=
    ⟨_, List.mem_of_getElem? (show (twice 4000).log[11]? = some _ from rfl), rfl, rfl⟩
  have two := twice_sessions first second ⟨⟨_, List.mem_cons_self, rfl, rfl⟩, _, rfl, rfl⟩
    ⟨⟨_, List.mem_cons_of_mem _ List.mem_cons_self, rfl, rfl⟩, _, rfl, rfl⟩
  exact (sessions_independent_iff two (.inl rfl)).mpr (by decide)

/-- Where both logins fall into one second, the second session goes with the first. -/
theorem sessions_not_independent : ¬ SessionsIndependent Realm.server platform options 1000 realm := by
  have first : SavedBy (twice 0).log 0 annsRecord :=
    ⟨_, List.mem_of_getElem? (show (twice 0).log[5]? = some _ from rfl), rfl, rfl⟩
  have second : SavedBy (twice 0).log 1 (secondRecord 0) :=
    ⟨_, List.mem_of_getElem? (show (twice 0).log[11]? = some _ from rfl), rfl, rfl⟩
  have two := twice_sessions first second ⟨⟨_, List.mem_cons_self, rfl, rfl⟩, _, rfl, rfl⟩
    ⟨⟨_, List.mem_cons_of_mem _ List.mem_cons_self, rfl, rfl⟩, _, rfl, rfl⟩
  intro independent
  have undisturbed := independent _ _ _ _ _ promptly (.logout (session ann 1000)) two (.inl rfl)
  exact (undisturbed _ promptly .start).1 rfl

end Sample

end KeycloakAuth
