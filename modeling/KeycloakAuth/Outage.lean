import KeycloakAuth.FreshTokens

namespace KeycloakAuth
open Async InMemoryTokenStore

section
variable {κ : Type} (server : KeycloakServer κ) (platform : Platform) (options : Deployment)

/-- A refresh with `t` is served and fails because the provider fails; the next request presents `t` again,
before it has expired and while Keycloak works. -/
structure Outage (clock : Nat) (keycloak : κ) (cfg : AuthConfig κ) (schedule : Schedule Plan) (t : Str)
    (ready : AuthConfig κ) (schedule' : Schedule Plan) : Prop where
  run : (authSystem server platform options).Reach anyEvent (.start clock (.fresh keycloak)) cfg
  failed : ∃ error asked, ⟨cfg.threads.length, .auth (.refreshToken t), .error error, asked⟩ ∈
    ((authSystem server platform options).serve cfg schedule (.refresh t)).log
  waits : (authSystem server platform options).Reach onlyWaits
    ((authSystem server platform options).serve cfg schedule (.refresh t)) ready
  works : ∀ id, t.subject = some id → ∀ index, Reaches server ready.shared.keycloak id (schedule' index).2
  unexpired : ∀ exp, t.expires = some exp →
    ((authSystem server platform options).serve ready schedule' (.refresh t)).clock / 1000 < exp

/-- A client that presents its token again after an outage gets a new session. -/
def OutageCostsNothing (clock : Nat) (keycloak : κ) : Prop :=
  ∀ cfg schedule t ready schedule', Outage server platform options clock keycloak cfg schedule t ready schedule' →
    Alive server platform options ready schedule' t

variable {server platform options} {clock : Nat} {keycloak : κ} {cfg ready : AuthConfig κ}
  {schedule schedule' : Schedule Plan} {t : Str}

/-- Whatever the failure was, the token has been consumed: presenting it again revokes every session of its
user. -/
theorem outage_costs_sessions
    (outage : Outage server platform options clock keycloak cfg schedule t ready schedule') :
    ¬ Alive server platform options ready schedule' t ∧
      (authSystem server platform options).result ready schedule' (.refresh t) =
        .error RefreshTokenUseCase.reuseDetected ∧
      ∃ record, cfg.shared.store.findByToken t .refreshToken = some record ∧ record.consumedAt = none ∧
        ∀ left ∈ ((authSystem server platform options).serve ready schedule' (.refresh t)).shared.store.records,
          left.userId ≠ record.userId := by
  obtain ⟨run, ⟨error, asked, failed⟩, waits, works, unexpired⟩ := outage
  have reached := run.trans (System.serve_reach cfg schedule (.refresh t))
  obtain ⟨_, _, fails⟩ := serve_refresh server platform options (fun _ => True) t cfg schedule fun _ => trivial
  rcases fails error asked failed with earlier | ⟨record, marked, error, found, unused, _, files⟩
  · exact absurd (run.request_lt _ earlier) (Nat.lt_irrefl _)
  have taken := findByToken_markConsumed marked (findByToken_spec found).1 unused t .refreshToken
  rw [found, ← files] at taken
  rcases presented_later reached waits taken works unexpired with ⟨_, refused, wiped⟩ | ⟨unused, _⟩
  · refine ⟨fun alive => ?_, refused, record, found, unused, fun left member => ?_⟩
    · obtain ⟨⟨tokens, accepted⟩, _⟩ := alive
      cases refused.symm.trans accepted
    · rw [wiped, deleteAllForUser_records] at member
      have other := (List.mem_filter.mp member).2
      simpa [consume] using other
  · simp [consume] at unused

end

namespace Sample

/-- Keycloak cannot be reached. -/
def unreachable : Schedule Plan := fun _ => (0, { Plan.good with http := fun _ => some none })

def failed : AuthConfig Realm := system.serve loggedIn unreachable (.refresh (session ann 1000))

/-- Ann's client presents its token, Keycloak is down, and the client tries again a minute later. -/
theorem outage : Outage Realm.server platform options 1000 realm loggedIn unreachable (session ann 1000)
    (after failed [.tick 60000]) promptly where
  run := loggedIn_reach
  failed := ⟨_, _, List.mem_of_getElem? (show Sample.failed.log[8]? = some _ from rfl)⟩
  waits := after_reach (by simp [onlyWaits]) rfl
  works := by
    rintro id ⟨⟩ index
    exact ⟨fun _ => rfl, ⟨_, rfl⟩, _, rfl⟩
  unexpired := by
    rintro exp ⟨⟩
    decide +kernel

theorem outage_costs_sessions_outage : system.result (after failed [.tick 60000]) promptly
    (.refresh (session ann 1000)) = .error RefreshTokenUseCase.reuseDetected :=
  (outage_costs_sessions outage).2.1

theorem outage_not_free : ¬ OutageCostsNothing Realm.server platform options 1000 realm := by
  intro free
  obtain ⟨⟨tokens, accepted⟩, _⟩ := free _ _ _ _ _ outage
  cases (show system.result (after failed [.tick 60000]) promptly (.refresh (session ann 1000)) =
    .error RefreshTokenUseCase.reuseDetected from rfl).symm.trans accepted

end Sample

end KeycloakAuth
