import KeycloakAuth.ReuseRevocation

namespace KeycloakAuth
open Async InMemoryTokenStore

/-- Tokens other than refresh tokens are drawn together with the id of their record. -/
theorem Phase.saving_drawn {platform : Platform} {options : Deployment} {p : Nat} {request : Request}
    {history : List LogEntry} {record : TokenRecord} (drawn : record.type ≠ .refreshToken)
    (phase : Phase platform options p request history (.awaiting (.store (.save record)))) :
    record.token = .random ⟨p, 0⟩ ∧ record.id = .random ⟨p, 1⟩ := by
  cases request with
  | login email password =>
    cases phase with
    | challenging passed enrolled => exact ⟨rfl, rfl⟩
    | saving passed notEnrolled => exact absurd rfl drawn
  | complete2FA token code => cases phase with | saving => exact absurd rfl drawn
  | refresh token => cases phase with | saving => exact absurd rfl drawn
  | verifyMagicLink token => cases phase with | saving => exact absurd rfl drawn
  | forgotPassword email => cases phase with | saving => exact ⟨rfl, rfl⟩
  | sendMagicLink email => cases phase with | saving => exact ⟨rfl, rfl⟩
  | resetPassword token newPassword => cases phase
  | logout token => cases phase
  | register email username password => cases phase
  | setup2FA userId => cases phase
  | verify2FA userId code => cases phase

section
variable {κ : Type}

/-- No request has taken a credential that `u` had when the log was `cut` entries long without having got
to the end of what it does with it. -/
def NoneHeld (cfg : AuthConfig κ) (cut : Nat) (u : String) : Prop := ∀ q thread call,
    ¬ Holds cfg cut u q thread call

/-- No new session of `u` gets the very token of an old one, as it does when both are signed for the same
claims within one second. -/
def noTwin (cut : Nat) (u : String) (cfg : AuthConfig κ) (event : AuthEvent κ) : Prop :=
  ∀ q choice thread new, event = .resume q choice → cfg.threads[q]? = some thread →
    thread.state.view = .awaiting (.store (.save new)) → new.type = .refreshToken →
    ∀ old, Old cfg.log cut u old → old.type = .refreshToken → new.token ≠ old.token

variable (server : KeycloakServer κ) (platform : Platform) (options : Deployment)

/-- In every run of concurrent requests: let a reset have changed the password of `u` as entry `cut` of the
log, let it wipe the records of `u` in a configuration that meets `condition` and so return, and let the
events after that be `permitted`. Then no token that descends from the credentials `u` had before the
change is accepted by a later refresh, and none pays for a password change. -/
def ResetCutsOff (condition : AuthConfig κ → Nat → String → Prop)
    (permitted : Nat → String → AuthConfig κ → AuthEvent κ → Prop) (clock : Nat) (keycloak : κ) : Prop :=
  ∀ before final p thread token password u rest choice cut changed,
    (authSystem server platform options).Reach anyEvent (.start clock (.fresh keycloak)) before →
    before.threads[p]? = some thread → thread.request = .resetPassword token password →
    thread.state = .awaiting (.store (.deleteAllForUser u)) rest →
    before.log[cut]? = some ⟨p, .auth (.completePasswordReset u password), .ok (), changed⟩ →
    condition before cut u →
    (authSystem server platform options).Reach (permitted cut u) ((authSystem server platform options).resume before
      p thread (.store (.deleteAllForUser u)) rest choice) final →
    (∀ q later t tokens old, before.threads.length ≤ q → final.threads[q]? = some later →
      later.request = .refresh t → later.state.view = .returned (.refresh tokens) → Old final.log cut u old →
      old.type = .refreshToken → old.token ≠ t) ∧
    ∀ i entry later t newPassword old, before.log.length < i → final.log[i]? = some entry → entry.call.redeems →
      final.threads[entry.request]? = some later → later.request = .resetPassword t newPassword →
      Old final.log cut u old → old.type = .resetPassword → old.token ≠ t

variable {server platform options} {permitted : AuthConfig κ → AuthEvent κ → Prop} {clock : Nat} {keycloak : κ}
  {cfg final : AuthConfig κ}

theorem reach_drawn_eq (reach : (authSystem server platform options).Reach permitted
    (.start clock (.fresh keycloak)) cfg) {first second : TokenRecord} (one : Saved cfg.log first)
    (two : Saved cfg.log second) (drawn : first.type ≠ .refreshToken) (drawn' : second.type ≠ .refreshToken)
    (same : first.token = second.token) : first = second := by
  have tokens {record : TokenRecord} (saved : Saved cfg.log record) (drawn : record.type ≠ .refreshToken) :
      ∃ p, record.token = .random ⟨p, 0⟩ ∧ record.id = .random ⟨p, 1⟩ := by
    obtain ⟨entry, member, save⟩ := saved
    obtain ⟨i, found⟩ := List.mem_iff_getElem?.mp member
    obtain ⟨_, _, phase⟩ := reach_phase_at reach found
    rw [save] at phase
    exact ⟨_, phase.saving_drawn drawn⟩
  obtain ⟨p, token, id⟩ := tokens one drawn
  obtain ⟨q, token', id'⟩ := tokens two drawn'
  rw [token, token'] at same
  cases same
  exact reach_saved_eq reach one two (id.trans id'.symm)

/-- The records of `u` that are on file after a wipe were saved after it. -/
theorem records_after_wipe {n : Nat} {u : String}
    (later : (authSystem server platform options).Reach permitted cfg final) (bound : n ≤ cfg.log.length)
    (wiped : ∀ record ∈ cfg.shared.store.records, record.userId ≠ u) :
    ∀ record ∈ final.shared.store.records, record.userId = u →
      ∃ original, Saved (final.log.drop n) original ∧ record.Stems original := by
  refine later.invariant (fun shared log => n ≤ log.length ∧ ∀ record ∈ shared.store.records, record.userId = u →
    ∃ original, Saved (log.drop n) original ∧ record.Stems original) ⟨bound, ?_⟩ ?_ ?_ |>.2
  · exact fun record member own => absurd own (wiped record member)
  · intro change now shared log keeps
    exact ⟨keeps.1, fun record member => keeps.2 record (disturb_records server platform options member)⟩
  · intro middle q thread call rest choice _ found waiting _ keeps
    obtain ⟨bound, held⟩ := keeps
    refine ⟨by rw [List.length_append]; omega, fun record member own => ?_⟩
    rw [List.drop_append_of_le_length bound]
    rcases answerCall_records member with ⟨old, inStore, follows⟩ | ⟨original, rfl, rfl⟩
    · have sameUser : old.userId = record.userId := by
        obtain ⟨_, rfl, _⟩ := follows
        rfl
      obtain ⟨original, saved, stems⟩ := held old inStore (sameUser.trans own)
      exact ⟨original, saved.mono (List.subset_append_left ..), follows.stems stems⟩
    · exact ⟨original, ⟨_, List.mem_append_right _ (List.mem_singleton_self _), rfl⟩, _, rfl⟩

/-- A record of `u` that a later lookup has found was saved after the wipe. -/
theorem found_after_wipe {u : String}
    (reach : (authSystem server platform options).Reach anyEvent (.start clock (.fresh keycloak)) cfg)
    (later : (authSystem server platform options).Reach permitted cfg final)
    (wiped : ∀ record ∈ cfg.shared.store.records, record.userId ≠ u) {k q t : Nat} {token : Str} {type : TokenType}
    {record original : TokenRecord} (after : cfg.log.length ≤ k)
    (at_lookup : final.log[k]? = some (foundEntry q token type record t)) (own : record.userId = u)
    (stems : record.Stems original) (filed : Saved final.log original) :
    Saved (final.log.drop cfg.log.length) original := by
  obtain ⟨middle, thread, rest, choice, early, -, found, waiting, log, answer, rest_run⟩ :=
    later.step_at at_lookup after
  have looked : middle.shared.store.findByToken token type = some record := Except.ok.inj answer
  obtain ⟨earlier, saved, stems'⟩ :=
    records_after_wipe early (Nat.le_refl _) wiped record (findByToken_spec looked).1 own
  have inFinal : Saved (final.log.drop cfg.log.length) earlier := by
    rw [log, List.drop_take] at saved
    exact saved.mono (List.take_subset _ _)
  have same := reach_saved_eq (reach.trans later.any) (inFinal.mono (List.drop_subset _ _)) filed
    (stems'.id_eq.symm.trans stems.id_eq)
  exact same ▸ inFinal

/-- No other request holds an old credential of `u` when its records are wiped, and no later session gets
the token of an old one: then the reset cuts off everything older. -/
theorem reset_cuts_off_when_none_held : ResetCutsOff server platform options NoneHeld noTwin clock keycloak := by
  intro before final p thread token password u rest choice cut changed reach found _ wiping at_change clear later
  have bound := Nat.le_of_lt (List.getElem?_eq_some_iff.mp at_change).1
  have wiped := reach.next trivial (System.advance_resume choice found wiping)
  have revoked := Revoked.of_wipe choice reach found wiping bound clear
  have reached := wiped.trans later.any
  have gone : ∀ record ∈ ((authSystem server platform options).resume before p thread
      (.store (.deleteAllForUser u)) rest choice).shared.store.records, record.userId ≠ u := by
    intro record member
    simp only [System.resume, authSystem, answerCall, answerStore, deleteAllForUser_records] at member
    simpa using (List.mem_filter.mp member).2
  constructor
  · rintro q request t tokens old arrived at_later presents accepted descends typed rfl
    have arrived' : ((authSystem server platform options).resume before p thread (.store (.deleteAllForUser u)) rest
        choice).threads.length ≤ q := by
      simpa only [System.resume, List.length_set] using arrived
    obtain ⟨i, entry, original, record, k, _, _, after, at_entry, redeems, marked, filed, refreshes, same, after_k,
      at_lookup, stems⟩ := accepted_refresh wiped later arrived' at_later presents accepted
    have owner : original.userId = u :=
      ((reach_session reached filed refreshes).userId_eq (reach_session reached descends.saved typed) same).trans
        (descends.userId reached)
    have new := found_after_wipe wiped later gone after_k at_lookup (stems.userId_eq.trans owner) stems filed
    -- so the session was saved under the eyes of `noTwin`
    obtain ⟨saving, member, save⟩ := new
    obtain ⟨s, at_saving⟩ := List.mem_iff_getElem?.mp member
    rw [List.getElem?_drop] at at_saving
    obtain ⟨middle, saver, rest', choice', early, fine, found', waiting, _⟩ :=
      later.step_at at_saving (Nat.le_add_right _ _)
    have shows : saver.state.view = .awaiting saving.call := by rw [waiting]; rfl
    rw [save] at shows
    have descended := ((revoked.run wiped later).2 old descends).mono revoked.bound early.log_prefix
    exact fine saving.request choice' saver original rfl found' shows refreshes old descended typed same
  · rintro i entry request t newPassword old after at_entry redeems at_request presents descends typed rfl
    obtain ⟨thread', original, record, k, _, _, at_request', redemption, _, _, stems, saved⟩ :=
      reach_taken reached at_entry redeems
    cases Option.some.inj (at_request.symm.trans at_request')
    have presented := redemption.presented
    rw [presents] at presented
    obtain ⟨purpose, same⟩ := Prod.mk.inj (Option.some.inj presented)
    have marked := redemption.marked
    rw [stems.id_eq] at marked
    have equal : old = original := reach_drawn_eq reached descends.saved (saved.mono (List.take_subset _ _))
      (by simp [typed]) (by simp [← purpose]) same
    have after' : ((authSystem server platform options).resume before p thread (.store (.deleteAllForUser u)) rest
        choice).log.length ≤ i := by
      simp only [System.resume, List.length_append, List.length_singleton]
      omega
    exact revoked.redemption wiped later after' at_entry redeems marked descends (congrArg TokenRecord.id equal)

end

namespace Sample

/-- Ann is logged in; a reset link has been used to set a new password, and her records are about to be
wiped. -/
def changed : AuthConfig Realm := after loggedIn
  [.arrive (.forgotPassword "ann@mail"), .resume 1 .good, .resume 1 .good, .resume 1 .good, .resume 1 .good,
    .arrive (.resetPassword (.random ⟨1, 0⟩) "New Password 1!"), .resume 2 .good, .resume 2 .good, .resume 2 .good]

/-- Her session is presented after that. -/
def loggedOut : AuthConfig Realm := after (after changed [.resume 2 .good])
  [.arrive (.refresh (session ann 1000)), .resume 3 .good]

theorem loggedOut_reach : system.Reach (noTwin 12 "ann") (after changed [.resume 2 .good]) loggedOut := by
  have arrived : system.Reach (noTwin 12 "ann") (after changed [.resume 2 .good]) _ :=
    .next .start (by rintro _ _ _ _ ⟨⟩) (show system.advance _ (.arrive (.refresh (session ann 1000))) = _ from rfl)
  refine arrived.next ?_ (show system.advance _ (.resume 3 .good) = _ from rfl)
  intro q choice thread new same found waiting
  cases same
  cases Option.some.inj found
  cases waiting

theorem reset_cuts_off_when_none_held_loggedOut :
    ¬ ∃ later tokens, loggedOut.threads[3]? = some later ∧ later.state.view = .returned (.refresh tokens) := by
  intro served
  obtain ⟨later, tokens, found, accepted⟩ := served
  have clear : NoneHeld changed 12 "ann" := fun q thread call holds => by
    cases (show changed.threads.all Idle = true from rfl).symm.trans holds.not_idle
  have request : later.request = .refresh (session ann 1000) := by
    cases Option.some.inj ((show loggedOut.threads[3]? = some _ from rfl).symm.trans found)
    rfl
  have old : Old loggedOut.log 12 "ann" _ :=
    .issued ⟨_, System.mem_take.mpr ⟨5, by decide, rfl⟩, rfl⟩ rfl
  have cuts := reset_cuts_off_when_none_held changed loggedOut 2 _ _ _ "ann" _ .good 12 _
    (loggedIn_reach.trans (after_reach (fun _ _ _ => trivial) rfl)) rfl rfl rfl rfl clear loggedOut_reach
  exact cuts.1 3 later _ tokens _ (by decide +kernel) found request accepted old rfl rfl

/-- Ann has asked for a reset link and has entered her old password; the link has been used to set a new
one, and the records are about to be wiped. -/
def resetting : AuthConfig Realm := after start
  [.arrive (.forgotPassword "ann@mail"), .resume 0 .good, .resume 0 .good, .resume 0 .good, .resume 0 .good,
    .arrive (.login "ann@mail" "ann password"), .resume 1 .good, .resume 1 .good,
    .arrive (.resetPassword (.random ⟨0, 0⟩) "New Password 1!"), .resume 2 .good, .resume 2 .good, .resume 2 .good]

/-- The reset returns. Only then does the login save its session, and a later refresh presents it. -/
def survived : AuthConfig Realm := after (after resetting [.resume 2 .good])
  [.resume 1 .good, .resume 1 .good, .resume 1 .good, .resume 1 .good, .arrive (.refresh (session ann 1000)),
    .resume 3 .good, .resume 3 .good, .resume 3 .good, .resume 3 .good]

/-- The session of a login that was let in by the old password outlives the reset. -/
theorem reset_cuts_off_not_all :
    ¬ ResetCutsOff Realm.server platform options (fun _ _ _ => True) (fun _ _ => anyEvent) 1000 realm := by
  intro cuts
  have old : Old survived.log 8 "ann" _ := .password (p := 1) (System.mem_take.mpr ⟨5, by decide, rfl⟩) rfl
    ⟨_, List.mem_of_getElem? (show survived.log[13]? = some _ from rfl), rfl, rfl⟩
  exact (cuts resetting survived 2 _ _ _ "ann" _ .good 8 _ (after_reach (fun _ _ _ => trivial) rfl) rfl rfl rfl rfl
    trivial (after_reach (fun _ _ _ => trivial) rfl)).1 3 _ (session ann 1000) _ _ (by decide +kernel) rfl rfl rfl
    old rfl rfl

end Sample

end KeycloakAuth
