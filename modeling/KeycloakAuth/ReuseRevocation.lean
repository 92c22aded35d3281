import KeycloakAuth.Revocation

namespace KeycloakAuth
open Async

section
variable {κ : Type}

/-- Only refresh requests arrive. -/
def onlyRefreshes (_ : AuthConfig κ) : AuthEvent κ → Prop
  | .arrive request => ∃ token, request = .refresh token
  | _ => True

/-- A refresh token of `u` is on the log. -/
def IssuedTo (log : List LogEntry) (u : String) (token : Str) : Prop :=
  ∃ original, Saved log original ∧ original.type = .refreshToken ∧ original.userId = u ∧ original.token = token

/-- No request has taken a refresh token of `u` without having saved the next one or failed. -/
def NoneRotating (cfg : AuthConfig κ) (u : String) : Prop :=
  ∀ q thread call, ¬ Holds cfg cfg.log.length u q thread call

variable (server : KeycloakServer κ) (platform : Platform) (options : Deployment)

/-- In every run of concurrent refreshes from `base`: after a refresh has wiped the records of `u` in a
configuration that meets `condition`, and once the requests in flight then have finished, no refresh token
issued to `u` by then is accepted by a later refresh. -/
def RevocationFinal (condition : AuthConfig κ → String → Prop) (base : AuthConfig κ) : Prop :=
  ∀ before settled final p thread token u rest choice,
    (authSystem server platform options).Reach onlyRefreshes base before →
    before.threads[p]? = some thread → thread.request = .refresh token →
    thread.state = .awaiting (.store (.deleteAllForUser u)) rest → condition before u →
    (authSystem server platform options).Reach onlyRefreshes ((authSystem server platform options).resume before p
      thread (.store (.deleteAllForUser u)) rest choice) settled →
    (∀ q < before.threads.length, ∀ other, settled.threads[q]? = some other → other.state.finished = true) →
    (authSystem server platform options).Reach onlyRefreshes settled final →
    ∀ q later t tokens, settled.threads.length ≤ q → final.threads[q]? = some later → later.request = .refresh t →
      IssuedTo settled.log u t → later.state.view ≠ .returned (.refresh tokens)

variable {server platform options} {permitted : AuthConfig κ → AuthEvent κ → Prop} {clock : Nat} {keycloak : κ}
  {base cfg final : AuthConfig κ}

/-- Two records of one refresh token are filed for one user. -/
theorem Session.userId_eq {first second : TokenRecord} (one : Session options first) (two : Session options second)
    (same : first.token = second.token) : first.userId = second.userId := by
  obtain ⟨user, issuedAt, _, named, signed, _⟩ := one
  obtain ⟨user', issuedAt', _, named', signed', _⟩ := two
  rw [signed, signed'] at same
  have sub := congrArg TokenPayload.sub (Str.jwt.inj same).2
  rw [← named, ← named']
  exact sub

/-- Where only refreshes are served, every session of `u` descends from its old ones. -/
theorem only_old_sessions {cut : Nat} {u : String}
    (reach : (authSystem server platform options).Reach anyEvent (.start clock (.fresh keycloak)) base)
    (quiet : base.Quiet) (early : (authSystem server platform options).Reach onlyRefreshes base cfg)
    (later : (authSystem server platform options).Reach onlyRefreshes cfg final) (bound : cut ≤ cfg.log.length)
    (start : ∀ original, Saved cfg.log original → original.userId = u → Old cfg.log cut u original) :
    ∀ original, Saved final.log original → original.userId = u → Old final.log cut u original := by
  induction later with
  | start => exact start
  | @next before after event previous allowed step ih =>
    have bound' := Nat.le_trans bound previous.log_prefix.length_le
    rcases System.advance_cases step with ⟨_, _, rfl⟩ | ⟨_, _, rfl⟩ | ⟨_, _, rfl⟩ |
      ⟨q, choice, thread, call, rest, rfl, found, waiting, rfl⟩
    · exact ih
    · exact ih
    · exact ih
    intro original saved own
    obtain ⟨entry, member, save⟩ := saved
    have sub : before.log <+: ((authSystem server platform options).resume before q thread call rest choice).log :=
      List.prefix_append _ _
    rcases List.mem_append.mp member with earlier | last
    · exact (ih original ⟨entry, earlier, save⟩ own).mono bound' sub
    have new := List.mem_singleton.mp last
    rw [new] at save
    subst save
    have run := early.trans previous
    obtain ⟨token, refresh⟩ := run.arrived quiet (fun request => ∃ token, request = .refresh token)
      (fun _ _ fine => fine) found (by rw [waiting]; rfl)
    have reached := reach.trans run.any
    have phase := reach_phase reached found
    rw [waiting, refresh] at phase
    generalize own_log : before.history q = history at phase
    cases phase with
    | @saving record tokens t t' now unused alive =>
      have inLog {earlier : LogEntry} (own : earlier ∈ before.history q) : earlier ∈ before.log :=
        (System.mem_history.mp own).1
      rw [own_log] at inLog
      obtain ⟨k, at_lookup⟩ := List.mem_iff_getElem?.mp (inLog (List.mem_cons_self ..))
      obtain ⟨found, saved, ⟨_, rfl⟩, -⟩ := reach_found reached (System.split_at at_lookup)
      have descends := ih found (saved.mono (List.take_subset _ _)) own
      have marked := sub.subset (inLog (List.mem_cons_of_mem _ (List.mem_cons_self ..)))
      exact .taken (descends.mono bound' sub) marked ⟨entry, member, by rw [new], by rw [new]⟩

/-- A refresh that was accepted and has arrived after `cfg` has taken a record of its token since. -/
theorem accepted_refresh
    (reach : (authSystem server platform options).Reach anyEvent (.start clock (.fresh keycloak)) cfg)
    (late : (authSystem server platform options).Reach permitted cfg final) {q : Nat}
    {later : Thread Call.Ans Thrown Request Response} {t : Str} {tokens : SessionResponse}
    (arrived : cfg.threads.length ≤ q) (at_later : final.threads[q]? = some later)
    (presents : later.request = .refresh t) (accepted : later.state.view = .returned (.refresh tokens)) :
    ∃ i entry original record k found_at marked_at, cfg.log.length ≤ i ∧ final.log[i]? = some entry ∧
      entry.call.redeems = true ∧ markedEntry entry.request original.id true marked_at ∈ final.log.take i ∧
      Saved final.log original ∧ original.type = .refreshToken ∧ original.token = t ∧ cfg.log.length ≤ k ∧
      final.log[k]? = some (foundEntry q t .refreshToken record found_at) ∧ record.Stems original := by
  have reached := reach.trans late.any
  have phase := reach_phase reached at_later
  rw [presents, accepted] at phase
  generalize own_log : final.history q = history at phase
  cases phase with
  | @returned _ answered _ _ now _ =>
  have member : (⟨q, .auth (.refreshToken t), .ok answered, now⟩ : LogEntry) ∈ final.log :=
    (System.mem_history.mp (by rw [own_log]; simp)).1
  obtain ⟨i, at_entry⟩ := List.mem_iff_getElem?.mp member
  obtain ⟨thread, original, record, k, found_at, marked_at, at_request, redemption, -, at_lookup, stems, saved⟩ :=
    reach_taken reached at_entry rfl
  cases Option.some.inj (at_later.symm.trans at_request)
  have presented := redemption.presented
  rw [presents] at presented
  obtain ⟨typed, same⟩ := Prod.mk.inj (Option.some.inj presented)
  have marked := redemption.marked
  rw [stems.id_eq] at marked
  rw [← typed, ← same] at at_lookup
  exact ⟨i, _, original, record, k, found_at, marked_at,
    reach.entry_after late at_entry arrived, at_entry, rfl, marked,
    saved.mono (List.take_subset _ _), typed.symm, same.symm,
      reach.entry_after late at_lookup arrived, at_lookup, stems⟩

/-- No request that has taken a refresh token of `u` is under way when its records are wiped: then the
revocation is final. -/
theorem reuse_revocation_final_when_none_rotating
    (reach : (authSystem server platform options).Reach anyEvent (.start clock (.fresh keycloak)) base)
    (quiet : base.Quiet) : RevocationFinal server platform options NoneRotating base := by
  intro before settled final p thread token u rest choice early found _ wiping clear settling _ late q later t tokens
    arrived at_later presents ⟨issued, saved, typed, own, same⟩ accepted
  have reached := reach.trans early.any
  have wiped := reached.next trivial (System.advance_resume choice found wiping)
  have revoked := Revoked.of_wipe choice reached found wiping (Nat.le_refl _) clear
  have run := settling.trans late
  have end_reached := wiped.trans run.any
  obtain ⟨i, entry, original, _, _, _, _, after, at_entry, redeems, marked, filed, refreshes, sameToken, _⟩ :=
    accepted_refresh (wiped.trans settling.any) late arrived at_later presents accepted
  have owner : original.userId = u := by
    have session := reach_session end_reached filed refreshes
    have issuedSession := reach_session (wiped.trans settling.any) saved typed
    exact (session.userId_eq issuedSession (sameToken.trans same.symm)).trans own
  have start : ∀ original, Saved before.log original → original.userId = u →
      Old before.log before.log.length u original := by
    intro original saved own
    exact .issued (by rwa [List.take_length]) own
  have wipe : (authSystem server platform options).Reach onlyRefreshes before _ :=
    .next .start (show onlyRefreshes before (.resume p choice) from trivial)
      (System.advance_resume choice found wiping)
  have descends := only_old_sessions reach quiet early (wipe.trans run) (Nat.le_refl _) start original filed owner
  exact revoked.redemption wiped run (Nat.le_trans settling.log_prefix.length_le after) at_entry redeems marked
    descends rfl

end

namespace Sample

/-- Ann's client has rotated her session, and her first token is presented again. -/
def detected : AuthConfig Realm := after loggedIn
  [.tick 2000, .arrive (.refresh (session ann 1000)), .resume 1 .good, .resume 1 .good, .resume 1 .good,
    .resume 1 .good, .arrive (.refresh (session ann 1000)), .resume 2 .good]

/-- The records are wiped, and then the rotated token is presented. -/
def refused : AuthConfig Realm := after (after detected [.resume 2 .good])
  [.arrive (.refresh (session ann 3000)), .resume 3 .good]

theorem detected_none_rotating : NoneRotating detected "ann" := by
  intro q thread call holds
  cases (show detected.threads.all Idle = true from rfl).symm.trans holds.not_idle

theorem reuse_revocation_final_when_none_rotating_refused :
    ¬ ∃ later tokens, refused.threads[3]? = some later ∧ later.state.view = .returned (.refresh tokens) := by
  intro served
  obtain ⟨later, tokens, found, accepted⟩ := served
  have finished : (after detected [.resume 2 .good]).threads.all (·.state.finished) = true := rfl
  have request : later.request = .refresh (session ann 3000) := by
    cases Option.some.inj ((show refused.threads[3]? = some _ from rfl).symm.trans found)
    rfl
  exact reuse_revocation_final_when_none_rotating loggedIn_reach loggedIn_quiet detected
    (after detected [.resume 2 .good]) refused 2 _ _ "ann" _ .good (after_reach (by simp [onlyRefreshes]) rfl)
    rfl rfl rfl detected_none_rotating .start
    (fun q _ other found => List.all_eq_true.mp finished other (List.mem_of_getElem? found))
    (after_reach (by simp [onlyRefreshes]) rfl) 3 later _ tokens (by decide +kernel) found request
    ⟨_, ⟨_, List.mem_of_getElem? (show (after detected [.resume 2 .good]).log[9]? = some _ from rfl), rfl⟩,
      rfl, rfl, rfl⟩ accepted

/-- Two refreshes with Ann's first token: the first takes it, the second finds it taken. -/
def racing : AuthConfig Realm := after loggedIn
  [.tick 2000, .arrive (.refresh (session ann 1000)), .arrive (.refresh (session ann 1000)),
    .resume 1 .good, .resume 2 .good, .resume 1 .good, .resume 2 .good]

/-- The second wipes Ann's records, and the first saves its new token after that. -/
def outlived : AuthConfig Realm := after (after racing [.resume 2 .good]) [.resume 1 .good, .resume 1 .good]

/-- A later refresh presents the token that the first has returned. -/
def accepted : AuthConfig Realm := after outlived
  [.arrive (.refresh (session ann 3000)), .resume 3 .good, .resume 3 .good, .resume 3 .good, .resume 3 .good]

/-- The request that loses the race wipes the records before the winner has saved its token, and that
token goes on being accepted. -/
theorem revocation_not_final : ¬ RevocationFinal Realm.server platform options (fun _ _ => True) loggedIn := by
  intro final
  have finished : outlived.threads.all (·.state.finished) = true := rfl
  exact final racing outlived accepted 2 _ _ "ann" _ .good (after_reach (by simp [onlyRefreshes]) rfl) rfl rfl rfl
    trivial (after_reach (by simp [onlyRefreshes]) rfl)
    (fun q _ other found => List.all_eq_true.mp finished other (List.mem_of_getElem? found))
    (after_reach (by simp [onlyRefreshes]) rfl) 3 _ (session ann 3000) _ (by decide +kernel) rfl rfl
    ⟨_, ⟨_, List.mem_of_getElem? (show outlived.log[12]? = some _ from rfl), rfl⟩, rfl, rfl, rfl⟩ rfl

end Sample

end KeycloakAuth
