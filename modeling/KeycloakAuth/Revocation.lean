import KeycloakAuth.Redemption

namespace KeycloakAuth
open Async InMemoryTokenStore

section
variable {platform : Platform} {options : Deployment} {p : Nat} {request : Request}
  {history : List LogEntry} {call : Call}

/-- The calls that take a credential. -/
def Call.takes : Call → Bool
  | .store (.markConsumed _) => true
  | .auth (.authenticate _ _) => true
  | _ => false

theorem Phase.taking_first (takes : call.takes = true)
    (phase : Phase platform options p request history (.awaiting call)) :
    ∀ entry ∈ history, ∀ record, entry.call ≠ .store (.save record) := by
  cases request with
  | login email password =>
    cases phase with
    | checking passed => cases passed <;> simp
    | _ => cases takes
  | complete2FA token code =>
    cases phase with
    | taking => simp
    | _ => cases takes
  | refresh token =>
    cases phase with
    | taking => simp
    | _ => cases takes
  | verifyMagicLink token =>
    cases phase with
    | taking => simp
    | _ => cases takes
  | resetPassword token newPassword =>
    cases phase with
    | taking => simp
    | _ => cases takes
  | logout token =>
    cases phase with
    | taking => simp
    | _ => cases takes
  | forgotPassword email => cases phase <;> cases takes
  | sendMagicLink email => cases phase <;> cases takes
  | register email username password => cases phase <;> cases takes
  | setup2FA userId => cases phase <;> cases takes
  | verify2FA userId code => cases phase <;> cases takes

/-- A request that saves a record after taking one had found the one it took. -/
theorem Phase.saving_marked {new : TokenRecord} {id : Str} {t : Nat}
    (marked : markedEntry p id true t ∈ history)
    (phase : Phase platform options p request history (.awaiting (.store (.save new)))) :
    request.credential.isSome ∧
      ∃ token type record t', foundEntry p token type record t' ∈ history ∧ record.id = id := by
  rcases phase.saving_cases with ⟨_, _, record, _, presented, looked, -, -, -, only⟩ | ⟨-, untaken⟩
  · exact ⟨by rw [presented]; rfl, _, _, record, _, looked, (only _ _ marked).symm⟩
  · exact absurd marked (untaken _ _)

/-- What a login saves is filed for the user it has authenticated. -/
theorem Phase.saving_authenticated {new : TokenRecord} {email password : String} {result : AuthenticateResponse}
    {t : Nat} (accepted : ⟨p, .auth (.authenticate email password), .ok result, t⟩ ∈ history)
    (phase : Phase platform options p request history (.awaiting (.store (.save new)))) :
    new.userId = result.user.id := by
  cases request with
  | login email password =>
    cases phase with
    | challenging passed enrolled => cases passed <;> simp at accepted <;> simp [accepted]
    | saving passed notEnrolled => cases passed <;> simp at accepted <;> simp [accepted]
  | complete2FA token code => cases phase with | saving => simp at accepted
  | refresh token => cases phase with | saving => simp at accepted
  | verifyMagicLink token => cases phase with | saving => simp at accepted
  | forgotPassword email => cases phase with | saving => simp at accepted
  | sendMagicLink email => cases phase with | saving => simp at accepted
  | resetPassword token newPassword => cases phase
  | logout token => cases phase
  | register email username password => cases phase
  | setup2FA userId => cases phase
  | verify2FA userId code => cases phase

/-- A request that redeems a credential makes no further call once it has wiped a user's records. -/
theorem Phase.wiping_last (redeemer : request.credential.isSome)
    (phase : Phase platform options p request history (.awaiting call)) :
    ∀ entry ∈ history, ∀ userId, entry.call ≠ .store (.deleteAllForUser userId) := by
  cases request with
  | complete2FA token code => cases phase <;> simp
  | refresh token => cases phase <;> simp
  | verifyMagicLink token => cases phase <;> simp
  | resetPassword token newPassword => cases phase <;> simp
  | login email password => cases redeemer
  | logout token => cases redeemer
  | forgotPassword email => cases redeemer
  | sendMagicLink email => cases redeemer
  | register email username password => cases redeemer
  | setup2FA userId => cases redeemer
  | verify2FA userId code => cases redeemer

/-- Records are wiped only by requests that redeem a credential, and these check no password. -/
theorem Phase.wiping {userId : String}
    (phase : Phase platform options p request history (.awaiting (.store (.deleteAllForUser userId)))) :
    request.credential.isSome ∧ ∀ entry ∈ history, entry.call.takes = true →
      ∃ id, entry.call = .store (.markConsumed id) := by
  cases request with
  | refresh token => cases phase <;> simp [Request.credential, Call.takes]
  | resetPassword token newPassword => cases phase; simp [Request.credential, Call.takes]
  | complete2FA token code => cases phase
  | verifyMagicLink token => cases phase
  | login email password => cases phase
  | logout token => cases phase
  | forgotPassword email => cases phase
  | sendMagicLink email => cases phase
  | register email username password => cases phase
  | setup2FA userId => cases phase
  | verify2FA userId code => cases phase

end

def SavedBy (log : List LogEntry) (p : Nat) (original : TokenRecord) : Prop :=
  ∃ entry ∈ log, entry.request = p ∧ entry.call = .store (.save original)

theorem SavedBy.saved {log : List LogEntry} {p : Nat} {original : TokenRecord}
    (saved : SavedBy log p original) : Saved log original := by
  obtain ⟨entry, member, -, save⟩ := saved
  exact ⟨entry, member, save⟩

/-- The records that descend from the credentials user `u` had when the log was `cut` entries long: those
saved for `u` by then, and those saved by a request that has taken one of them or had its password
accepted by then. -/
inductive Old (log : List LogEntry) (cut : Nat) (u : String) : TokenRecord → Prop
  | issued {original} (saved : Saved (log.take cut) original) (own : original.userId = u) : Old log cut u original
  | password {p email password t original} {result : AuthenticateResponse}
      (accepted : ⟨p, .auth (.authenticate email password), .ok result, t⟩ ∈ log.take cut)
      (own : result.user.id = u) (saved : SavedBy log p original) : Old log cut u original
  | taken {p old t original} (descends : Old log cut u old) (marked : markedEntry p old.id true t ∈ log)
      (saved : SavedBy log p original) : Old log cut u original

theorem Old.saved {log : List LogEntry} {cut : Nat} {u : String} {original : TokenRecord}
    (old : Old log cut u original) : Saved log original := by
  cases old with
  | issued saved own => exact saved.mono (List.take_subset _ _)
  | password accepted own saved => exact saved.saved
  | taken descends marked saved => exact saved.saved

theorem Old.mono {log longer : List LogEntry} {cut : Nat} {u : String} {original : TokenRecord}
    (old : Old log cut u original) (bound : cut ≤ log.length) (extends_log : log <+: longer) :
    Old longer cut u original := by
  obtain ⟨more, rfl⟩ := extends_log
  have prior : (log ++ more).take cut = log.take cut := List.take_append_of_le_length bound
  have saves {p : Nat} {new : TokenRecord} (saved : SavedBy log p new) : SavedBy (log ++ more) p new := by
    obtain ⟨entry, member, own, save⟩ := saved
    exact ⟨entry, List.mem_append_left _ member, own, save⟩
  induction old with
  | issued saved own => exact .issued (prior.symm ▸ saved) own
  | password accepted own saved => exact .password (prior.symm ▸ accepted) own (saves saved)
  | taken descends marked saved ih => exact .taken ih (List.mem_append_left _ marked) (saves saved)

section
variable {κ : Type} {server : KeycloakServer κ} {platform : Platform} {options : Deployment}
  {permitted : AuthConfig κ → AuthEvent κ → Prop} {clock : Nat} {keycloak : κ} {cfg : AuthConfig κ}

/-- A request has taken its credential before it saves a record. -/
theorem reach_taken_before (reach : (authSystem server platform options).Reach permitted
    (.start clock (.fresh keycloak)) cfg) {entry : LogEntry} (member : entry ∈ cfg.log)
    (takes : entry.call.takes = true) {original : TokenRecord} (saved : SavedBy cfg.log entry.request original) :
    ∃ thread, cfg.threads[entry.request]? = some thread ∧ ∃ history, entry ∈ history ∧ history ⊆ cfg.log ∧
      Phase platform options entry.request thread.request history (.awaiting (.store (.save original))) := by
  obtain ⟨saving, inLog, own, save⟩ := saved
  obtain ⟨i, at_entry⟩ := List.mem_iff_getElem?.mp member
  obtain ⟨j, at_saving⟩ := List.mem_iff_getElem?.mp inLog
  rcases Nat.lt_trichotomy i j with less | same | more
  · obtain ⟨thread, at_request, phase⟩ := reach_phase_at reach at_saving
    rw [save, own] at phase
    rw [own] at at_request
    exact ⟨thread, at_request, _, System.mem_ownEntries.mpr ⟨System.mem_take.mpr ⟨i, less, at_entry⟩, rfl⟩,
      fun _ inHistory => List.mem_of_mem_take (System.mem_ownEntries.mp inHistory).1, phase⟩
  · subst same
    cases Option.some.inj (at_entry.symm.trans at_saving)
    rw [save] at takes
    cases takes
  · obtain ⟨_, _, phase⟩ := reach_phase_at reach at_entry
    have earlier := System.mem_ownEntries.mpr ⟨System.mem_take.mpr ⟨j, more, at_saving⟩, own⟩
    exact absurd save (phase.taking_first takes saving earlier original)

theorem Old.userId {cut : Nat} {u : String} {original : TokenRecord} (old : Old cfg.log cut u original)
    (reach : (authSystem server platform options).Reach permitted (.start clock (.fresh keycloak)) cfg) :
    original.userId = u := by
  induction old with
  | issued saved own => exact own
  | password accepted own saved =>
    obtain ⟨_, _, history, inHistory, -, phase⟩ :=
      reach_taken_before reach (List.mem_of_mem_take accepted) rfl saved
    exact (phase.saving_authenticated inHistory).trans own
  | @taken p old t original descends marked saved ih =>
    obtain ⟨_, _, history, inHistory, sub, phase⟩ := reach_taken_before reach marked rfl saved
    obtain ⟨-, token, type, record, t', looked, named⟩ := phase.saving_marked inHistory
    obtain ⟨k, at_lookup⟩ := List.mem_iff_getElem?.mp (sub looked)
    obtain ⟨found, saved, ⟨_, rfl⟩, -⟩ := reach_found reach (System.split_at at_lookup)
    have same := reach_saved_eq reach (saved.mono (List.take_subset _ _)) descends.saved named
    rw [(phase.saving_found looked).2.1, ← ih, ← same]

/-- Request `q` has taken an old credential of `u` and has not got to the end of what it does with it. -/
structure Holds (cfg : AuthConfig κ) (cut : Nat) (u : String) (q : Nat)
    (thread : Thread Call.Ans Thrown Request Response) (call : Call) : Prop where
  found : cfg.threads[q]? = some thread
  waiting : thread.state.view = .awaiting call
  unfinished : ∀ userId, call ≠ .store (.deleteAllForUser userId)
  took : (thread.request.credential.isSome ∧
      ∃ old t, Old cfg.log cut u old ∧ markedEntry q old.id true t ∈ cfg.log) ∨
    ∃ email password t, ∃ result : AuthenticateResponse,
      ⟨q, .auth (.authenticate email password), .ok result, t⟩ ∈ cfg.log.take cut ∧ result.user.id = u

/-- The request has ended, or it has nothing left to do but wipe records. -/
def Idle (thread : Thread Call.Ans Thrown Request Response) : Bool :=
  match thread.state.view with
  | .awaiting (.store (.deleteAllForUser _)) => true
  | .awaiting _ => false
  | _ => true

theorem Holds.not_idle {cut : Nat} {u : String} {q : Nat} {thread : Thread Call.Ans Thrown Request Response}
    {call : Call} (holds : Holds cfg cut u q thread call) : cfg.threads.all Idle = false := by
  refine List.all_eq_false.mpr ⟨thread, List.mem_of_getElem? holds.found, ?_⟩
  unfold Idle
  rw [holds.waiting]
  split
  · rename_i userId same
    exact absurd (View.awaiting.inj same) (holds.unfinished userId)
  · simp
  · rename_i _ other
    exact absurd rfl (other call)

/-- Nothing is left of the old credentials of `u`: they are off the file, and no request holds one. -/
structure Revoked (cfg : AuthConfig κ) (cut : Nat) (u : String) : Prop where
  bound : cut ≤ cfg.log.length
  offFile : ∀ record ∈ cfg.shared.store.records, ∀ old, Old cfg.log cut u old → record.id ≠ old.id
  released : ∀ q thread call, ¬ Holds cfg cut u q thread call

/-- No further record descends from the old credentials if no holder saves one and none of them is taken. -/
theorem Old.of_append {log : List LogEntry} {entry : LogEntry} {cut : Nat} {u : String} {original : TokenRecord}
    (old : Old (log ++ [entry]) cut u original) (bound : cut ≤ log.length)
    (untaken : ∀ old t, Old log cut u old → entry ≠ markedEntry entry.request old.id true t)
    (released : ∀ new, entry.call = .store (.save new) →
      (∀ old t, Old log cut u old → markedEntry entry.request old.id true t ∉ log) ∧
      ∀ email password (result : AuthenticateResponse) t,
        ⟨entry.request, .auth (.authenticate email password), .ok result, t⟩ ∈ log.take cut → result.user.id ≠ u) :
    Old log cut u original := by
  have prior : (log ++ [entry]).take cut = log.take cut := List.take_append_of_le_length bound
  have split {p : Nat} {new : TokenRecord} (saved : SavedBy (log ++ [entry]) p new) :
      SavedBy log p new ∨ (entry.request = p ∧ entry.call = .store (.save new)) := by
    obtain ⟨saving, member, own, save⟩ := saved
    rcases List.mem_append.mp member with earlier | last
    · exact .inl ⟨saving, earlier, own, save⟩
    · rw [List.mem_singleton.mp last] at own save
      exact .inr ⟨own, save⟩
  induction old with
  | issued saved own => exact .issued (prior ▸ saved) own
  | @password p email password t original result accepted own saved =>
    rw [prior] at accepted
    rcases split saved with earlier | ⟨rfl, save⟩
    · exact .password accepted own earlier
    · exact absurd own ((released _ save).2 email password result t accepted)
  | @taken p old t original descends marked saved ih =>
    rcases List.mem_append.mp marked with before | last
    · rcases split saved with earlier | ⟨rfl, save⟩
      · exact .taken ih before earlier
      · exact absurd before ((released _ save).1 old t ih)
    · have same := List.mem_singleton.mp last
      refine absurd same.symm ?_
      have own : entry.request = p := by rw [← same]
      rw [← own]
      exact untaken old t ih

/-- No record of an old credential is taken by the next answer, for none is on file. -/
theorem Revoked.untaken {q : Nat} {call : Call} {choice : Plan} {cut : Nat}
    {u : String} (revoked : Revoked cfg cut u)
    (old : TokenRecord) (t : Nat) (descends : Old cfg.log cut u old) :
    (⟨q, call, (answerCall server platform options choice cfg.clock q call cfg.shared).1, cfg.clock⟩ : LogEntry) ≠
      markedEntry q old.id true t := by
  intro same
  obtain ⟨-, rfl, answer, -⟩ := Entry.mk.inj same
  have answered : (answerCall server platform options choice cfg.clock q (.store (.markConsumed old.id))
    cfg.shared).1 = .ok true := eq_of_heq answer
  obtain ⟨⟨record, member, named, -⟩, -⟩ := answerCall_marked answered
  exact revoked.offFile record member old descends named

section
variable {q : Nat} {thread : Thread Call.Ans Thrown Request Response} {call : Call}
  {rest : Except Thrown call.Ans → Service Response} {choice : Plan} {cut : Nat} {u : String}

theorem Revoked.unholding (revoked : Revoked cfg cut u) (found : cfg.threads[q]? = some thread)
    (waiting : thread.state = .awaiting call rest) (unfinished : ∀ userId,
      call ≠ .store (.deleteAllForUser userId)) :
    ¬ ((thread.request.credential.isSome ∧
        ∃ old t, Old cfg.log cut u old ∧ markedEntry q old.id true t ∈ cfg.log) ∨
      ∃ email password t, ∃ result : AuthenticateResponse,
        ⟨q, .auth (.authenticate email password), .ok result, t⟩ ∈ cfg.log.take cut ∧
          result.user.id = u) := fun took =>
  revoked.released q thread call ⟨found, by rw [waiting]; rfl, unfinished, took⟩

/-- Nor does the answer make a credential old that was not. -/
theorem Revoked.old_before
    (reach : (authSystem server platform options).Reach permitted (.start clock (.fresh keycloak)) cfg)
    (revoked : Revoked cfg cut u) (found : cfg.threads[q]? = some thread)
    (waiting : thread.state = .awaiting call rest) {old : TokenRecord}
    (descends : Old ((authSystem server platform options).resume cfg q thread call rest choice).log cut u old) :
    Old cfg.log cut u old := by
  have phase := reach_phase reach found
  rw [waiting] at phase
  refine descends.of_append revoked.bound revoked.untaken ?_
  rintro new (rfl : call = _)
  constructor
  · intro old t earlier marked
    have own := System.mem_history.mpr ⟨marked, rfl⟩
    exact revoked.unholding found waiting (by simp) (.inl ⟨(phase.saving_marked own).1, old, t, earlier, marked⟩)
  · intro email password result t accepted own
    exact revoked.unholding found waiting (by simp) (.inr ⟨email, password, t, result, accepted, own⟩)

theorem Revoked.resume
    (reach : (authSystem server platform options).Reach permitted (.start clock (.fresh keycloak)) cfg)
    (revoked : Revoked cfg cut u) (found : cfg.threads[q]? = some thread)
    (waiting : thread.state = .awaiting call rest)
    (after : (authSystem server platform options).Reach permitted (.start clock (.fresh keycloak))
      ((authSystem server platform options).resume cfg q thread call rest choice)) :
    Revoked ((authSystem server platform options).resume cfg q thread call rest choice) cut u ∧
      ∀ old, Old ((authSystem server platform options).resume cfg q thread call rest choice).log cut u old →
        Old cfg.log cut u old := by
  set S := authSystem server platform options
  set next := S.resume cfg q thread call rest choice
  let entry : LogEntry := ⟨q, call, (S.perform choice cfg.clock q call cfg.shared).1, cfg.clock⟩
  have log : next.log = cfg.log ++ [entry] := rfl
  have phase := reach_phase reach found
  rw [waiting] at phase
  have fewer (old : TokenRecord) (descends : Old next.log cut u old) : Old cfg.log cut u old :=
    revoked.old_before reach found waiting descends
  refine ⟨⟨?_, ?_, ?_⟩, fewer⟩
  · rw [log, List.length_append]
    exact Nat.le_trans revoked.bound (Nat.le_add_right _ _)
  · intro record member old descends
    rcases answerCall_records member with ⟨earlier, inStore, _, rfl, -⟩ | ⟨new, rfl, rfl⟩
    · exact revoked.offFile earlier inStore old (fewer old descends)
    · exact (reach_save_fresh reach found waiting old (fewer old descends).saved).symm
  · intro q' thread' call' holds
    obtain ⟨found', waiting', unfinished', took'⟩ := holds
    have inLog {email password : String} {result : AuthenticateResponse} {t : Nat}
        (accepted : ⟨q', .auth (.authenticate email password), .ok result, t⟩ ∈ next.log.take cut) :
        ⟨q', .auth (.authenticate email password), .ok result, t⟩ ∈ cfg.log.take cut := by
      rw [log, List.take_append_of_le_length revoked.bound] at accepted
      exact accepted
    have before {old : TokenRecord} {t : Nat} (descends : Old cfg.log cut u old)
        (marked : markedEntry q' old.id true t ∈ next.log) : markedEntry q' old.id true t ∈ cfg.log := by
      rcases List.mem_append.mp marked with earlier | last
      · exact earlier
      · have same := List.mem_singleton.mp last
        obtain rfl : q' = q := (Entry.mk.inj same).1
        exact absurd same.symm (revoked.untaken old t descends)
    by_cases own : q = q'
    · subst own
      have bound := (List.getElem?_eq_some_iff.mp found).1
      cases Option.some.inj ((List.getElem?_set_self bound).symm.trans found')
      have phase' := reach_phase after found'
      rw [waiting', System.resume_history_self] at phase'
      rcases took' with ⟨redeemer, old, t, descends, marked⟩ | ⟨email, password, t, result, accepted, own⟩
      · refine revoked.unholding found waiting ?_
          (.inl ⟨redeemer, old, t, fewer old descends, before (fewer old descends) marked⟩)
        rintro userId rfl
        exact phase'.wiping_last redeemer _ (List.mem_append_right _ (List.mem_singleton_self _)) userId rfl
      · refine revoked.unholding found waiting ?_ (.inr ⟨email, password, t, result, inLog accepted, own⟩)
        rintro userId rfl
        have earlier := System.mem_history.mpr ⟨List.mem_of_mem_take (inLog accepted), rfl⟩
        obtain ⟨id, no⟩ := phase.wiping.2 _ earlier rfl
        cases no
    · have kept : cfg.threads[q']? = some thread' := (List.getElem?_set_ne own).symm.trans found'
      refine revoked.released q' thread' call' ⟨kept, waiting', unfinished', ?_⟩
      rcases took' with ⟨redeemer, old, t, descends, marked⟩ | ⟨email, password, t, result, accepted, own⟩
      · exact .inl ⟨redeemer, old, t, fewer old descends, before (fewer old descends) marked⟩
      · exact .inr ⟨email, password, t, result, inLog accepted, own⟩

end

/-- What is left of the old credentials stays gone in every later run. -/
theorem Revoked.run {final : AuthConfig κ} {cut : Nat} {u : String} (revoked : Revoked cfg cut u)
    (reach : (authSystem server platform options).Reach anyEvent (.start clock (.fresh keycloak)) cfg)
    (later : (authSystem server platform options).Reach permitted cfg final) :
    Revoked final cut u ∧ ∀ old, Old final.log cut u old → Old cfg.log cut u old := by
  induction later with
  | start => exact ⟨revoked, fun _ old => old⟩
  | @next before after event previous allowed step ih =>
    obtain ⟨revoked, fewer⟩ := ih
    have reached := reach.trans previous.any
    rcases System.advance_cases step with ⟨_, _, rfl⟩ | ⟨change, _, rfl⟩ | ⟨request, _, rfl⟩ |
      ⟨q, choice, thread, call, rest, rfl, found, waiting, rfl⟩
    · exact ⟨⟨revoked.bound, revoked.offFile, fun q thread call holds =>
        revoked.released q thread call ⟨holds.found, holds.waiting, holds.unfinished, holds.took⟩⟩, fewer⟩
    · exact ⟨⟨revoked.bound, fun record member => revoked.offFile record
        (disturb_records server platform options member),
        fun q thread call holds =>
          revoked.released q thread call ⟨holds.found, holds.waiting, holds.unfinished, holds.took⟩⟩, fewer⟩
    · refine ⟨⟨revoked.bound, revoked.offFile, fun q thread call holds => ?_⟩, fewer⟩
      have own {entry : LogEntry} (member : entry ∈ before.log) (same : entry.request = q) :
          q < before.threads.length := same ▸ reached.request_lt entry member
      have old : q < before.threads.length := by
        rcases holds.took with ⟨_, _, _, _, marked⟩ | ⟨_, _, _, _, accepted, _⟩
        · exact own marked rfl
        · exact own (List.mem_of_mem_take accepted) rfl
      refine revoked.released q thread call ⟨?_, holds.waiting, holds.unfinished, holds.took⟩
      exact (List.getElem?_append_left old).symm.trans holds.found
    · obtain ⟨revoked, same⟩ := revoked.resume reached found waiting (reached.next trivial step)
      exact ⟨revoked, fun old descends => fewer old (same old descends)⟩

/-- Wiping the records of `u` revokes its old credentials, if no request holds one at that moment. -/
theorem Revoked.of_wipe {p : Nat} {thread : Thread Call.Ans Thrown Request Response} (choice : Plan) {cut : Nat}
    {u : String} {rest : Except Thrown (Call.Ans (.store (.deleteAllForUser u))) → Service Response}
    (reach : (authSystem server platform options).Reach anyEvent (.start clock (.fresh keycloak)) cfg)
    (found : cfg.threads[p]? = some thread)
    (wiping : thread.state = .awaiting (.store (.deleteAllForUser u)) rest) (bound : cut ≤ cfg.log.length)
    (clear : ∀ q thread call, ¬ Holds cfg cut u q thread call) :
    Revoked ((authSystem server platform options).resume cfg p thread (.store (.deleteAllForUser u)) rest choice)
      cut u := by
  set S := authSystem server platform options
  set next := S.resume cfg p thread (.store (.deleteAllForUser u)) rest choice
  let entry : LogEntry := ⟨p, .store (.deleteAllForUser u), .ok (), cfg.clock⟩
  have log : next.log = cfg.log ++ [entry] := rfl
  have after : S.Reach anyEvent (.start clock (.fresh keycloak)) next :=
    reach.next trivial (System.advance_resume choice found wiping)
  have fewer (old : TokenRecord) (descends : Old next.log cut u old) : Old cfg.log cut u old := by
    refine descends.of_append bound ?_ ?_
    · intro _ _ _ same
      cases (Entry.mk.inj same).2.1
    · intro _ save
      cases save
  have phase := reach_phase reach found
  rw [wiping] at phase
  refine ⟨by rw [log, List.length_append]; omega, fun record member old descends named => ?_, ?_⟩
  · simp only [next, System.resume, S, authSystem, answerCall, answerStore, deleteAllForUser_records] at member
    obtain ⟨inStore, kept⟩ := List.mem_filter.mp member
    obtain ⟨original, saved, ⟨_, rfl⟩⟩ := (reach_ledger reach).stems record inStore
    have same := reach_saved_eq reach saved (fewer old descends).saved named
    have own := (fewer old descends).userId reach
    rw [← same] at own
    simp [own] at kept
  · intro q thread' call holds
    obtain ⟨found', waiting', unfinished', took'⟩ := holds
    by_cases own : p = q
    · subst own
      have phase' := reach_phase after found'
      rw [waiting', System.resume_history_self] at phase'
      have sameRequest : thread'.request = thread.request := by
        have bound := (List.getElem?_eq_some_iff.mp found).1
        cases Option.some.inj ((List.getElem?_set_self bound).symm.trans found')
        rfl
      exact phase'.wiping_last (sameRequest ▸ phase.wiping.1) _
        (List.mem_append_right _ (List.mem_singleton_self _)) u rfl
    · have kept : cfg.threads[q]? = some thread' := (List.getElem?_set_ne own).symm.trans found'
      refine clear q thread' call ⟨kept, waiting', unfinished', ?_⟩
      rcases took' with ⟨redeemer, old, t, descends, marked⟩ | ⟨email, password, t, result, accepted, user⟩
      · refine .inl ⟨redeemer, old, t, fewer old descends, ?_⟩
        rcases List.mem_append.mp marked with earlier | last
        · exact earlier
        · exact absurd (Entry.mk.inj (List.mem_singleton.mp last)).1.symm own
      · rw [log, List.take_append_of_le_length bound] at accepted
        exact .inr ⟨email, password, t, result, accepted, user⟩

/-- Once old credentials are revoked, no redemption takes a record that descends from them. -/
theorem Revoked.redemption {final : AuthConfig κ} {cut : Nat} {u : String} (revoked : Revoked cfg cut u)
    (reach : (authSystem server platform options).Reach anyEvent (.start clock (.fresh keycloak)) cfg)
    (later : (authSystem server platform options).Reach permitted cfg final) {i : Nat} {entry : LogEntry}
    (after : cfg.log.length ≤ i) (at_entry : final.log[i]? = some entry) (redeems : entry.call.redeems = true)
    {id : Str} {t : Nat} (marked : markedEntry entry.request id true t ∈ final.log.take i) {old : TokenRecord}
    (descends : Old final.log cut u old) : old.id ≠ id := by
  rintro rfl
  obtain ⟨middle, thread, rest, choice, early, -, found, waiting, log, -, -⟩ := later.step_at at_entry after
  have revokedThere := (revoked.run reach early).1
  have phase := reach_phase (reach.trans early.any) found
  rw [waiting] at phase
  obtain ⟨_, _, _, _, _, presented, _⟩ := phase.redeeming redeems
  have descended := ((revoked.run reach later).2 old descends).mono revoked.bound early.log_prefix
  refine revokedThere.released entry.request thread entry.call ⟨found, by rw [waiting]; rfl, ?_,
    .inl ⟨by rw [presented]; rfl, old, t, descended, log ▸ marked⟩⟩
  intro userId wipes
  rw [wipes] at redeems
  cases redeems

end

end KeycloakAuth
