import KeycloakAuth.Chains
import KeycloakAuth.ReuseRevocation

namespace KeycloakAuth
open Async Service InMemoryTokenStore

section
variable {κ : Type}

/-- The session that begins with `root` is over: none of its records is left unconsumed, and no refresh that
has taken one is under way. -/
structure Over (cfg : AuthConfig κ) (root : TokenRecord) : Prop where
  opened : Saved cfg.log root
  spent : ∀ original, Chain cfg.log root original → ∀ record ∈ cfg.shared.store.records, record.id = original.id →
    record.consumedAt.isSome = true
  released : ∀ q thread token original t, cfg.threads[q]? = some thread → thread.request = .refresh token →
    Chain cfg.log root original → markedEntry q original.id true t ∈ cfg.log → thread.state.finished = true

/-- Some request other than a refresh has opened a session with `root`. -/
def Opens (cfg : AuthConfig κ) (root : TokenRecord) : Prop :=
  root.type = .refreshToken ∧ ∃ p thread, SavedBy cfg.log p root ∧ cfg.threads[p]? = some thread ∧
    ∀ token, thread.request ≠ .refresh token

/-- No token of the session is the very token of another session, as it is when both are signed for the same
claims within one second. -/
def Apart (root : TokenRecord) (log : List LogEntry) : Prop :=
  ∀ own other, Chain log root own → Saved log other → other.type = .refreshToken → other.token = own.token →
    Chain log root other

/-- Where logout `p` looks its token up, the record that stands for it has not been consumed, and neither has
it where the logout consumes it; or else the session is over by then. -/
def UnusedOrOver (p : Nat) (root : TokenRecord) (cfg : AuthConfig κ) (event : AuthEvent κ) : Prop :=
  ∀ choice thread call, event = .resume p choice → cfg.threads[p]? = some thread →
    thread.state.view = .awaiting call → Over cfg root ∨
      (∀ token, call = .store (.findByToken token .refreshToken) →
        ∃ record, cfg.shared.store.findByToken token .refreshToken = some record ∧ record.consumedAt = none) ∧
      ∀ id, call = .store (.markConsumed id) →
        ∃ record ∈ cfg.shared.store.records, record.id = id ∧ record.consumedAt = none

variable (server : KeycloakServer κ) (platform : Platform) (options : Deployment)

/-- A refresh with a token of the session that begins with `root` is accepted which had not ended in `ended`. -/
def AcceptedAfter (ended final : AuthConfig κ) (root : TokenRecord) : Prop :=
  ∃ (q : Nat) (thread : Thread Call.Ans Thrown Request Response) (t : Str) (tokens : SessionResponse)
    (own : TokenRecord), (∀ earlier ∈ ended.threads[q]?, earlier.state.finished = false) ∧
    final.threads[q]? = some thread ∧ thread.request = .refresh t ∧
      thread.state.view = .returned (.refresh tokens) ∧
    Chain final.log root own ∧ own.token = t

/-- In every run: let logout `p` have completed with a token of the session that begins with `root`, and let the
steps until then be `permitted` and the logs meet `condition`. Then no token of the session is accepted any
more. -/
def LogoutEnds (permitted : Nat → TokenRecord → AuthConfig κ → AuthEvent κ → Prop)
    (condition : TokenRecord → List LogEntry → Prop) (clock : Nat) (keycloak : κ) : Prop :=
  ∀ (ended final : AuthConfig κ) (p : Nat) (thread : Thread Call.Ans Thrown Request Response) (token : Str)
    (root original : TokenRecord),
    (authSystem server platform options).Reach (permitted p root) (.start clock (.fresh keycloak)) ended →
    ended.threads[p]? = some thread → thread.request = .logout token → thread.state.view = .returned .loggedOut →
    Opens ended root → Chain ended.log root original → original.token = token →
    (authSystem server platform options).Reach anyEvent ended final →
    condition root ended.log → condition root final.log → ¬ AcceptedAfter ended final root

variable {server platform options} {permitted : AuthConfig κ → AuthEvent κ → Prop} {clock : Nat} {keycloak : κ}
  {cfg closed ended final : AuthConfig κ} {root : TokenRecord}

/-- A record is taken while it is on file unconsumed. -/
theorem reach_marking {i p t : Nat} {id : Str}
    (run : (authSystem server platform options).Reach permitted cfg final)
    (marked : final.log[i]? = some (markedEntry p id true t)) (after : cfg.log.length ≤ i) :
    ∃ middle, (authSystem server platform options).Reach permitted cfg middle ∧
      ∃ record ∈ middle.shared.store.records, record.id = id ∧ record.consumedAt = none := by
  obtain ⟨middle, thread, rest, choice, early, -, -, -, -, answer, -⟩ := run.step_at marked after
  have answered : (answerCall server platform options choice middle.clock p (.store (.markConsumed id))
    middle.shared).1 = .ok true := answer
  exact ⟨middle, early, (answerCall_marked answered).1⟩

/-- A refresh that was accepted has taken a record of its token. -/
theorem reach_accepted
    (reach : (authSystem server platform options).Reach permitted (.start clock (.fresh keycloak)) cfg) {q : Nat}
    {thread : Thread Call.Ans Thrown Request Response} {t : Str} {tokens : SessionResponse}
    (found : cfg.threads[q]? = some thread) (presents : thread.request = .refresh t)
    (accepted : thread.state.view = .returned (.refresh tokens)) :
    ∃ original t', Saved cfg.log original ∧ original.type = .refreshToken ∧ original.token = t ∧
      markedEntry q original.id true t' ∈ cfg.log := by
  have phase := reach_phase reach found
  rw [presents, accepted] at phase
  have logged {entry : LogEntry} (own : entry ∈ cfg.history q) : entry ∈ cfg.log := (System.mem_history.mp own).1
  generalize cfg.history q = history at phase logged
  cases phase with
  | @returned _ _ _ marked_at =>
    obtain ⟨before, after, split⟩ := List.append_of_mem (logged List.mem_cons_self)
    obtain ⟨original, saved, stems, sameToken, typed⟩ := reach_found reach split
    refine ⟨original, marked_at, saved.mono (by rw [split]; exact List.subset_append_left ..), typed, sameToken, ?_⟩
    rw [← stems.id_eq]
    exact logged (List.mem_cons_of_mem _ List.mem_cons_self)

/-- Once a session is over, its records have all been taken before. -/
theorem Over.marked_before (isOver : Over closed root)
    (reach : (authSystem server platform options).Reach anyEvent (.start clock (.fresh keycloak)) closed)
    (later : (authSystem server platform options).Reach permitted closed final) {original : TokenRecord}
    (chain : Chain closed.log root original) {p t : Nat} (marked : markedEntry p original.id true t ∈ final.log) :
    markedEntry p original.id true t ∈ closed.log := by
  obtain ⟨i, at_mark⟩ := List.mem_iff_getElem?.mp marked
  by_cases before : i < closed.log.length
  · obtain ⟨more, extended⟩ := later.log_prefix
    rw [← extended, List.getElem?_append_left before] at at_mark
    exact List.mem_of_getElem? at_mark
  obtain ⟨middle, early, record, member, named, unused⟩ := reach_marking later at_mark (Nat.not_lt.mp before)
  obtain ⟨earlier, onFile, named', unused'⟩ := reach_unused_before early reach chain.saved member named unused
  have used := isOver.spent original chain earlier onFile named'
  rw [unused'] at used
  cases used

/-- Whoever rotates a session that is over has ended by then. -/
theorem Over.rotated_before (isOver : Over closed root)
    (reach : (authSystem server platform options).Reach anyEvent (.start clock (.fresh keycloak)) closed)
    (later : (authSystem server platform options).Reach permitted closed final) {original : TokenRecord}
    (chain : Chain closed.log root original) {p t : Nat} (marked : markedEntry p original.id true t ∈ closed.log)
    {thread : Thread Call.Ans Thrown Request Response} {token : Str} (found : final.threads[p]? = some thread)
    (refresh : thread.request = .refresh token) :
    closed.threads[p]? = some thread ∧ thread.state.finished = true := by
  have there := List.getElem?_eq_getElem (reach.request_lt _ marked)
  obtain ⟨_, again, same⟩ := later.request_kept there
  cases Option.some.inj (found.symm.trans again)
  have ended := isOver.released p _ token original t there (same.symm.trans refresh) chain marked
  cases Option.some.inj (found.symm.trans (later.finished_kept there ended))
  exact ⟨there, ended⟩

/-- A session that is over gets no further record. -/
theorem Over.no_more (isOver : Over closed root)
    (reach : (authSystem server platform options).Reach anyEvent (.start clock (.fresh keycloak)) closed)
    (typed : root.type = .refreshToken) (later : (authSystem server platform options).Reach permitted closed final)
    {original : TokenRecord} (chain : Chain final.log root original) : Chain closed.log root original := by
  induction chain with
  | root saved => exact .root isOver.opened
  | @rotated p old t original earlier marked saved ih =>
    have before := isOver.marked_before reach later ih marked
    obtain ⟨⟨thread, token, found, refresh⟩, -⟩ := reach_rotates (reach.trans later.any) earlier.saved
      (reach_chain_type reach typed ih) marked saved
    obtain ⟨there, ended⟩ := isOver.rotated_before reach later ih before found refresh
    obtain ⟨saving, member, own, save⟩ := saved
    obtain ⟨j, at_saving⟩ := List.mem_iff_getElem?.mp member
    by_cases early : j < closed.log.length
    · obtain ⟨more, extended⟩ := later.log_prefix
      rw [← extended, List.getElem?_append_left early] at at_saving
      exact .rotated ih before ⟨saving, List.mem_of_getElem? at_saving, own, save⟩
    obtain ⟨middle, running, rest, choice, run, -, at_running, waiting, -⟩ :=
      later.step_at at_saving (Nat.not_lt.mp early)
    rw [own] at at_running
    cases Option.some.inj (at_running.symm.trans (run.finished_kept there ended))
    rw [waiting] at ended
    cases ended

/-- No refresh that is under way in a session that is over is accepted, and no later one. -/
theorem Over.refuses (isOver : Over closed root)
    (reach : (authSystem server platform options).Reach anyEvent (.start clock (.fresh keycloak)) closed)
    (typed : root.type = .refreshToken) (until_end : (authSystem server platform options).Reach
      anyEvent closed ended)
    (later : (authSystem server platform options).Reach anyEvent ended final) (apart : Apart root final.log) :
    ¬ AcceptedAfter ended final root := by
  intro served
  obtain ⟨q, thread, t, tokens, own, unfinished, found, presents, accepted, chain, same⟩ := served
  have run := until_end.trans later
  have reached := reach.trans run
  obtain ⟨original, t', saved, refreshes, sameToken, marked⟩ := reach_accepted reached found presents accepted
  have member := apart own original chain saved refreshes (sameToken.trans same.symm)
  have early := isOver.no_more reach typed run member
  obtain ⟨there, finished⟩ :=
    isOver.rotated_before reach run early (isOver.marked_before reach run early marked) found presents
  rw [unfinished thread (until_end.finished_kept there finished)] at finished
  cases finished

/-- Taking the last record of a session ends it, unless a refresh does so. -/
theorem Over.of_taken
    (reach : (authSystem server platform options).Reach permitted (.start clock (.fresh keycloak)) ended)
    (typed : root.type = .refreshToken) {last : TokenRecord} (chain : Chain ended.log root last) {p t : Nat}
    (marked : markedEntry p last.id true t ∈ ended.log) {thread : Thread Call.Ans Thrown
      Request Response} {token : Str}
    (found : ended.threads[p]? = some thread) (logout : thread.request = .logout token) : Over ended root := by
  have taken {original : TokenRecord} (own : Chain ended.log root original) : original = last ∨
      ∃ q t next, markedEntry q original.id true t ∈ ended.log ∧ SavedBy ended.log q next := by
    rcases reach_chain_linear reach own chain with before | behind
    · rcases before.head with rfl | ⟨q, t, next, marked, saved, -⟩
      · exact .inl rfl
      · exact .inr ⟨q, t, next, marked, saved⟩
    · rcases behind.head with rfl | ⟨q, t', next, marked', saved, -⟩
      · exact .inl rfl
      · obtain rfl := reach_marker reach marked marked'
        obtain ⟨⟨_, _, found', refresh⟩, -⟩ := reach_rotates reach chain.saved
          (reach_chain_type reach typed chain) marked saved
        cases Option.some.inj (found.symm.trans found')
        cases logout.symm.trans refresh
  refine ⟨chain.opened, fun original own record member named => ?_, fun q other token' original t' at_q refresh own
    marked' => ?_⟩
  · rcases taken own with rfl | ⟨q, t', next, marked', -⟩
    · exact ((reach_ledger reach).spent p _ t marked).2 record member named
    · exact ((reach_ledger reach).spent q _ t' marked').2 record member named
  · rcases taken own with rfl | ⟨q', t'', next, marked'', saving, member, ownEntry, save⟩
    · obtain rfl := reach_marker reach marked marked'
      cases Option.some.inj (found.symm.trans at_q)
      cases logout.symm.trans refresh
    · obtain rfl := reach_marker reach marked' marked''
      have phase := reach_phase reach at_q
      rw [refresh] at phase
      have filed := System.mem_history.mpr ⟨member, ownEntry⟩
      cases state : other.state with
      | returned value => rfl
      | threw error => rfl
      | awaiting call rest =>
        rw [state] at phase
        exact absurd save (RefreshPhase.saved_last phase saving filed next)

/-- What a completed logout has done: it has found a record that was not consumed and has consumed it, or it has
done nothing to the store. -/
inductive LoggedOut (p : Nat) (token : Str) : List LogEntry → Prop
  | unknown {t rest} : LoggedOut p token (⟨p, .store (.findByToken token .refreshToken), .ok none, t⟩ :: rest)
  | spent {record t rest} (used : record.consumedAt.isSome = true) :
      LoggedOut p token (foundEntry p token .refreshToken record t :: rest)
  | taken {record t consumed t' rest} (unused : record.consumedAt = none) :
      LoggedOut p token (foundEntry p token .refreshToken record t :: markedEntry p record.id consumed t' :: rest)

/-- A logout that has completed is `LoggedOut`. -/
def LogoutTrace (p : Nat) (request : Request) (history : List LogEntry) (view : ServiceView) : Prop :=
  ∀ token, request = .logout token → view = .returned .loggedOut → LoggedOut p token history

attribute [local irreducible] Password.create in
theorem logoutTrace_along (platform : Platform) (options : Deployment) (p now : Nat) (request : Request) :
    (request.body platform options).Along (LogoutTrace p request) p now 0 [] := by
  cases request with
  | logout token =>
    have trace {history : List LogEntry} {view : ServiceView}
        (done : view = .returned .loggedOut → LoggedOut p token history) :
        LogoutTrace p (.logout token) history view := by
      rintro _ ⟨⟩ shown
      exact done shown
    simp only [Request.body, LogoutUseCase.execute, tokenStore, authProvider, Program.bind_eq, Program.bind_assoc]
    refine .perform (trace fun no => by cases no) ?_ fun _ _ => trace fun no => by cases no
    rintro (_ | record) t -
    · exact .perform (trace fun no => by cases no) (fun _ _ _ => trace fun _ => .unknown)
        fun _ _ => trace fun no => by cases no
    by_cases unused : record.consumedAt.isNone = true
    · simp only [unused, if_true, Program.bind_assoc]
      refine .perform (trace fun no => by cases no) (fun _ _ _ => ?_) fun _ _ => trace fun no => by cases no
      exact .perform (trace fun no => by cases no) (fun _ _ _ => trace fun _ => .taken (by simpa using unused))
        fun _ _ => trace fun no => by cases no
    · simp only [unused, Bool.false_eq_true, if_false]
      refine .perform (trace fun no => by cases no) (fun _ _ _ => trace fun _ => .spent ?_)
        fun _ _ => trace fun no => by cases no
      cases used : record.consumedAt with
      | none => simp [used] at unused
      | some date => rfl
  | _ => exact (phase_along platform options p now _).mono fun _ _ _ _ no => by cases no

theorem reach_logged_out
    (reach : (authSystem server platform options).Reach permitted (.start clock (.fresh keycloak)) cfg) {p : Nat}
    {thread : Thread Call.Ans Thrown Request Response} {token : Str} (found : cfg.threads[p]? = some thread)
    (logout : thread.request = .logout token) (ended : thread.state.view = .returned .loggedOut) :
    LoggedOut p token (cfg.history p) :=
  reach.view (fun p request now => logoutTrace_along platform options p now request) found token logout ended

/-- The step in which logout `p` has made a call, and what the condition says of it. -/
theorem UnusedOrOver.step {p : Nat}
    (reach : (authSystem server platform options).Reach (UnusedOrOver p root)
      (.start clock (.fresh keycloak)) ended)
    {entry : LogEntry} (member : entry ∈ ended.history p) :
    ∃ middle choice, (authSystem server platform options).Reach anyEvent (.start clock (.fresh keycloak)) middle ∧
      (authSystem server platform options).Reach anyEvent middle ended ∧
      (answerCall server platform options choice middle.clock p entry.call middle.shared).1 = entry.answer ∧
      (Over middle root ∨ (∀ token, entry.call = .store (.findByToken token .refreshToken) →
        ∃ record, middle.shared.store.findByToken token .refreshToken = some record ∧ record.consumedAt = none) ∧
      ∀ id, entry.call = .store (.markConsumed id) →
        ∃ record ∈ middle.shared.store.records, record.id = id ∧ record.consumedAt = none) := by
  obtain ⟨logged, rfl⟩ := System.mem_history.mp member
  obtain ⟨i, at_entry⟩ := List.mem_iff_getElem?.mp logged
  obtain ⟨middle, thread, rest, choice, early, fine, found, waiting, -, answer, later⟩ :=
    reach.step_at at_entry (Nat.zero_le _)
  refine ⟨middle, choice, early.any, ?_, answer, fine choice thread entry.call rfl found (by rw [waiting]; rfl)⟩
  exact .trans (.next .start trivial (System.advance_resume choice found waiting)) later.any

/-- A logout that finds the current token of a session and gets to consume it ends the session. -/
theorem logout_ends_when_unused : LogoutEnds server platform options UnusedOrOver Apart clock keycloak := by
  intro ended final p thread token root original reach found logout returned opens chain same later apart apart'
  obtain ⟨typed, -⟩ := opens
  have refuses {closed : AuthConfig κ} (isOver : Over closed root)
      (reach : (authSystem server platform options).Reach anyEvent (.start clock (.fresh keycloak)) closed)
      (run : (authSystem server platform options).Reach anyEvent closed ended) : ¬ AcceptedAfter ended final root :=
    isOver.refuses reach typed run later apart'
  have done := reach_logged_out reach found logout returned
  have step {entry : LogEntry} (member : entry ∈ ended.history p) := UnusedOrOver.step reach member
  have logged {entry : LogEntry} (own : entry ∈ ended.history p) : entry ∈ ended.log :=
    (System.mem_history.mp own).1
  generalize ended.history p = history at done step logged
  cases done with
  | unknown =>
    obtain ⟨middle, choice, reached, run, answer, isOver | ⟨unused, -⟩⟩ := step List.mem_cons_self
    · exact refuses isOver reached run
    · obtain ⟨record, looked, -⟩ := unused token rfl
      cases looked.symm.trans (Except.ok.inj answer)
  | spent used =>
    obtain ⟨middle, choice, reached, run, answer, isOver | ⟨unused, -⟩⟩ := step List.mem_cons_self
    · exact refuses isOver reached run
    · obtain ⟨record, looked, fresh⟩ := unused token rfl
      cases looked.symm.trans (Except.ok.inj answer)
      rw [fresh] at used
      cases used
  | @taken record _ consumed marked_at =>
    obtain ⟨middle, choice, reached, run, answer, isOver | ⟨-, unused⟩⟩ :=
      step (List.mem_cons_of_mem _ List.mem_cons_self)
    · exact refuses isOver reached run
    obtain ⟨onFile, member, named, fresh⟩ := unused record.id rfl
    have marks : (middle.shared.store.markConsumed record.id middle.clock).1 = consumed := Except.ok.inj answer
    rw [← named, (markConsumed_unused middle.clock member fresh).1] at marks
    subst marks
    obtain ⟨before, after, split⟩ := List.append_of_mem (logged List.mem_cons_self)
    obtain ⟨last, saved, stems, sameToken, refresh⟩ := reach_found reach split
    have inLog : Saved ended.log last := saved.mono (by rw [split]; exact List.subset_append_left ..)
    have marked := logged (List.mem_cons_of_mem _ List.mem_cons_self)
    rw [stems.id_eq] at marked
    have own := apart original last chain inLog refresh (sameToken.trans same.symm)
    exact refuses (.of_taken reach typed own marked found logout) reach.any .start

end

/-- The record that a call files. -/
def Call.filed : Call → Option TokenRecord
  | .store (.save record) => some record
  | _ => none

theorem Saved.filed {log : List LogEntry} {original : TokenRecord} (saved : Saved log original) :
    original ∈ log.filterMap (·.call.filed) := by
  obtain ⟨entry, member, save⟩ := saved
  exact List.mem_filterMap.mpr ⟨entry, member, by rw [save]; rfl⟩

/-- Where only one record has been filed, no other session has its token. -/
theorem Apart.of_single {log : List LogEntry} {root : TokenRecord}
    (single : log.filterMap (·.call.filed) = [root]) :
    Apart root log := by
  intro own other chain saved _ _
  have same := saved.filed
  rw [single, List.mem_singleton] at same
  subst same
  exact .root saved

namespace Sample

/-- The record of Ann's session. -/
def annsRecord : TokenRecord :=
  freshRecord ⟨0, 0⟩ "ann" .refreshToken (session ann 1000) options.refreshTokenTtlMs 1000

/-- Ann has logged in and is about to log out. -/
def leaving : AuthConfig Realm := after start
  [.arrive (.login "ann@mail" "ann password"), .resume 0 .good, .resume 0 .good, .resume 0 .good, .resume 0 .good,
    .resume 0 .good, .resume 0 .good, .arrive (.logout (session ann 1000))]

def left : AuthConfig Realm := after leaving [.resume 1 .good, .resume 1 .good, .resume 1 .good]

/-- Her token is presented after that. -/
def turnedAway : AuthConfig Realm := after left [.arrive (.refresh (session ann 1000)),
    .resume 2 .good, .resume 2 .good]

theorem left_reach : system.Reach (UnusedOrOver 1 annsRecord) start left := by
  have arrived : system.Reach (UnusedOrOver 1 annsRecord) start leaving :=
    after_reach (by simp [UnusedOrOver]) rfl
  have looked : system.Reach (UnusedOrOver 1 annsRecord) start (after leaving [.resume 1 .good]) := by
    refine arrived.next ?_ (show system.advance leaving (.resume 1 .good) = _ from rfl)
    intro choice thread call same found waiting
    cases Option.some.inj found
    cases waiting
    refine .inr ⟨fun token lookup => ?_, nofun⟩
    cases lookup
    exact ⟨_, rfl, rfl⟩
  have marked : system.Reach (UnusedOrOver 1 annsRecord) start
    (after leaving [.resume 1 .good, .resume 1 .good]) := by
    refine looked.next ?_ (show system.advance (after leaving [.resume 1 .good]) (.resume 1 .good) = _ from rfl)
    intro choice thread call same found waiting
    cases Option.some.inj found
    cases waiting
    refine .inr ⟨nofun, fun id marks => ?_⟩
    cases marks
    exact ⟨_, List.mem_singleton_self _, rfl, rfl⟩
  refine marked.next ?_ (show system.advance (after leaving [.resume 1 .good, .resume 1 .good])
    (.resume 1 .good) = _ from rfl)
  intro choice thread call same found waiting
  cases Option.some.inj found
  cases waiting
  exact .inr ⟨nofun, nofun⟩

theorem logout_ends_when_unused_turnedAway : ¬ AcceptedAfter left turnedAway annsRecord ∧
    turnedAway.threads[2]?.map (·.state.view) = some (.threw RefreshTokenUseCase.reuseDetected) := by
  refine ⟨?_, rfl⟩
  exact logout_ends_when_unused left turnedAway 1 _ _ annsRecord annsRecord left_reach rfl rfl rfl
    ⟨rfl, 0, _, ⟨_, List.mem_of_getElem? (show left.log[5]? = some _ from rfl), rfl, rfl⟩, rfl, by simp⟩
    (.root ⟨_, List.mem_of_getElem? (show left.log[5]? = some _ from rfl), rfl⟩) rfl
    (after_reach (fun _ _ _ => trivial) rfl) (.of_single rfl) (.of_single rfl)

/-- Ann rotates her session and logs out with the token she had before. -/
def leftLate : AuthConfig Realm :=
  system.serve (system.serve { loggedIn with clock := 3000 } promptly (.refresh (session ann 1000))) promptly
    (.logout (session ann 1000))

/-- Her new token is presented after that. -/
def stillIn : AuthConfig Realm :=
  system.serve { leftLate with clock := 5000 } promptly (.refresh (session ann 3000))

/-- A logout with a rotated token does nothing, and the session goes on. -/
theorem logout_ends_not_all :
    ¬ LogoutEnds Realm.server platform options (fun _ _ => anyEvent) (fun _ _ => True) 1000 realm := by
  intro ends
  have early : system.Reach anyEvent start leftLate :=
    ((loggedIn_reach.next trivial (show system.advance loggedIn (.tick 2000) = _ from rfl)).trans
      (System.serve_reach _ _ _)).trans (System.serve_reach _ _ _)
  have late : system.Reach anyEvent leftLate stillIn :=
    (System.Reach.start.next trivial (show system.advance leftLate (.tick 2000) = _ from rfl)).trans
      (System.serve_reach _ _ _)
  have opened : SavedBy leftLate.log 0 annsRecord :=
    ⟨_, List.mem_of_getElem? (show leftLate.log[5]? = some _ from rfl), rfl, rfl⟩
  have rotated : Chain stillIn.log annsRecord (freshRecord ⟨1, 0⟩ "ann" .refreshToken (session ann 3000)
      options.refreshTokenTtlMs 3000) :=
    @Chain.rotated _ _ 1 annsRecord 3000 _ (.root (opened.saved.mono late.log_prefix.subset))
      (List.mem_of_getElem? (show stillIn.log[7]? = some _ from rfl))
      ⟨_, List.mem_of_getElem? (show stillIn.log[9]? = some _ from rfl), rfl, rfl⟩
  have unarrived : leftLate.threads[3]? = none := rfl
  exact ends leftLate stillIn 2 _ _ annsRecord annsRecord early rfl rfl rfl ⟨rfl, 0, _, opened, rfl, by simp⟩
    (.root opened.saved) rfl late trivial trivial ⟨3, _, session ann 3000, _, _, by simp [unarrived], rfl, rfl, rfl,
      rotated, rfl⟩

end Sample

end KeycloakAuth
