import KeycloakAuth.FreshTokens
import KeycloakAuth.Lookup

namespace KeycloakAuth
open Async InMemoryTokenStore

inductive Party
  | holder
  | thief
deriving DecidableEq, Repr

def Party.other : Party → Party
  | .holder => .thief
  | .thief => .holder

/-- Two parties beside the module: the tokens each has learnt, and whether it has completed a refresh since
the copy was made. -/
structure Theft (κ : Type) where
  cfg : AuthConfig κ
  knows : Party → List Str
  completed : Party → Bool

section
variable {κ : Type} (server : KeycloakServer κ) (platform : Platform) (options : Deployment)

/-- A party presents a token and learns the one that is returned to it. -/
def Theft.present (theft : Theft κ) (party : Party) (t : Str) (schedule : Schedule Plan) : Theft κ :=
  let cfg := (authSystem server platform options).serve theft.cfg schedule (.refresh t)
  match (authSystem server platform options).result theft.cfg schedule (.refresh t) with
  | .ok (.refresh tokens) =>
    { cfg := cfg
      knows := Function.update theft.knows party (tokens.refreshToken :: theft.knows party)
      completed := Function.update theft.completed party true }
  | _ => { theft with cfg := cfg }

/-- Between two points of a run no refresh token has been filed for `u`. -/
def OpensNoSession (u : String) (log longer : List LogEntry) : Prop :=
  ∀ original, Saved longer original → original.type = .refreshToken → original.userId = u → Saved log original

/-- What can happen after the copy was made, one request at a time. -/
inductive Theft.Reach (u : String) (start : Theft κ) : Theft κ → Prop
  | start : Theft.Reach u start start
  | tick {theft} (delay : Nat) : Theft.Reach u start theft →
      Theft.Reach u start { theft with cfg := { theft.cfg with clock := theft.cfg.clock + delay } }
  | disturb {theft} (change : Disturbance κ) : Theft.Reach u start theft →
      Theft.Reach u start { theft with cfg := { theft.cfg with
        shared := (authSystem server platform options).disturb change theft.cfg.clock theft.cfg.shared } }
  | others {theft} (schedule : Schedule Plan) (request : Request) : Theft.Reach u start theft →
      OpensNoSession u theft.cfg.log ((authSystem server platform options).serve theft.cfg schedule request).log →
      Theft.Reach u start
        { theft with cfg := (authSystem server platform options).serve theft.cfg schedule request }
  | present {theft} (party : Party) (t : Str) (schedule : Schedule Plan) : Theft.Reach u start theft →
      t ∈ theft.knows party → Theft.Reach u start (theft.present server platform options party t schedule)

/-- Both parties know the current refresh token of a session of `u`, and nothing else. -/
structure Copied (clock : Nat) (keycloak : κ) (u : String) (t : Str) (theft : Theft κ) : Prop where
  run : (authSystem server platform options).Sequential (.start clock (.fresh keycloak)) theft.cfg
  current : ∃ record, theft.cfg.shared.store.findByToken t .refreshToken = some record ∧
    record.consumedAt = none ∧ record.userId = u
  knows : ∀ party, theft.knows party = [t]
  completed : ∀ party, theft.completed party = false

/-- `u` has no session left. -/
def Gone (u : String) (store : InMemoryTokenStore) : Prop :=
  ∀ record ∈ store.records, record.type = .refreshToken → record.userId ≠ u

/-- The record that stands for the token has been consumed. -/
def Spent (t : Str) (store : InMemoryTokenStore) : Prop :=
  ∃ record, store.findByToken t .refreshToken = some record ∧ record.consumedAt.isSome = true

/-- No refresh with `t` will be completed any more: the token has been used, or it has expired, or its user
has no session left. -/
inductive Burnt (u : String) (t : Str) (store : InMemoryTokenStore) (now : Nat) : Prop
  | spent (spent : Spent t store)
  | expired {exp} (expires : t.expires = some exp) (past : exp ≤ now / 1000)
  | gone (none : Gone u store)

variable {server platform options} {permitted : AuthConfig κ → AuthEvent κ → Prop} {clock : Nat} {keycloak : κ}
  {cfg final : AuthConfig κ} {u : String} {t : Str}

/-- A refresh token of `u`. -/
def TokenOf (options : Deployment) (u : String) (t : Str) : Prop :=
  ∃ user issuedAt, user.id = u ∧ t = (issued options issuedAt user).refreshToken

/-- What stands for a token of `u` is a record of `u` that lives no shorter. -/
theorem TokenOf.found (own : TokenOf options u t)
    (reach : (authSystem server platform options).Reach permitted (.start clock (.fresh keycloak)) cfg)
    {record : TokenRecord} (found : cfg.shared.store.findByToken t .refreshToken = some record) :
    record.userId = u ∧
      ∀ now, record.expiresAt.before now = true → ∃ exp, t.expires = some exp ∧ exp ≤ now / 1000 := by
  obtain ⟨user, issuedAt, rfl, signed⟩ := own
  obtain ⟨user', issuedAt', signed', named, _, lives⟩ := reach_found_session reach found
  refine ⟨?_, fun now past => ⟨_, by rw [signed']; rfl, ?_⟩⟩
  · rw [signed] at signed'
    have sub := congrArg TokenPayload.sub (Str.jwt.inj signed').2
    exact named.symm.trans sub.symm
  · by_contra alive
    rw [lives now (Nat.not_le.mp alive)] at past
    cases past

theorem Spent.markConsumed {store : InMemoryTokenStore} (spent : Spent t store) (id : Str) (now : Nat) :
    Spent t (store.markConsumed id now).2 := by
  obtain ⟨record, found, used⟩ := spent
  rcases markConsumed_cases store id now with ⟨paid, member, rfl, unused, _⟩ | ⟨_, same⟩
  · refine ⟨consume paid.id now record, ?_, ?_⟩
    · rw [findByToken_markConsumed now member unused, found]
      rfl
    · exact consume_used paid.id now used
  · rw [same]
    exact ⟨record, found, used⟩

theorem Spent.save {store : InMemoryTokenStore} (spent : Spent t store) {new : TokenRecord}
    (fresh : ∀ old ∈ store.records, old.id ≠ new.id) : Spent t (store.save new) := by
  obtain ⟨record, found, used⟩ := spent
  exact ⟨record, findByToken_save fresh found, used⟩

/-- A wipe leaves a used token used, unless it takes the records of its user. -/
theorem Spent.deleteAllForUser (spent : Spent t cfg.shared.store) (own : TokenOf options u t)
    (reach : (authSystem server platform options).Reach permitted (.start clock (.fresh keycloak)) cfg) (v : String)
    (now : Nat) : Burnt u t (cfg.shared.store.deleteAllForUser v) now := by
  obtain ⟨record, found, used⟩ := spent
  by_cases hers : v = u
  · refine .gone fun left member _ => ?_
    rw [deleteAllForUser_records] at member
    simpa [hers] using (List.mem_filter.mp member).2
  · refine .spent ⟨record, findByToken_deleteRecords found ?_, used⟩
    rw [(own.found reach found).1]
    simpa using fun same => hers same.symm

theorem Spent.deleteExpired (spent : Spent t cfg.shared.store) (own : TokenOf options u t)
    (reach : (authSystem server platform options).Reach permitted
      (.start clock (.fresh keycloak)) cfg) (now : Nat) :
    Burnt u t (cfg.shared.store.deleteExpired now) now := by
  obtain ⟨record, found, used⟩ := spent
  cases past : record.expiresAt.before now with
  | false => exact .spent ⟨record, findByToken_deleteRecords found past, used⟩
  | true =>
    obtain ⟨exp, expires, passed⟩ := (own.found reach found).2 now past
    exact .expired expires passed

theorem Gone.deleteRecords {store : InMemoryTokenStore} (gone : Gone u store) (doomed : TokenRecord → Bool) :
    Gone u (store.deleteRecords doomed) := by
  intro record member
  rw [deleteRecords_records] at member
  exact gone record (List.mem_filter.mp member).1

theorem Gone.answerCall {plan : Plan} {now p : Nat} {call : Call} {world : World κ} (gone : Gone u world.store)
    (noNew : ∀ original, call = .store (.save original) → original.type = .refreshToken → original.userId ≠ u) :
    Gone u (answerCall server platform options plan now p call world).2.store := by
  intro record member typed own
  rcases answerCall_records member with ⟨old, onFile, consumedAt, rfl, _⟩ | ⟨original, rfl, rfl⟩
  · exact gone old onFile typed own
  · exact noNew original rfl typed own

/-- One call of a request that files no refresh token for `u`. -/
theorem Burnt.answerCall {plan : Plan} {p : Nat} {thread : Thread Call.Ans Thrown Request Response} {call : Call}
    {rest : Except Thrown call.Ans → Service Response} (burnt : Burnt u t cfg.shared.store cfg.clock)
    (own : TokenOf options u t)
    (reach : (authSystem server platform options).Reach permitted (.start clock (.fresh keycloak)) cfg)
    (found : cfg.threads[p]? = some thread) (waiting : thread.state = .awaiting call rest)
    (noNew : ∀ original, call = .store (.save original) → original.type = .refreshToken → original.userId ≠ u) :
    Burnt u t (answerCall server platform options plan cfg.clock p call cfg.shared).2.store cfg.clock := by
  cases burnt with
  | expired expires past => exact .expired expires past
  | gone none => exact .gone (none.answerCall noNew)
  | spent spent =>
    cases call with
    | store call =>
      cases call with
      | save original =>
        refine .spent (spent.save fun old member same => ?_)
        obtain ⟨earlier, saved, stems⟩ := (reach_ledger reach).stems old member
        exact reach_save_fresh reach found waiting earlier saved (stems.id_eq.symm.trans same)
      | markConsumed id => exact .spent (spent.markConsumed id cfg.clock)
      | deleteExpired => exact spent.deleteExpired own reach cfg.clock
      | deleteAllForUser v => exact spent.deleteAllForUser own reach v cfg.clock
      | findByToken token type => exact .spent spent
      | saveUserData user key value => exact .spent spent
      | getUserData user key => exact .spent spent
      | deleteUserData user key =>
        obtain ⟨record, looked, used⟩ := spent
        rw [findByToken_eq] at looked
        exact .spent ⟨record, by rw [findByToken_eq, KeycloakAuth.answerCall, answerStore,
          deleteUserData_records]; exact looked, used⟩
    | auth call =>
      obtain ⟨record, looked, used⟩ := spent
      rw [findByToken_eq] at looked
      exact .spent ⟨record, by rw [findByToken_eq, KeycloakAuth.answerCall, answerAuth_records]; exact looked, used⟩
    | render template link => exact .spent spent
    | send mail => exact .spent spent

/-- The rule for runs that open no session of `u`. -/
theorem reach_opensNoSession {along : AuthConfig κ → AuthEvent κ → Prop} (holds : InMemoryTokenStore → Nat → Prop)
    (tick : ∀ store now delay, holds store now → holds store (now + delay))
    (purge : ∀ before : AuthConfig κ,
      (authSystem server platform options).Reach anyEvent (.start clock (.fresh keycloak)) before →
      holds before.shared.store before.clock → holds (before.shared.store.deleteExpired before.clock) before.clock)
    (resume : ∀ (before : AuthConfig κ) index thread call rest choice,
      (authSystem server platform options).Reach anyEvent (.start clock (.fresh keycloak)) before →
      before.threads[index]? = some thread → thread.state = .awaiting call rest →
      (∀ original, call = .store (.save original) → original.type = .refreshToken → original.userId ≠ u) →
      holds before.shared.store before.clock →
      holds (KeycloakAuth.answerCall server platform options choice before.clock index call
        before.shared).2.store before.clock)
    (start : holds cfg.shared.store cfg.clock)
    (reached : (authSystem server platform options).Reach anyEvent (.start clock (.fresh keycloak)) cfg)
    (run : (authSystem server platform options).Reach along cfg final)
    (opensNone : OpensNoSession u cfg.log final.log) : holds final.shared.store final.clock := by
  induction run with
  | start => exact start
  | @next before after event prior allowed step ih =>
    have longer := (System.advance_log step).subset
    have held := ih fun original saved => opensNone original (saved.mono longer)
    have reach := reached.trans prior.any
    rcases System.advance_cases step with ⟨delay, _, rfl⟩ | ⟨change, _, rfl⟩ | ⟨_, _, rfl⟩ |
      ⟨index, choice, thread, call, rest, _, found, waiting, rfl⟩
    · exact tick _ _ delay held
    · cases change with
      | keycloak state => exact held
      | deleteExpired => exact purge before reach held
    · exact held
    · refine resume before index thread call rest choice reach found waiting ?_ held
      rintro original rfl typed own
      have saved := opensNone original ⟨_, List.mem_append_right _ (List.mem_singleton_self _), rfl⟩ typed own
      exact reach_save_fresh reach found waiting original (saved.mono prior.log_prefix.subset) rfl

theorem Burnt.run {along : AuthConfig κ → AuthEvent κ → Prop} (burnt : Burnt u t cfg.shared.store cfg.clock)
    (own : TokenOf options u t)
    (reached : (authSystem server platform options).Reach anyEvent (.start clock (.fresh keycloak)) cfg)
    (run : (authSystem server platform options).Reach along cfg final)
    (opensNone : OpensNoSession u cfg.log final.log) : Burnt u t final.shared.store final.clock := by
  refine reach_opensNoSession (Burnt u t) ?_ ?_ ?_ burnt reached run opensNone
  · intro store now delay burnt
    cases burnt with
    | spent spent => exact .spent spent
    | expired expires past =>
      exact .expired expires (Nat.le_trans past (Nat.div_le_div_right (Nat.le_add_right _ _)))
    | gone none => exact .gone none
  · intro before reach burnt
    cases burnt with
    | spent spent => exact spent.deleteExpired own reach before.clock
    | expired expires past => exact .expired expires past
    | gone none => exact .gone (none.deleteRecords _)
  · intro before index thread call rest choice reach found waiting noNew burnt
    exact burnt.answerCall own reach found waiting noNew

theorem Gone.run {along : AuthConfig κ → AuthEvent κ → Prop} (gone : Gone u cfg.shared.store)
    (reached : (authSystem server platform options).Reach anyEvent (.start clock (.fresh keycloak)) cfg)
    (run : (authSystem server platform options).Reach along cfg final)
    (opensNone : OpensNoSession u cfg.log final.log) : Gone u final.shared.store := by
  refine reach_opensNoSession (fun store _ => Gone u store) ?_ ?_ ?_ gone reached run opensNone
  · exact fun _ _ _ gone => gone
  · exact fun _ _ gone => gone.deleteRecords _
  · exact fun _ _ _ _ _ _ _ _ _ noNew gone => gone.answerCall noNew

theorem Rotated.spent (rotated : Rotated t cfg.shared.store)
    (reach : (authSystem server platform options).Reach permitted (.start clock (.fresh keycloak)) cfg) :
    Spent t cfg.shared.store := by
  obtain ⟨record, onFile, hashed, typed, used⟩ := rotated
  obtain ⟨first, found, used⟩ := reach_first_consumed reach onFile hashed used
  exact ⟨first, typed ▸ found, used⟩

section
variable {allowed : Plan → Prop} {other : Str} {result : Except Thrown Response} {now : Nat}
  {after : InMemoryTokenStore}
  (reach : (authSystem server platform options).Reach anyEvent (.start clock (.fresh keycloak)) cfg)
  (run : RefreshRun server platform options allowed cfg.threads.length other cfg.clock cfg.shared result now after)

include reach run

/-- A refresh without a session gets none. -/
theorem Gone.refreshRun (gone : Gone u cfg.shared.store) (own : TokenOf options u other) :
    (∃ error, result = .error error) ∧ Gone u after := by
  have none {record : TokenRecord} (found : cfg.shared.store.findByToken other .refreshToken = some record) :
      False := by
    obtain ⟨onFile, _, typed⟩ := findByToken_spec found
    exact gone record onFile typed (own.found reach found).1
  cases run with
  | unknown absent => exact ⟨⟨_, rfl⟩, gone⟩
  | reused found => exact (none found).elim
  | expired found => exact (none found).elim
  | failed found => exact (none found).elim
  | rotated found => exact (none found).elim

/-- A refresh with a used token ends all sessions of its user. -/
theorem Spent.refreshRun (spent : Spent other cfg.shared.store) (own : TokenOf options u other) :
    result = .error RefreshTokenUseCase.reuseDetected ∧ Gone u after := by
  obtain ⟨record, found, used⟩ := spent
  have notUnused {again : TokenRecord} (looked : cfg.shared.store.findByToken other .refreshToken = some again)
      (unused : again.consumedAt = none) : False := by
    cases Option.some.inj (found.symm.trans looked)
    simp [unused] at used
  cases run with
  | unknown absent => cases found.symm.trans absent
  | reused looked used' =>
    cases Option.some.inj (found.symm.trans looked)
    refine ⟨rfl, fun left member _ => ?_⟩
    rw [deleteAllForUser_records, (own.found reach found).1] at member
    simpa using (List.mem_filter.mp member).2
  | expired looked unused => exact (notUnused looked unused).elim
  | failed looked unused => exact (notUnused looked unused).elim
  | rotated looked unused => exact (notUnused looked unused).elim

theorem Burnt.refreshRun (burnt : Burnt u t cfg.shared.store cfg.clock) (own : TokenOf options u t)
    (also : TokenOf options u other) (later : cfg.clock ≤ now) : Burnt u t after now := by
  cases burnt with
  | expired expires past => exact .expired expires (Nat.le_trans past (Nat.div_le_div_right later))
  | gone none => exact .gone (none.refreshRun reach run also).2
  | spent spent =>
    cases run with
    | unknown absent => exact .spent spent
    | reused found used => exact spent.deleteAllForUser own reach _ _
    | expired found unused => exact .spent spent
    | failed found unused => exact .spent (spent.markConsumed ..)
    | rotated found unused =>
      exact .spent ((spent.markConsumed ..).save fun old member => reach_unused_id_marked reach member 0)

/-- What a refresh that is completed tells of the token it was made with. -/
theorem RefreshRun.completed {tokens : SessionResponse} (completes : result = .ok (.refresh tokens))
    (own : TokenOf options u other) :
    ¬ Burnt u other cfg.shared.store cfg.clock ∧ Spent other after ∧ TokenOf options u tokens.refreshToken := by
  have alive : ¬ Spent other cfg.shared.store := by
    intro spent
    cases (spent.refreshRun reach run own).1.symm.trans completes
  have here : ¬ Gone u cfg.shared.store := by
    intro gone
    obtain ⟨error, failed⟩ := (gone.refreshRun reach run own).1
    cases failed.symm.trans completes
  cases run with
  | @rotated record tokens' _ marked asked plan world found unused same since order answered =>
    obtain ⟨payload, user', valid, named, rfl⟩ := answerAuth_refreshToken_ok answered
    cases completes
    obtain ⟨made, _, _, early⟩ := refreshClaims_ok valid
    refine ⟨?_, ?_, user', asked, ?_, rfl⟩
    · rintro (spent | ⟨expires, past⟩ | gone)
      · exact alive spent
      · rw [made] at expires
        have early := early _ expires
        have order : cfg.clock / 1000 ≤ asked / 1000 := Nat.div_le_div_right since
        omega
      · exact here gone
    · have taken := findByToken_markConsumed marked (findByToken_spec found).1 unused other .refreshToken
      rw [found] at taken
      exact ⟨consume record.id marked record,
        findByToken_save (fun old member => reach_unused_id_marked reach member 0) taken, by simp [consume]⟩
    · obtain ⟨user, issuedAt, rfl, signed⟩ := own
      rw [made] at signed
      rw [named, (Str.jwt.inj signed).2]
      rfl
  | _ => cases completes

end

/-- Of the two parties only one has completed a refresh, and then the copied token is burnt. -/
structure Guarded (server : KeycloakServer κ) (platform : Platform) (options : Deployment) (clock : Nat)
    (keycloak : κ) (u : String) (t : Str) (theft : Theft κ) : Prop where
  reach : (authSystem server platform options).Reach anyEvent (.start clock (.fresh keycloak)) theft.cfg
  own : TokenOf options u t
  known : ∀ party, ∀ known ∈ theft.knows party, TokenOf options u known
  idle : ∀ party, theft.completed party = false → theft.knows party = [t]
  first : ∀ party, theft.completed party = true → theft.completed party.other = false ∧
    Burnt u t theft.cfg.shared.store theft.cfg.clock

variable (server platform options) in
theorem Theft.present_cases (theft : Theft κ) (party : Party) (known : Str) (schedule : Schedule Plan) :
    let cfg := (authSystem server platform options).serve theft.cfg schedule (.refresh known)
    let result := (authSystem server platform options).result theft.cfg schedule (.refresh known)
    let next := theft.present server platform options party known schedule
    (∃ tokens, result = .ok (.refresh tokens) ∧ next = {
      cfg := cfg
      knows := Function.update theft.knows party (tokens.refreshToken :: theft.knows party)
      completed := Function.update theft.completed party true }) ∨ next = { theft with cfg := cfg } := by
  intro cfg result next
  simp only [next, Theft.present]
  split
  · rename_i tokens accepted
    exact .inl ⟨tokens, accepted, rfl⟩
  · exact .inr rfl

theorem Theft.present_cfg (theft : Theft κ) (party : Party) (known : Str) (schedule : Schedule Plan) :
    (theft.present server platform options party known schedule).cfg =
      (authSystem server platform options).serve theft.cfg schedule (.refresh known) := by
  rcases theft.present_cases server platform options party known schedule with
    ⟨_, _, same⟩ | same
  · rw [same]
  · rw [same]

theorem Party.other_other (party : Party) : party.other.other = party := by cases party <;> rfl

theorem Party.eq_or_eq_other (party same : Party) : same = party ∨ same = party.other := by
  cases party <;> cases same <;> simp [Party.other]

theorem Party.other_ne (party : Party) : party.other ≠ party := by cases party <;> simp [Party.other]

theorem Copied.guarded {theft : Theft κ} (copied : Copied server platform options clock keycloak u t theft) :
    Guarded server platform options clock keycloak u t theft := by
  obtain ⟨record, found, _, owner⟩ := copied.current
  obtain ⟨user, issuedAt, signed, named, _⟩ := reach_found_session copied.run.reach found
  have own : TokenOf options u t := ⟨user, issuedAt, named.trans owner, signed⟩
  refine ⟨copied.run.reach, own, fun party known member => ?_, fun party _ =>
    copied.knows party, fun party done => ?_⟩
  · rw [copied.knows party, List.mem_singleton] at member
    exact member ▸ own
  · rw [copied.completed party] at done
    cases done

theorem Guarded.present {theft : Theft κ} (guarded : Guarded server platform options clock keycloak u t theft)
    {party : Party} {known : Str} (member : known ∈ theft.knows party) (schedule : Schedule Plan) :
    Guarded server platform options clock keycloak u t
      (theft.present server platform options party known schedule) := by
  obtain ⟨reach, own, knownOf, idle, first⟩ := guarded
  have ran := (serve_refresh server platform options (fun _ => True) known theft.cfg schedule fun _ => trivial).1
  have served := System.serve_reach (S := authSystem server platform options) theft.cfg schedule (.refresh known)
  have later := served.clock_le
  have reach' := reach.trans served
  have also := knownOf party known member
  have stays (burnt : Burnt u t theft.cfg.shared.store theft.cfg.clock) := burnt.refreshRun reach ran own also later
  rcases theft.present_cases server platform options party known schedule with
    ⟨tokens, completes, same⟩ | same
  · obtain ⟨fresh, spent, next⟩ := RefreshRun.completed reach ran completes also
    -- the token of a party that has not completed a refresh yet is the copied one
    have copied (before : theft.completed party = false) : known = t := by simpa [idle party before] using member
    have alone : theft.completed party.other = false := by
      by_contra done
      obtain ⟨before, burnt⟩ := first party.other (by simpa using done)
      rw [Party.other_other] at before
      exact fresh (copied before ▸ burnt)
    have burnt : Burnt u t ((authSystem server platform options).serve theft.cfg schedule
      (.refresh known)).shared.store
        ((authSystem server platform options).serve theft.cfg schedule (.refresh known)).clock := by
      cases before : theft.completed party with
      | true => exact stays (first party before).2
      | false => exact .spent (copied before ▸ spent)
    rw [same]
    refine ⟨reach', own, fun who token inKnown => ?_, fun who undone => ?_, fun who done => ?_⟩
    · rcases party.eq_or_eq_other who with rfl | rfl
      · simp only [Function.update_self, List.mem_cons] at inKnown
        rcases inKnown with rfl | old
        · exact next
        · exact knownOf _ _ old
      · simp only [Function.update_of_ne party.other_ne] at inKnown
        exact knownOf _ _ inKnown
    · rcases party.eq_or_eq_other who with rfl | rfl
      · simp at undone
      · simp only [Function.update_of_ne party.other_ne]
        exact idle _ alone
    · rcases party.eq_or_eq_other who with rfl | rfl
      · simp only [Function.update_of_ne who.other_ne]
        exact ⟨alone, burnt⟩
      · simp only [Function.update_of_ne party.other_ne, alone] at done
        cases done
  · rw [same]
    exact ⟨reach', own, knownOf, idle, fun who done => ⟨(first who done).1, stays (first who done).2⟩⟩

/-- What is kept while nobody presents a token, and by each refresh of the two parties, is kept. -/
theorem Theft.Reach.rule {start theft : Theft κ} (holds : Theft κ → Prop)
    (reach : Theft.Reach server platform options u start theft)
    (waits : ∀ (theft : Theft κ) next, (authSystem server platform options).Reach anyEvent theft.cfg next →
      OpensNoSession u theft.cfg.log next.log → holds theft → holds { theft with cfg := next })
    (present : ∀ (theft : Theft κ) party known schedule, known ∈ theft.knows party → holds theft →
      holds (theft.present server platform options party known schedule))
        (initial : holds start) : holds theft := by
  induction reach with
  | start => exact initial
  | @tick theft delay _ ih =>
    exact waits theft _ (.next .start trivial (show System.advance _ _ (.tick delay) = some _ from rfl))
      (fun _ saved _ _ => saved) ih
  | @disturb theft change _ ih =>
    exact waits theft _ (.next .start trivial (show System.advance _ _ (.disturb change) = some _ from rfl))
      (fun _ saved _ _ => saved) ih
  | others schedule request _ opensNone ih => exact waits _ _ (System.serve_reach _ schedule request) opensNone ih
  | present party known schedule _ member ih => exact present _ party known schedule member ih

theorem Guarded.waits {theft : Theft κ} (guarded : Guarded server platform options clock keycloak u t theft)
    {next : AuthConfig κ} (run : (authSystem server platform options).Reach anyEvent theft.cfg next)
    (opensNone : OpensNoSession u theft.cfg.log next.log) :
    Guarded server platform options clock keycloak u t { theft with cfg := next } := by
  obtain ⟨reach, own, knownOf, idle, first⟩ := guarded
  refine ⟨reach.trans run, own, knownOf, idle, fun party done => ?_⟩
  obtain ⟨alone, burnt⟩ := first party done
  exact ⟨alone, burnt.run own reach run opensNone⟩

theorem Guarded.reached {start theft : Theft κ}
    (guarded : Guarded server platform options clock keycloak u t start)
    (reach : Theft.Reach server platform options u start theft) :
    Guarded server platform options clock keycloak u t theft :=
  reach.rule _ (fun _ _ run opensNone guarded => guarded.waits run opensNone)
    (fun _ _ _ schedule member guarded => guarded.present member schedule) guarded

/-- Once `u` has no session left, every refresh of the two parties is refused. -/
theorem Guarded.gone_reached {start theft : Theft κ}
    (guarded : Guarded server platform options clock keycloak u t start) (gone : Gone u start.cfg.shared.store)
    (reach : Theft.Reach server platform options u start theft) : Gone u theft.cfg.shared.store := by
  refine (reach.rule (fun theft => Guarded server platform options clock keycloak u t theft ∧
    Gone u theft.cfg.shared.store) ?_ ?_ ⟨guarded, gone⟩).2
  · intro theft next run opensNone held
    obtain ⟨guarded, gone⟩ := held
    exact ⟨guarded.waits run opensNone, gone.run guarded.reach run opensNone⟩
  · intro theft party known schedule member held
    obtain ⟨guarded, gone⟩ := held
    have ran := (serve_refresh server platform options (fun _ => True) known theft.cfg schedule fun _ => trivial).1
    refine ⟨guarded.present member schedule, ?_⟩
    rw [Theft.present_cfg]
    exact (gone.refreshRun guarded.reach ran (guarded.known party known member)).2

/-- Of two parties that know the current token of a session, each learning no more than what is returned to
it, at most one ever completes a refresh. Whoever presents a used token is told so, and from then on every
token that either of them knows is refused. -/
theorem stolen_token_serves_one_party {start theft : Theft κ}
    (copied : Copied server platform options clock keycloak u t start)
    (reach : Theft.Reach server platform options u start theft) :
    ¬ (∀ party, theft.completed party = true) ∧
    ∀ party, ∀ known ∈ theft.knows party, ∀ schedule, Rotated known theft.cfg.shared.store →
      (authSystem server platform options).result theft.cfg schedule (.refresh known) =
        .error RefreshTokenUseCase.reuseDetected ∧
      ∀ later, Theft.Reach server platform options u (theft.present server platform options party known schedule)
          later → ∀ party', ∀ known' ∈ later.knows party', ∀ schedule', ∃ error,
        (authSystem server platform options).result later.cfg schedule' (.refresh known') = .error error := by
  have guarded := copied.guarded.reached reach
  refine ⟨fun both => ?_, fun party known member schedule rotated => ?_⟩
  · have alone := (guarded.first .holder (both .holder)).1
    cases alone.symm.trans (both Party.holder.other)
  have also := guarded.known party known member
  have ran := (serve_refresh server platform options (fun _ => True) known theft.cfg schedule fun _ => trivial).1
  obtain ⟨refused, gone⟩ := (rotated.spent guarded.reach).refreshRun guarded.reach ran also
  refine ⟨refused, fun later onwards party' known' member' schedule' => ?_⟩
  have next := guarded.present member schedule
  have here : Gone u (theft.present server platform options party known schedule).cfg.shared.store := by
    rw [Theft.present_cfg]
    exact gone
  have ended := next.reached onwards
  have ran' := (serve_refresh server platform options (fun _ => True) known' later.cfg schedule' fun _ => trivial).1
  exact ((next.gone_reached here onwards).refreshRun ended.reach ran' (ended.known party' known' member')).1

end

namespace Sample

/-- Someone has got hold of Ann's token. -/
def copied : Theft Realm := ⟨loggedIn, fun _ => [session ann 1000], fun _ => false⟩

theorem copied_current : Copied Realm.server platform options 1000 realm "ann" (session ann 1000) copied where
  run := .serve _ _ .start
  current := ⟨_, rfl, rfl, rfl⟩
  knows := fun _ => rfl
  completed := fun _ => rfl

/-- The thief is the first to use it. -/
def stolen : Theft Realm :=
  Theft.present Realm.server platform options { copied with cfg := { loggedIn with clock := 3000 } } .thief
    (session ann 1000) promptly

theorem stolen_reach : Theft.Reach Realm.server platform options "ann" copied stolen :=
  .present .thief _ promptly (.tick 2000 .start) (List.mem_singleton_self _)

theorem stolen_rotated : Rotated (session ann 1000) stolen.cfg.shared.store :=
  ⟨_, List.mem_cons_self, rfl, rfl, rfl⟩

theorem stolen_token_serves_one_party_replayed : ¬ (∀ party, stolen.completed party = true) ∧
    system.result stolen.cfg promptly (.refresh (session ann 1000)) = .error RefreshTokenUseCase.reuseDetected := by
  obtain ⟨one, replayed⟩ := stolen_token_serves_one_party copied_current stolen_reach
  exact ⟨one, (replayed .holder (session ann 1000) (List.mem_singleton_self _) promptly stolen_rotated).1⟩

end Sample

end KeycloakAuth
