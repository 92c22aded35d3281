import KeycloakAuth.AdminToken
import KeycloakAuth.ConformingStore
import KeycloakAuth.Ledger

namespace KeycloakAuth
open Async Service InMemoryTokenStore

/-- The world with that store in it. -/
structure WorldOver (σ κ : Type) where
  store : σ
  keycloak : κ
  adminTokenCache : Option AdminTokenCache

namespace TokenStore
variable {σ κ : Type} (store : TokenStore σ) (server : KeycloakServer κ)
  (platform : Platform) (options : Deployment)

def ask (now : Nat) (call : StoreCall) (world : WorldOver σ κ) : Except Thrown call.Ans × WorldOver σ κ :=
  let answered := store.answer now call world.store
  (answered.1, { world with store := answered.2 })

/-- Only the user data is looked for in the store; everything else is as it was. -/
def answerProvider (plan : Plan) (now : Nat) : (call : ProviderCall) → WorldOver σ κ →
    Except Thrown call.Ans × WorldOver σ κ
  | .getUserData userId key, world => store.ask now (.getUserData userId key) world
  | .saveUserData userId key value, world => store.ask now (.saveUserData userId key value) world
  | .deleteUserData userId key, world => store.ask now (.deleteUserData userId key) world
  | call, world =>
    let answered := KeycloakAuth.answerProvider server plan call ⟨.empty, world.keycloak, world.adminTokenCache⟩
    (answered.1, { world with keycloak := answered.2.keycloak, adminTokenCache := answered.2.adminTokenCache })

def answerCall (plan : Plan) (now request : Nat) : (call : Call) → WorldOver σ κ →
    Except Thrown call.Ans × WorldOver σ κ
  | .store call, world => store.ask now call world
  | .auth call, world =>
    let outcome := (providerMethod platform options call).eval
      (store.answerProvider server plan now) now request 0 world
    (outcome.result, outcome.state)
  | .render _ _, world => (plan.render, world)
  | .send _, world => (plan.send, world)

/-- The system of concurrent requests over that store. -/
def system : System Call.Ans Thrown Request Response (WorldOver σ κ) Plan (Disturbance κ) where
  body := Request.body platform options
  perform := store.answerCall server platform options
  disturb
    | .keycloak state, _, world => { world with keycloak := state }
    | .deleteExpired, now, world => (store.ask now .deleteExpired world).2

def world (keycloak : κ) : WorldOver σ κ := ⟨store.initial, keycloak, none⟩

end TokenStore

/-- Calls of two use cases that stand for each other. -/
def Call.StandsFor (names : Renaming) : Call → Call → Prop
  | .store call, .store other => names.Made call other
  | call, other => call = other

def Call.AnswersAs (names : Renaming) : (call other : Call) → call.Ans → other.Ans → Prop
  | .store call, .store other, answer, answer' => names.Answers call other answer answer'
  | .auth _, .auth _, answer, answer' => HEq answer answer'
  | .render _ _, .render _ _, mail, mail' => mail = mail'
  | _, _, _, _ => True

def callLikeness : Likeness Call.Ans Renaming where
  calls := Call.StandsFor
  answers := Call.AnswersAs
  calls_mono {names later call other} more made := by
    cases call <;> cases other <;> first | exact Renaming.Made.mono more made | exact made
  answers_mono {names later call other answer answer'} more alike := by
    cases call <;> cases other <;> first | exact Renaming.Answers.mono more alike | exact alike

/-- The calls in which no id of a record occurs, nor in their answers. -/
def Call.plain : Call → Prop
  | .store (.findByToken _ _) => False
  | .store (.markConsumed _) => False
  | _ => True

theorem Call.plain_alike (names : Renaming) (call : Call) (plain : call.plain) :
    callLikeness.calls names call call ∧ ∀ answer answer', callLikeness.answers names call call answer answer' →
      answer = answer' := by
  cases call with
  | store call =>
    cases call with
    | findByToken token type => exact plain.elim
    | markConsumed id => exact plain.elim
    | getUserData userId key => exact ⟨.same (by simp), fun _ _ same => same⟩
    | _ => exact ⟨.same (by simp), fun _ _ _ => rfl⟩
  | auth call => exact ⟨rfl, fun _ _ same => eq_of_heq same⟩
  | render template link => exact ⟨rfl, fun _ _ same => same⟩
  | send mail => exact ⟨rfl, fun _ _ _ => rfl⟩

/-- How long the records live that the use cases save. -/
def Deployment.lifetimes (options : Deployment) : List Nat :=
  [options.refreshTokenTtlMs, options.loginUseCase.preAuthTokenTtlMs, 60 * 60 * 1000, 15 * 60 * 1000]

section
variable {α β : Type} {names : Renaming}

theorem plain_mimics {body : Service α} (only : body.Only Call.plain) : body.Mimics callLikeness names body :=
  .self Call.plain_alike only names

theorem returns_mimics {body : Service α} (mimics : body.Mimics callLikeness names body) (last : α → β) :
    (body.bind fun value => .done (last value)).Mimics callLikeness names
      (body.bind fun value => .done (last value)) :=
  mimics.bind fun _ _ _ _ same => .done (congrArg last same)

/-- A record that is looked up is the same on both sides, but for its id. -/
theorem lookup_mimics {token : Str} {type : TokenType} {next : Option TokenRecord → Service α}
    (missing : ∀ later, names ≤ later → (next none).Mimics callLikeness later (next none))
    (found : ∀ later record id createdAt, names ≤ later → (record.id, id) ∈ later.pairs →
      (next (some record)).Mimics callLikeness later (next
        (some { record with id := id, createdAt := createdAt }))) :
    ((tokenStore (.findByToken token type)).bind next).Mimics callLikeness names
      ((tokenStore (.findByToken token type)).bind next) := by
  have asked : callLikeness.calls names (.store (.findByToken token type)) (.store (.findByToken token type)) :=
    .same (by simp)
  refine (Program.Matches.perform asked).bind fun later record record' more same => ?_
  cases same with
  | none => exact missing later more
  | some same =>
    obtain ⟨id, createdAt, renamed, rfl⟩ := same.cases
    exact found later _ id createdAt more renamed

/-- The same record is taken on both sides. -/
theorem take_mimics {id other : Str} {next next' : Bool → Service α} (renamed : (id, other) ∈ names.pairs)
    (goesOn : ∀ later taken, names ≤ later → (next taken).Mimics callLikeness later (next' taken)) :
    ((tokenStore (.markConsumed id)).bind next).Mimics callLikeness names
      ((tokenStore (.markConsumed other)).bind next') := by
  have asked : callLikeness.calls names (.store (.markConsumed id))
    (.store (.markConsumed other)) := .consume renamed
  refine (Program.Matches.perform asked).bind fun later taken taken' more same => ?_
  obtain rfl : taken = taken' := same
  exact goesOn later taken more

theorem saveRecord_plain (userId : String) (type : TokenType) (token : Str) (ttlMs : Nat) :
    (saveRecord userId type token ttlMs).Only Call.plain := fun _ _ _ => .perform trivial

theorem ofExcept_plain (result : Except Thrown α) : (Program.ofExcept result : Service α).Only Call.plain := by
  cases result <;> trivial

theorem login_plain (self : LoginUseCase) (platform : Platform) (email password : String) :
    (self.execute platform email password).Only Call.plain := by
  refine .bind (checkLock_only trivial fun _ => trivial) fun _ =>
    .bind (authenticate_only self trivial trivial fun _ _ => trivial) fun result => ?_
  refine .bind (.perform trivial) fun _ => .bind (.perform trivial) fun _ =>
    .bind (.perform trivial) fun secret => ?_
  split
  · exact .bind (fun nonce => trivial) fun token => .bind (saveRecord_plain _ _ _ _) fun _ => trivial
  · exact .bind (saveRecord_plain _ _ _ _) fun _ => trivial

theorem sendLink_plain (type : TokenType) (ttlMs : Nat) (template : EmailTemplate) (page message email : String) :
    (sendLink type ttlMs template page message email).Only Call.plain := by
  refine .bind (.attempt (.bind (.perform trivial) fun _ => trivial) fun error => ?_) fun lookup => ?_
  · split <;> trivial
  · cases lookup with
    | none => trivial
    | some user =>
      refine .bind (fun nonce => trivial) fun token => .bind (saveRecord_plain _ _ _ _) fun _ => ?_
      exact .bind (.perform trivial) fun mail => .bind (.perform trivial) fun _ => trivial

theorem refresh_mimics (ttlMs : Nat) (token : Str) : (RefreshTokenUseCase.execute ttlMs token).Mimics
    callLikeness names
    (RefreshTokenUseCase.execute ttlMs token) := by
  refine lookup_mimics (fun _ _ => .fail) fun later record id createdAt _ renamed => ?_
  dsimp only
  split
  · exact plain_mimics (.bind (.perform trivial) fun _ => trivial)
  refine .clock fun now => ?_
  simp only [Program.done_bind]
  split
  · exact .fail
  refine take_mimics renamed fun later consumed _ => plain_mimics ?_
  split
  · exact .bind (.perform trivial) fun _ => trivial
  · exact .bind (.perform trivial) fun payload => .bind (saveRecord_plain _ _ _ _) fun _ => trivial

theorem complete2FA_mimics (ttlMs : Nat) (token : Str) (code : String) :
    (Complete2FALoginUseCase.execute ttlMs token code).Mimics callLikeness names
      (Complete2FALoginUseCase.execute ttlMs token code) := by
  refine lookup_mimics (fun _ _ => .fail) fun later record id createdAt _ renamed => ?_
  cases used : record.consumedAt with
  | some date =>
    simp only [Option.filter, used, Option.isNone_some, Bool.false_eq_true, if_false]
    exact .fail
  | none =>
    simp only [Option.filter, used, Option.isNone_none, if_true]
    refine .clock fun now => ?_
    simp only [Program.done_bind]
    split
    · exact .fail
    have checks : (authProvider (.verify2FA record.userId code)).Mimics callLikeness later
        (authProvider (.verify2FA record.userId code)) := plain_mimics (.perform trivial)
    refine checks.bind fun later valid _ more same => ?_
    subst same
    split
    · exact .fail
    refine take_mimics (more renamed) fun later consumed _ => plain_mimics ?_
    split
    · trivial
    · exact .bind (.perform trivial) fun user => .bind (.perform trivial) fun tokens =>
        .bind (saveRecord_plain _ _ _ _) fun _ => trivial

theorem resetPassword_mimics (token : Str) (newPassword : String) :
    (ResetPasswordUseCase.execute token newPassword).Mimics callLikeness names
      (ResetPasswordUseCase.execute token newPassword) := by
  refine (plain_mimics (ofExcept_plain _)).bind fun later _ _ _ _ => ?_
  refine lookup_mimics (fun _ _ => .fail) fun later record id createdAt _ renamed => ?_
  dsimp only
  split
  · exact .fail
  refine .clock fun now => ?_
  simp only [Program.done_bind]
  split
  · exact .fail
  refine take_mimics renamed fun later consumed _ => plain_mimics ?_
  split
  · trivial
  · exact .bind (.perform trivial) fun _ => .bind (.perform trivial) fun _ => trivial

theorem verifyMagicLink_mimics (ttlMs : Nat) (token : Str) :
    (VerifyMagicLinkUseCase.execute ttlMs token).Mimics callLikeness names
      (VerifyMagicLinkUseCase.execute ttlMs token) := by
  refine lookup_mimics (fun _ _ => .fail) fun later record id createdAt _ renamed => ?_
  dsimp only
  split
  · exact .fail
  refine .clock fun now => ?_
  simp only [Program.done_bind]
  split
  · exact .fail
  refine take_mimics renamed fun later consumed _ => plain_mimics ?_
  split
  · trivial
  · exact .bind (.perform trivial) fun tokens => .bind (saveRecord_plain _ _ _ _) fun _ => trivial

theorem logout_mimics (token : Str) :
    (LogoutUseCase.execute token).Mimics callLikeness names (LogoutUseCase.execute token) := by
  have signsOut (later : Renaming) :
      (authProvider (.logout token)).Mimics callLikeness later (authProvider (.logout token)) :=
    plain_mimics (.perform trivial)
  refine lookup_mimics (fun later _ => signsOut later) fun later record id createdAt _ renamed => ?_
  dsimp only
  split
  · exact take_mimics renamed fun later _ _ => signsOut later
  · exact signsOut later

/-- Only the ids of records depend on the store that a use case is served over. -/
theorem body_mimics (platform : Platform) (options : Deployment) (request : Request) :
    (request.body platform options).Mimics callLikeness names (request.body platform options) := by
  cases request with
  | register email username password =>
    refine plain_mimics (.bind ?_ fun _ => trivial)
    refine .bind (ofExcept_plain _) fun _ => .bind (ofExcept_plain _) fun _ =>
      .bind (.perform trivial) fun user => ?_
    split
    · exact .bind (.perform trivial) fun _ => trivial
    · trivial
  | login email password => exact plain_mimics (.bind (login_plain _ _ _ _) fun _ => trivial)
  | complete2FA token code => exact returns_mimics (complete2FA_mimics _ token code) _
  | refresh token => exact returns_mimics (refresh_mimics _ token) _
  | forgotPassword email => exact plain_mimics (.bind (sendLink_plain _ _ _ _ _ _) fun _ => trivial)
  | resetPassword token newPassword => exact returns_mimics (resetPassword_mimics token newPassword) _
  | sendMagicLink email => exact plain_mimics (.bind (sendLink_plain _ _ _ _ _ _) fun _ => trivial)
  | verifyMagicLink token => exact returns_mimics (verifyMagicLink_mimics _ token) _
  | setup2FA userId => exact plain_mimics (.bind (.perform trivial) fun _ => trivial)
  | verify2FA userId code =>
    refine plain_mimics (.bind (.bind (.perform trivial) fun valid => ?_) fun _ => trivial)
    cases valid <;> trivial
  | logout token => exact returns_mimics (logout_mimics token) _

end

/-- A record is filed when the request gets its last answer before that, for one of the lifetimes. -/
theorem Phase.saving_dated {platform : Platform} {options : Deployment} {p : Nat} {request : Request}
    {history : List LogEntry} {record : TokenRecord}
    (phase : Phase platform options p request history (.awaiting (.store (.save record)))) :
    ∃ filed ttlMs, record.createdAt = .ofMs filed ∧ record.expiresAt = .ofMs (filed + ttlMs) ∧
      ttlMs ∈ options.lifetimes ∧ ∃ entry ∈ history, entry.time = filed := by
  cases request with
  | login email password =>
    cases phase with
    | challenging passed enrolled =>
      refine ⟨_, _, rfl, rfl, List.mem_cons_of_mem _ List.mem_cons_self, ?_⟩
      exact ⟨_, List.mem_append_right _ (List.mem_of_getLast? rfl), rfl⟩
    | saving passed notEnrolled =>
      exact ⟨_, _, rfl, rfl, List.mem_cons_self, _, List.mem_append_right _ (List.mem_of_getLast? rfl), rfl⟩
  | complete2FA token code =>
    cases phase with | saving => exact ⟨_, _, rfl, rfl, List.mem_cons_self, _, List.mem_of_getLast? rfl, rfl⟩
  | refresh token =>
    cases phase with | saving => exact ⟨_, _, rfl, rfl, List.mem_cons_self, _, List.mem_of_getLast? rfl, rfl⟩
  | verifyMagicLink token =>
    cases phase with | saving => exact ⟨_, _, rfl, rfl, List.mem_cons_self, _, List.mem_of_getLast? rfl, rfl⟩
  | forgotPassword email =>
    cases phase with
    | saving => exact ⟨_, _, rfl, rfl, by simp [Deployment.lifetimes], _, List.mem_of_getLast? rfl, rfl⟩
  | sendMagicLink email =>
    cases phase with
    | saving => exact ⟨_, _, rfl, rfl, by simp [Deployment.lifetimes], _, List.mem_of_getLast? rfl, rfl⟩
  | resetPassword token newPassword => cases phase
  | logout token => cases phase
  | register email username password => cases phase
  | setup2FA userId => cases phase
  | verify2FA userId code => cases phase

section
variable {σ κ : Type} {server : KeycloakServer κ} {platform : Platform} {options : Deployment} {clock last : Nat}
  {keycloak : κ} {cfg : AuthConfig κ} {names : Renaming} {log longer : List LogEntry} {world : World κ}
  {world' : WorldOver σ κ} {store : ConformingStore σ}

/-- The two worlds hold the same, but for the ids of the records, which are those of saved records. -/
structure ConformingStore.Carries (store : ConformingStore σ) (names : Renaming)
    (world : World κ) (log : List LogEntry)
    (world' : WorldOver σ κ) : Prop where
  store : store.holds names world.store world'.store
  keycloak : world'.keycloak = world.keycloak
  adminTokenCache : world'.adminTokenCache = world.adminTokenCache
  saved : ∀ pair ∈ names.pairs, ∃ record, Saved log record ∧ record.id = pair.1

namespace ConformingStore.Carries

theorem grows (carries : store.Carries names world log world') (sub : log ⊆ longer) :
    store.Carries names world longer world' where
  store := carries.store
  keycloak := carries.keycloak
  adminTokenCache := carries.adminTokenCache
  saved pair member := by
    obtain ⟨record, saved, same⟩ := carries.saved pair member
    exact ⟨record, saved.mono sub, same⟩

/-- One call of the store. -/
theorem ask (carries : store.Carries names world log world') {call other : StoreCall} (now : Nat)
    (called : names.Call call other) (sub : log ⊆ longer)
    (logged : ∀ record, call = .save record → Saved longer record) :
    ∃ later, names ≤ later ∧
      storeLikeness.Answered later call other (.ok (answerStore now call world.store).1)
        (store.ask now other world').1 ∧
      store.Carries later { world with store := (answerStore now call world.store).2 } longer
        (store.ask now other world').2 := by
  obtain ⟨later, more, added, answered, after⟩ := store.step now carries.store called
  refine ⟨later, more, answered, after, carries.keycloak, carries.adminTokenCache, fun pair member => ?_⟩
  rcases added pair member with old | ⟨record, saves, same⟩
  · obtain ⟨record, saved, same⟩ := carries.saved pair old
    exact ⟨record, saved.mono sub, same⟩
  · exact ⟨record, logged record saves, same.symm⟩

/-- A call that saves no record, and finds none. -/
theorem asked (carries : store.Carries names world log world') (now : Nat) (call : StoreCall)
    (looked : ∀ id, call ≠ .markConsumed id) (keeps : ∀ record, call ≠ .save record)
    (found : ∀ token type, call ≠ .findByToken token type) : ∃ later, names ≤ later ∧
      (store.ask now call world').1 = .ok (answerStore now call world.store).1 ∧
      store.Carries later { world with store := (answerStore now call world.store).2 } log
        (store.ask now call world').2 := by
  have called : names.Call call call := .same looked fun record same => absurd same (keeps record)
  obtain ⟨later, more, answered, after⟩ :=
    carries.ask now called (List.Subset.refl log) fun record same => absurd same (keeps record)
  refine ⟨later, more, ?_, after⟩
  generalize (store.ask now call world').1 = answer at answered
  cases answered with
  | answered same =>
    cases call with
    | save record => exact absurd rfl (keeps record)
    | findByToken token type => exact absurd rfl (found token type)
    | markConsumed id => exact absurd rfl (looked id)
    | getUserData userId key => exact congrArg Except.ok (Eq.symm same)
    | _ => rfl

theorem answerProvider (carries : store.Carries names world log world') (plan : Plan)
    (now : Nat) (call : ProviderCall) :
    ∃ later, names ≤ later ∧
      (store.answerProvider server plan now call world').1 =
        (KeycloakAuth.answerProvider server plan call world).1 ∧
      store.Carries later (KeycloakAuth.answerProvider server plan call world).2 log
        (store.answerProvider server plan now call world').2 := by
  cases call with
  | getUserData userId key => exact carries.asked now _ (by simp) (by simp) (by simp)
  | saveUserData userId key value => exact carries.asked now _ (by simp) (by simp) (by simp)
  | deleteUserData userId key => exact carries.asked now _ (by simp) (by simp) (by simp)
  | readAdminTokenCache => exact ⟨names, le_rfl, congrArg Except.ok carries.adminTokenCache, carries⟩
  | writeAdminTokenCache entry => exact ⟨names, le_rfl, rfl, carries.store, carries.keycloak, rfl, carries.saved⟩
  | toDataURL secret => exact ⟨names, le_rfl, rfl, carries⟩
  | http call =>
    refine ⟨names, le_rfl, ?_⟩
    simp only [TokenStore.answerProvider, KeycloakAuth.answerProvider, answerHttp, carries.keycloak]
    cases plan.http call with
    | some response => exact ⟨rfl, carries.store, rfl, carries.adminTokenCache, carries.saved⟩
    | none =>
      cases serveHttp server world.keycloak call with
      | error response => exact ⟨rfl, carries.store, rfl, carries.adminTokenCache, carries.saved⟩
      | ok answered => exact ⟨rfl, carries.store, rfl, carries.adminTokenCache, carries.saved⟩

variable (server platform options) in
theorem answerAuth (carries : store.Carries names world log world') (plan : Plan) (now p : Nat) (call : AuthCall) :
    let answered := KeycloakAuth.answerAuth server platform options plan now p call world
    let answered' := store.answerCall server platform options plan now p (.auth call) world'
    ∃ later, names ≤ later ∧ answered'.1 = answered.1 ∧ store.Carries later answered.2 log answered'.2 := by
  have evaluated : KeycloakAuth.answerAuth server platform options plan now p call world =
      evalMethod server plan now p (providerMethod platform options call) world := by cases call <;> rfl
  rw [evaluated]
  obtain ⟨result, later, more, after⟩ := Program.eval_follows
    (fun names world world' => store.Carries names world log world')
    (fun call carries => carries.answerProvider plan now call)
      (providerMethod platform options call) now p 0 carries
  exact ⟨later, more, result, after⟩

end ConformingStore.Carries

/-- A record that a request is about to save is fresh, and dated within the range of dates. -/
theorem reach_called (reach : (authSystem server platform options).Reach anyEvent
    (.start clock (.fresh keycloak)) cfg)
    (within : ∀ ttlMs ∈ options.lifetimes, last + ttlMs ≤ Date.maxTime) (early : cfg.clock ≤ last) {p : Nat}
    {thread : Thread Call.Ans Thrown Request Response} {call other : StoreCall} {rest}
    (found : cfg.threads[p]? = some thread) (waiting : thread.state = .awaiting (.store call) rest)
    (made : names.Made call other) (saved : ∀ pair ∈ names.pairs, ∃ record,
      Saved cfg.log record ∧ record.id = pair.1) :
    names.Call call other := by
  cases made with
  | consume renamed => exact .consume renamed
  | same looked =>
    refine .same looked fun record same => ?_
    subst same
    have phase := reach_phase reach found
    rw [waiting] at phase
    obtain ⟨filed, ttlMs, created, expires, lifetime, entry, own, same⟩ := phase.saving_dated
    have past : filed ≤ cfg.clock := same ▸ reach.time_le entry (System.mem_history.mp own).1
    have bound := within ttlMs lifetime
    refine ⟨fun pair member => ?_, phase.saving.2.1, ⟨_, ?_, expires⟩, ⟨_, ?_, created⟩⟩
    · obtain ⟨old, saved, same⟩ := saved pair member
      exact same ▸ reach_save_fresh reach found waiting old saved
    · omega
    · omega

theorem answered_store {call other : StoreCall} {answer : Except Thrown call.Ans}
    {answer' : Except Thrown other.Ans}
    (answered : storeLikeness.Answered names call other answer answer') :
    callLikeness.Answered names (.store call) (.store other) answer answer' := by
  cases answered with
  | rejected error => exact .rejected error
  | answered same => exact .answered same

theorem answered_self {call : Call} (other : ∀ asked, call ≠ .store asked) (answer : Except Thrown call.Ans) :
    callLikeness.Answered names call call answer answer := by
  cases answer with
  | error error => exact .rejected error
  | ok answer =>
    refine .answered ?_
    cases call with
    | store asked => exact absurd rfl (other asked)
    | auth call => exact HEq.rfl
    | render template link => exact rfl
    | send mail => trivial

/-- Over a conforming store the module follows the module over the in-memory store. -/
theorem ConformingStore.follows (store : ConformingStore σ)
    (within : ∀ ttlMs ∈ options.lifetimes, last + ttlMs ≤ Date.maxTime) :
    System.Follows callLikeness store.Carries (authSystem server platform options)
      (store.system server platform options)
      (.start clock (.fresh keycloak)) last where
  bodies _ request := body_mimics platform options request
  performed {cfg names world' p thread call rest call'} plan reach early found waiting made carries := by
    have longer (answer : Except Thrown call.Ans) : cfg.log ⊆ cfg.log ++ [⟨p, call, answer, cfg.clock⟩] :=
      List.subset_append_left ..
    cases call with
    | store call =>
      cases call' with
      | store other =>
        have called := reach_called reach within early found waiting made carries.saved
        obtain ⟨later, more, answered, after⟩ := carries.ask cfg.clock called
          (longer (.ok (answerStore cfg.clock call cfg.shared.store).1)) fun record same => by
            subst same
            exact ⟨_, List.mem_append_right _ (List.mem_singleton_self _), rfl⟩
        exact ⟨later, more, answered_store answered, after⟩
      | _ => cases made
    | auth call =>
      cases (show Call.auth call = call' from made)
      obtain ⟨later, more, same, after⟩ := carries.answerAuth server platform options plan cfg.clock p call
      refine ⟨later, more, ?_, after.grows (longer _)⟩
      have answered : callLikeness.Answered later (.auth call) (.auth call)
          (answerAuth server platform options plan cfg.clock p call cfg.shared).1
          (answerAuth server platform options plan cfg.clock p call cfg.shared).1 := answered_self (by simp) _
      exact same ▸ answered
    | render template link =>
      cases (show Call.render template link = call' from made)
      exact ⟨names, le_rfl, answered_self (by simp) _, carries.grows (longer _)⟩
    | send mail =>
      cases (show Call.send mail = call' from made)
      exact ⟨names, le_rfl, answered_self (by simp) _, carries.grows (longer _)⟩
  disturbed {names world log world'} change now carries := by
    cases change with
    | keycloak state =>
      exact ⟨names, le_rfl, carries.store, rfl, carries.adminTokenCache, carries.saved⟩
    | deleteExpired =>
      obtain ⟨later, more, -, after⟩ := carries.asked now .deleteExpired (by simp) (by simp) (by simp)
      exact ⟨later, more, after⟩

/-- An application may take any conforming store instead of the one in memory: whatever the module does over it,
in any interleaving, the module over the in-memory store does under the same events. The requests return and
throw the same, the same mails are sent, and Keycloak gets the same calls. -/
theorem store_replaceable (store : ConformingStore σ) {events : List (AuthEvent κ)}
    {cfg' : Config Call.Ans Thrown Request Response (WorldOver σ κ)}
    (ran : (store.system server platform options).run (.start clock (store.world keycloak)) events = some cfg')
    (within : ∀ ttlMs ∈ options.lifetimes, cfg'.clock + ttlMs ≤ Date.maxTime) :
    ∃ names cfg, (authSystem server platform options).run (.start clock (.fresh keycloak)) events = some cfg ∧
      cfg.Mimics callLikeness store.Carries names cfg' := by
  have carries : store.Carries .empty (World.fresh keycloak) [] (store.world keycloak) :=
    ⟨store.start, rfl, rfl, fun _ no => (List.not_mem_nil no).elim⟩
  have mimics : (Config.start clock (World.fresh keycloak) : AuthConfig κ).Mimics callLikeness store.Carries .empty
      (.start clock (store.world keycloak)) := ⟨rfl, carries, .nil, .nil⟩
  obtain ⟨cfg, names, same, -, mimics⟩ := (store.follows within).run .start mimics ran (Nat.le_refl _)
  exact ⟨names, cfg, same, mimics⟩

end

namespace Sample

/-- Ann logs in, and her refresh token is presented twice at a time. -/
def presentedTwice : List (AuthEvent Realm) :=
  .arrive (.login "ann@mail" "ann password") :: List.replicate 6 (.resume 0 .good) ++
    [.tick 2000, .arrive (.refresh (session ann 1000)), .arrive (.refresh (session ann 1000)), .resume 1 .good,
      .resume 2 .good, .resume 2 .good, .resume 1 .good, .resume 2 .good, .resume 1 .good, .resume 2 .good]

def overDrizzle : ConformingStore DrizzleTokenStore := drizzleTokenStore fun _ => .error "SQLITE_CONSTRAINT"

/-- Over either store the slower request is told that the token has been used, and the faster one gets its
tokens. -/
theorem store_replaceable_presentedTwice : ∃ names cfg cfg',
    (overDrizzle.system Realm.server platform options).run (.start 1000 (overDrizzle.world realm)) presentedTwice =
        some cfg' ∧
      system.run start presentedTwice = some cfg ∧ cfg.Mimics callLikeness overDrizzle.Carries names cfg' ∧
      cfg'.threads[1]?.map (·.state.view) = some (.threw RefreshTokenUseCase.reuseDetected) ∧
      cfg'.shared.store.tokens.length = 1 := by
  have ran : ∃ cfg', (overDrizzle.system Realm.server platform options).run (.start 1000 (overDrizzle.world realm))
      presentedTwice = some cfg' ∧ cfg'.clock = 3000 ∧
      cfg'.threads[1]?.map (·.state.view) = some (.threw RefreshTokenUseCase.reuseDetected) ∧
      cfg'.shared.store.tokens.length = 1 := ⟨_, rfl, rfl, rfl, rfl⟩
  obtain ⟨cfg', ran, clock, refused, left⟩ := ran
  have within : ∀ ttlMs ∈ options.lifetimes, cfg'.clock + ttlMs ≤ Date.maxTime := by
    rw [clock]
    decide
  obtain ⟨names, cfg, same, mimics⟩ := store_replaceable overDrizzle ran within
  exact ⟨names, cfg, cfg', ran, same, mimics, refused, left⟩

end Sample

end KeycloakAuth
