import KeycloakAuth.Browser

namespace KeycloakAuth
open Async KeycloakAuthProvider

/-- The token store, the renderer and the mailer as a use case sees them, and the subscribers of events. They
may keep a state of their own, and any of their answers may be an error. -/
structure Collaborators (σ : Type) where
  answer : (now request : Nat) → (call : Call) → σ → Except Thrown call.Ans × σ
  emit : EmittedEvent → σ → Except Thrown Unit

def HttpResponse.outcome (response : HttpResponse) : Nat × Body := (response.status, response.body)

section
variable {κ σ : Type} (server : KeycloakServer κ) (platform : Platform) (self : AuthController)
  (collaborators : Collaborators σ)

/-- The provider answers for itself, everything else is up to the collaborators. -/
def answerWith (plan : Plan) (now request : Nat) : (call : Call) → World κ × σ →
    Except Thrown call.Ans × (World κ × σ)
  | .auth call, (world, state) =>
    let answered := answerAuth server platform self.options plan now request call world
    (answered.1, answered.2, state)
  | .store call, (world, state) =>
    let answered := collaborators.answer now request (.store call) state
    (answered.1, world, answered.2)
  | .render template link, (world, state) =>
    let answered := collaborators.answer now request (.render template link) state
    (answered.1, world, answered.2)
  | .send mail, (world, state) =>
    let answered := collaborators.answer now request (.send mail) state
    (answered.1, world, answered.2)

/-- The end of a handler whose use case has answered `result`. `timestamp` is the time at which an error was
made, if there was one. -/
def AuthController.ending (request : Request) (sub : String) (timestamp : Nat) (result : Except Thrown Response)
    (state : σ) : HttpResponse :=
  match result with
  | .error thrown => rejected thrown timestamp []
  | .ok response => (self.respond request sub response).finish (collaborators.emit · state) timestamp

/-- Serves one HTTP request as number `p`. -/
def AuthController.answerWith (schedule : Schedule Plan) (p clock timestamp : Nat) (world : World κ) (state : σ)
    (http : HttpRequest) : HttpResponse :=
  match self.dispatch http clock with
  | .error response => response
  | .ok (.done handled) => handled.finish (collaborators.emit · state) timestamp
  | .ok (.useCase request sub) =>
    let driven := (request.body platform self.options).drive
      (KeycloakAuth.answerWith server platform self collaborators) p schedule clock 0 (world, state) []
    self.ending collaborators request sub timestamp driven.result driven.shared.2

/-- Two states of Keycloak that differ in whether there is an account with that address. -/
structure DifferIn (email : String) (without having : κ) : Prop where
  credentials : server.clientCredentials having = server.clientCredentials without
  none : server.usersByEmail without email = .ok []
  some : ∃ account others, server.usersByEmail having email = .ok (account :: others)

/-- The request is answered with the same status and the same body whether there is an account or not. -/
def SameOutcome (schedule : Schedule Plan) (p clock timestamp : Nat) (world : World κ)
    (without having : κ) (state : σ) (http : HttpRequest) : Prop :=
  (self.answerWith server platform collaborators schedule p clock timestamp { world with keycloak := without } state
    http).outcome =
  (self.answerWith server platform collaborators schedule p clock timestamp { world with keycloak := having } state
    http).outcome

/-- Neither endpoint tells whether there is an account, whatever the collaborators do. -/
def NoEnumeration (σ : Type) : Prop :=
  ∀ (collaborators : Collaborators σ) (schedule : Schedule Plan) (p clock timestamp : Nat) (world : World κ)
    (without having : κ) (state : σ) (email : String) (bearer : Option Str) (cookies : List (String × Str)),
    DifferIn server email without having →
    SameOutcome server platform self collaborators schedule p clock timestamp world without having state
      ⟨.forgotPassword email, bearer, cookies⟩ ∧
    SameOutcome server platform self collaborators schedule p clock timestamp world without having state
      ⟨.sendMagicLink email, bearer, cookies⟩

/-- The link for `user` is stored, rendered and sent without an error, which leaves the collaborators in a state. -/
inductive Delivers (schedule : Schedule Plan) (p clock : Nat) (state : σ) (type : TokenType) (ttlMs : Nat)
    (template : EmailTemplate) (page : String) (user : User) : σ → Prop
  | sent {saved rendered sent mail}
      (saves : collaborators.answer (clock + (schedule 0).1 + (schedule 1).1) p
        (.store (.save (freshRecord ⟨p, 1⟩ user.id type (.random ⟨p, 0⟩) ttlMs (clock + (schedule 0).1)))) state =
          (.ok (), saved))
      (renders : collaborators.answer (clock + (schedule 0).1 + (schedule 1).1 + (schedule 2).1) p
        (.render template ⟨page, .random ⟨p, 0⟩⟩) saved = (.ok mail, rendered))
      (sends : collaborators.answer (clock + (schedule 0).1 + (schedule 1).1 + (schedule 2).1 + (schedule 3).1) p
        (.send ⟨user.email, mail.subject, mail.html, mail.text⟩) rendered = (.ok (), sent)) :
      Delivers schedule p clock state type ttlMs template page user sent

/-- What the provider answers to the lookup of the address. -/
def lookedUp (schedule : Schedule Plan) (p clock : Nat) (world : World κ) (email : String) : Except Thrown User :=
  (answerAuth server platform self.options (schedule 0).2 (clock + (schedule 0).1) p
    (.getUserByEmail email) world).1

end

section
variable {κ σ : Type} {server : KeycloakServer κ} {platform : Platform} {self : AuthController}
  {collaborators : Collaborators σ} {schedule : Schedule Plan} {p clock timestamp : Nat} {world : World κ}
  {without having : κ} {state : σ} {email : String}

theorem lookedUp_eq (k : κ) :
    lookedUp server platform self schedule p clock { world with keycloak := k } email =
      ((adminRequest platform (.usersByEmail email)).eval (answerProvider server (schedule 0).2)
        (clock + (schedule 0).1) p 0 { world with keycloak := k }).result.bind fun users =>
          (users.head?.elim (.error (.domain .userNotFound
            ("User with email " ++ email ++ " not found"))) fun found =>
            .ok (kcUserToUser found (clock + (schedule 0).1))) := by
  simp only [lookedUp, answerAuth, evalMethod, getUserByEmail, Program.bind_eq, Program.eval_bind, Outcome.andThen]
  split
  · rename_i users listed
    rw [listed]
    cases users <;> rfl
  · rename_i error failed
    rw [failed]
    rfl

variable (platform self schedule p clock world) in
/-- The lookup fails alike in both states, or it finds the account in one and nothing in the other. -/
theorem DifferIn.lookedUp (differ : DifferIn server email without having) :
    (∃ error, lookedUp server platform self schedule p clock
      { world with keycloak := having } email = .error error ∧
      lookedUp server platform self schedule p clock { world with keycloak := without } email = .error error) ∨
    ∃ user message,
      lookedUp server platform self schedule p clock { world with keycloak := having } email = .ok user ∧
      user.id ≠ "" ∧ lookedUp server platform self schedule p clock { world with keycloak := without } email =
        .error (.domain .userNotFound message) := by
  obtain ⟨account, others, listed⟩ := differ.some
  rw [lookedUp_eq, lookedUp_eq, adminRequest_result, adminRequest_result,
    getAdminToken_result server (schedule 0).2 (clock + (schedule 0).1) p { world with keycloak := without }
      { world with keycloak := having } rfl differ.credentials]
  cases (getAdminToken.eval (answerProvider server (schedule 0).2) (clock + (schedule 0).1) p 0
    { world with keycloak := without }).result with
  | error error => exact .inl ⟨error, rfl, rfl⟩
  | ok token =>
    simp only [Except.bind, adminAnswer, serveAdmin, differ.none, listed]
    cases (schedule 0).2.http (.admin token (.usersByEmail email)) with
    | some response => cases response <;> exact .inl ⟨_, rfl, rfl⟩
    | none =>
      obtain ⟨id, own, named⟩ := server.usersByEmail_id _ _ _ listed account List.mem_cons_self
      refine .inr ⟨_, _, rfl, ?_, rfl⟩
      simpa [kcUserToUser, own] using named

/-- How a request for a link ends, and in which state it leaves the collaborators. -/
inductive LinkRun (collaborators : Collaborators σ) (schedule : Schedule Plan) (p clock : Nat) (state : σ)
    (type : TokenType) (ttlMs : Nat) (template : EmailTemplate) (page message : String) :
    Except Thrown User → Except Thrown Response → σ → Prop
  | unknown {reason} : LinkRun collaborators schedule p clock state type ttlMs template page message
      (.error (.domain .userNotFound reason)) (.ok (.linkSent message none)) state
  | failed {error} (other : ∀ reason, error ≠ .domain .userNotFound reason) :
      LinkRun collaborators schedule p clock state type ttlMs template page message (.error error)
        (.error error) state
  | lost {user error after}
      (undelivered : ∀ sent, ¬ Delivers collaborators schedule p clock state type ttlMs template page user sent) :
      LinkRun collaborators schedule p clock state type ttlMs template page message (.ok user) (.error error) after
  | delivered {user sent} (delivers : Delivers collaborators schedule p clock state type
      ttlMs template page user sent) :
      LinkRun collaborators schedule p clock state type ttlMs template page message (.ok user)
        (.ok (.linkSent message (some user.id))) sent

theorem drive_sendLink (type : TokenType) (ttlMs : Nat) (template : EmailTemplate) (page message : String) :
    let driven := ((sendLink type ttlMs template page message email).bind fun sent =>
        .done (.linkSent sent.1 sent.2)).drive (answerWith server platform self collaborators) p schedule clock 0
      (world, state) []
    LinkRun collaborators schedule p clock state type ttlMs template page message
      (lookedUp server platform self schedule p clock world email) driven.result driven.shared.2 := by
  simp only [sendLink, Service.authProvider, Program.bind_eq, Program.tryCatch_eq,
    Program.perform, Program.await_bind,
    Program.attempt, Program.drive, answerWith, lookedUp]
  generalize answerAuth server platform self.options (schedule 0).2 (clock + (schedule 0).1) p
    (.getUserByEmail email) world = looked
  obtain ⟨looked, after⟩ := looked
  cases looked with
  | error error =>
    cases error with
    | domain kind reason =>
      cases kind with
      | userNotFound => exact .unknown
      | _ => exact .failed (by simp)
    | error reason => exact .failed (by simp)
    | rangeError => exact .failed (by simp)
    | axios response => exact .failed (by simp)
  | ok user =>
    simp only [Program.ofExcept_ok, Program.done_bind, Program.pure_eq, Program.attempt,
      Service.randomHex, saveRecord, Service.dateIn, Service.newDate, Service.tokenStore, Program.bind_eq,
      Program.random_bind, Program.now_bind, Program.perform, Program.draw_bind, Program.clock_bind,
      Program.await_bind, Program.drive, answerWith, Nat.zero_add]
    generalize saves : collaborators.answer (clock + (schedule 0).1 + (schedule 1).1) p
      (.store (.save (freshRecord ⟨p, 1⟩ user.id type (.random ⟨p, 0⟩) ttlMs (clock + (schedule 0).1)))) state =
        answer
    obtain ⟨stored, saved⟩ := answer
    cases stored with
    | error error =>
      refine .lost fun sent delivers => ?_
      cases delivers with | sent saves' => cases saves.symm.trans saves'
    | ok value =>
    simp only [Program.ofExcept_ok, Program.done_bind, Program.await_bind, Program.drive, answerWith, Nat.zero_add,
      Nat.reduceAdd]
    generalize renders : collaborators.answer (clock + (schedule 0).1 + (schedule 1).1 + (schedule 2).1) p
      (.render template ⟨page, .random ⟨p, 0⟩⟩) saved = answer
    obtain ⟨mail, rendered⟩ := answer
    cases mail with
    | error error =>
      refine .lost fun sent delivers => ?_
      cases delivers with
      | sent saves' renders' =>
        cases saves.symm.trans saves'
        cases renders.symm.trans renders'
    | ok mail =>
    simp only [Program.ofExcept_ok, Program.done_bind, Program.await_bind, Program.drive, answerWith, Nat.zero_add,
      Nat.reduceAdd]
    generalize sends : collaborators.answer
      (clock + (schedule 0).1 + (schedule 1).1 + (schedule 2).1 + (schedule 3).1) p
      (.send ⟨user.email, mail.subject, mail.html, mail.text⟩) rendered = answer
    obtain ⟨posted, sent⟩ := answer
    cases posted with
    | error error =>
      refine .lost fun other delivers => ?_
      cases delivers with
      | sent saves' renders' sends' =>
        cases saves.symm.trans saves'
        cases renders.symm.trans renders'
        cases sends.symm.trans sends'
    | ok value => exact .delivered (.sent saves renders sends)

theorem Delivers.unique {type : TokenType} {ttlMs : Nat} {template : EmailTemplate} {page : String} {user : User}
    {sent other : σ} (one : Delivers collaborators schedule p clock state type ttlMs template page user sent)
    (two : Delivers collaborators schedule p clock state type ttlMs template page user other) : sent = other := by
  cases one with
  | sent saves renders sends =>
    cases two with
    | sent saves' renders' sends' =>
      cases saves.symm.trans saves'
      cases renders.symm.trans renders'
      cases sends.symm.trans sends'
      rfl

/-- No error looks like a success. -/
theorem rejected_outcome (thrown : Thrown) (timestamp : Nat) (cookies : List (Http.SetCookie Str)) (body : Body) :
    (200, body) ≠ (rejected thrown timestamp cookies).outcome := by
  intro same
  have status : 200 = (rejected thrown timestamp cookies).status := (Prod.mk.inj same).1
  have failed := rejected_ok thrown timestamp cookies
  simp [HttpResponse.ok, ← status] at failed

/-- An endpoint that sends a link answers alike in both states exactly when the link reaches whom is found, and the
subscribers of its event accept it. -/
theorem LinkRun.same_iff (differ : DifferIn server email without having) (request : Request) {type : TokenType}
    {ttlMs : Nat} {template : EmailTemplate} {page message : String}
    (handled : Option String → Handled) {body : Body}
    (responds : ∀ userId, self.respond request "" (.linkSent message userId) = handled userId)
    (status : ∀ userId, (handled userId).status = 200) (told : ∀ userId, (handled userId).body = body)
    (quiet : (handled none).event = none) {result result' : Except Thrown Response} {after after' : σ}
    (run : LinkRun collaborators schedule p clock state type ttlMs template page message
      (KeycloakAuth.lookedUp server platform self schedule p clock { world with keycloak := without } email) result
      after)
    (run' : LinkRun collaborators schedule p clock state type ttlMs template page message
      (KeycloakAuth.lookedUp server platform self schedule p clock { world with keycloak := having } email) result'
      after') :
    (self.ending collaborators request "" timestamp result after).outcome =
        (self.ending collaborators request "" timestamp result' after').outcome ↔
      ∀ user, KeycloakAuth.lookedUp server platform self schedule p clock { world with keycloak := having } email =
        .ok user → ∃ sent, Delivers collaborators schedule p clock state type ttlMs template page user sent ∧
          (handled (some user.id)).event.elim (.ok ()) (collaborators.emit · sent) = .ok () := by
  have accepted {userId : Option String} {end_state : σ}
      (resolves : (handled userId).event.elim (.ok ()) (collaborators.emit · end_state) = .ok ()) :
      (self.ending collaborators request "" timestamp (.ok (.linkSent message userId)) end_state).outcome =
        (200, body) := by
    simp only [AuthController.ending, responds, Handled.finish, resolves, HttpResponse.outcome, status, told]
  rcases differ.lookedUp platform self schedule p clock world with
    ⟨error, failed, failed'⟩ | ⟨user, reason, found, named, absent⟩
  · rw [failed'] at run
    rw [failed] at run' ⊢
    have same : result = result' ∧ after = after' := by
      cases run with
      | unknown =>
        cases run' with
        | unknown => exact ⟨rfl, rfl⟩
        | failed other => exact absurd rfl (other _)
      | failed other =>
        cases run' with
        | unknown => exact absurd rfl (other _)
        | failed other => exact ⟨rfl, rfl⟩
    rw [same.1, same.2]
    exact ⟨fun _ user no => by (cases no), fun _ => rfl⟩
  · rw [absent] at run
    rw [found] at run' ⊢
    cases run with
    | failed other => exact absurd rfl (other reason)
    | unknown =>
    rw [accepted (by rw [quiet]; rfl)]
    cases run' with
    | lost undelivered =>
      constructor
      · exact fun same => absurd same (rejected_outcome _ _ _ _)
      · intro delivered
        obtain ⟨sent, delivers, -⟩ := delivered user rfl
        exact absurd delivers (undelivered sent)
    | delivered delivers =>
      constructor
      · rintro same _ ⟨⟩
        refine ⟨after', delivers, ?_⟩
        cases resolved : (handled (some user.id)).event.elim (.ok ()) (collaborators.emit · after') with
        | ok value => rfl
        | error thrown =>
          simp only [AuthController.ending, responds, Handled.finish, resolved] at same
          exact absurd same (rejected_outcome _ _ _ _)
      · intro delivered
        obtain ⟨sent, again, resolves⟩ := delivered user rfl
        rw [accepted (delivers.unique again ▸ resolves)]

variable (server platform self collaborators schedule p clock timestamp world without having state email) in
/-- Neither endpoint tells anything exactly when all goes well with the link that only one of the states sends. -/
theorem same_outcome_iff (bearer : Option Str) (cookies : List (String × Str))
    (differ : DifferIn server email without having) :
    (SameOutcome server platform self collaborators schedule p clock timestamp world without having state
        ⟨.forgotPassword email, bearer, cookies⟩ ↔
      ∀ user, lookedUp server platform self schedule p clock { world with keycloak := having } email = .ok user →
        ∃ sent, Delivers collaborators schedule p clock state .resetPassword (60 * 60 * 1000) .forgotPassword
          (self.options.baseUrl ++ "/reset-password?token=") user sent) ∧
    (SameOutcome server platform self collaborators schedule p clock timestamp world without having state
        ⟨.sendMagicLink email, bearer, cookies⟩ ↔
      ∀ user, lookedUp server platform self schedule p clock { world with keycloak := having } email = .ok user →
        ∃ sent, Delivers collaborators schedule p clock state .magicLink (15 * 60 * 1000) .magicLink
          (self.options.baseUrl ++ "/magic-link?token=") user sent ∧
          collaborators.emit (.magicLinkSent user.id email) sent = .ok ()) := by
  have named (user : User)
      (found : lookedUp server platform self schedule p clock { world with keycloak := having } email = .ok user) :
      user.id ≠ "" := by
    rcases differ.lookedUp platform self schedule p clock world with ⟨error, failed, -⟩ | ⟨_, _, again, named, -⟩
    · cases failed.symm.trans found
    · cases again.symm.trans found
      exact named
  constructor
  · refine (LinkRun.same_iff differ (.forgotPassword email) (fun _ => AuthController.forgotPassword) (fun _ => rfl)
      (fun _ => rfl) (fun _ => rfl) rfl (drive_sendLink ..) (drive_sendLink ..)).trans ?_
    simp [AuthController.forgotPassword]
  · refine (LinkRun.same_iff differ (.sendMagicLink email) (AuthController.sendMagicLink email) (fun _ => rfl)
      (fun _ => rfl) (fun _ => rfl) rfl (drive_sendLink ..) (drive_sendLink ..)).trans ?_
    refine forall_congr' fun user => forall_congr' fun found => ?_
    have filtered : (some user.id).filter (fun userId => decide (userId ≠ "")) = some user.id := by
      rw [Option.filter_some, if_pos (by simpa using named user found)]
    simp only [AuthController.sendMagicLink, filtered, Option.map_some, Option.elim_some]

end

namespace Sample

/-- Nothing fails, except that the mailer may reject. -/
def mailing (send : Except Thrown Unit) : Collaborators Unit where
  answer _ _
    | .store (.save _), state => (.ok (), state)
    | .render _ _, state => (.ok ⟨"", "", ""⟩, state)
    | .send _, state => (send, state)
    | _, state => (.error .rangeError, state)
  emit _ := fun _ => .ok ()

/-- The realm with Ann's account and without. -/
theorem ann_differs : DifferIn Realm.server "ann@mail" ⟨[], true, false⟩ realm where
  credentials := rfl
  none := rfl
  some := ⟨_, _, rfl⟩

theorem same_outcome_iff_delivered :
    SameOutcome Realm.server platform controller (mailing (.ok ())) promptly 0 1000 1000 (.fresh realm)
      ⟨[], true, false⟩ realm () ⟨.forgotPassword "ann@mail", none, []⟩ := by
  refine (same_outcome_iff Realm.server platform controller (mailing (.ok ())) promptly 0 1000 1000 (.fresh realm)
    ⟨[], true, false⟩ realm () "ann@mail" none [] ann_differs).1.mpr fun user found => ?_
  exact ⟨(), .sent rfl rfl rfl⟩

/-- When the mail server is down, there is an answer only for an address without an account. -/
theorem enumeration : ¬ NoEnumeration Realm.server platform controller Unit := by
  intro same
  have told := (same (mailing (.error (.error "connect ECONNREFUSED"))) promptly 0 1000 1000 (.fresh realm)
    ⟨[], true, false⟩ realm () "ann@mail" none [] ann_differs).1
  cases told

end Sample

end KeycloakAuth
