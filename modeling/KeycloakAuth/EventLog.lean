import KeycloakAuth.Browser
import KeycloakAuth.Enrolment

namespace KeycloakAuth
open Async Service LoginUseCase InMemoryTokenStore

/-- The user of a session that an entry of the log has stored. -/
def savedSession : LogEntry → Option String
  | ⟨_, .store (.save record), .ok _, _⟩ => if record.type = .refreshToken then some record.userId else none
  | _ => none

/-- The user that an event says has logged in. -/
def EmittedEvent.loggedIn : EmittedEvent → Option String
  | .userLoggedIn userId _ => some userId
  | _ => none

section
variable {κ : Type}

section
variable (server : KeycloakServer κ) (platform : Platform) (options : Deployment) (cfg : AuthConfig κ)
  (schedule : Schedule Plan)

end

/-- A request that is served alone. -/
structure Exchange (κ : Type) where
  before : AuthConfig κ
  schedule : Schedule Plan
  http : HttpRequest

namespace Exchange
variable (server : KeycloakServer κ) (platform : Platform) (self : AuthController) (exchange : Exchange κ)

/-- The use case that the request gets to. -/
def request : Option Request :=
  match self.dispatch exchange.http exchange.before.clock with
  | .ok (.useCase request _) => some request
  | _ => none

def after : AuthConfig κ :=
  match exchange.request self with
  | some request => (authSystem server platform self.options).serve exchange.before exchange.schedule request
  | none => exchange.before

/-- The event that the handler emits. -/
def event : Option EmittedEvent :=
  match self.dispatch exchange.http exchange.before.clock with
  | .error _ => none
  | .ok (.done handled) => handled.event
  | .ok (.useCase request sub) =>
    match (authSystem server platform self.options).result exchange.before exchange.schedule request with
    | .error _ => none
    | .ok response => (self.respond request sub response).event

/-- The users of the sessions that the request creates, apart from rotations. -/
def opened : List String :=
  match exchange.request self with
  | some (.refresh _) => []
  | _ => ((exchange.after server platform self).log.drop exchange.before.log.length).filterMap savedSession

end Exchange

variable (server : KeycloakServer κ) (platform : Platform) (self : AuthController)

/-- The module has answered requests one at a time. -/
inductive Exchanges (initial : AuthConfig κ) : List (Exchange κ) → AuthConfig κ → Prop
  | start : Exchanges initial [] initial
  | tick {exchanges cfg} (delay : Nat) : Exchanges initial exchanges cfg →
      Exchanges initial exchanges { cfg with clock := cfg.clock + delay }
  | disturb {exchanges cfg} (change : Disturbance κ) : Exchanges initial exchanges cfg → Exchanges initial exchanges
      { cfg with shared := (authSystem server platform self.options).disturb change cfg.clock cfg.shared }
  | request {exchanges cfg} (schedule : Schedule Plan) (http : HttpRequest) : Exchanges initial exchanges cfg →
      Exchanges initial (exchanges ++ [⟨cfg, schedule, http⟩])
        (Exchange.after server platform self ⟨cfg, schedule, http⟩)

end

/-- The users of the sessions that a use case other than a rotation has created, for each way to end. -/
inductive OpenedSessions : Except Thrown Response → List String → Prop
  | loggedIn {tokens user} : OpenedSessions (.ok (.login (.success tokens user))) [user.id]
  | completed {tokens user} : OpenedSessions (.ok (.complete2FA tokens user)) [user.id]
  | linkVerified {tokens userId} : OpenedSessions (.ok (.verifyMagicLink tokens)) [userId]
  | none {result} (plain : ∀ response, result = .ok response → response.session = none) : OpenedSessions result []

/-- The log has grown by the sessions that go with the result. -/
def OpensSessions (base : List String) (result : Except Thrown Response) (log : List LogEntry) : Prop :=
  ∃ opened, log.filterMap savedSession = base ++ opened ∧ OpenedSessions result opened

theorem OpensSessions.none {base : List String} {result : Except Thrown Response} {log : List LogEntry}
    (same : log.filterMap savedSession = base)
    (plain : ∀ response, result = .ok response → response.session = Option.none) : OpensSessions base result log :=
  ⟨[], by rw [same, List.append_nil], .none plain⟩

theorem OpensSessions.failed {base : List String} {error : Thrown} {log : List LogEntry}
    (same : log.filterMap savedSession = base) : OpensSessions base (.error error) log :=
  .none same fun _ no => by cases no

section
variable {κ : Type} {server : KeycloakServer κ} {platform : Platform} {options : Deployment} {p now drawn : Nat}
  {world : World κ} {log : List LogEntry} {base : List String} {allowed : Plan → Prop}

end

section
variable {κ : Type} {server : KeycloakServer κ} {platform : Platform} {options : Deployment} {cfg : AuthConfig κ}
  {schedule : Schedule Plan} {request : Request}

end

namespace AuthController
variable {self : AuthController} {http : HttpRequest} {now : Nat}

/-- Without a use case, the only event is a logout. -/
theorem dispatch_done {handled : Handled} (dispatched : self.dispatch http now = .ok (.done handled)) :
    ∃ user, handled = self.logout user := by
  have dispatches := @dispatches self http now
  rw [dispatched] at dispatches
  cases dispatches with
  | noCookie => exact ⟨_, rfl⟩

end AuthController

namespace Exchange
variable {κ : Type} {server : KeycloakServer κ} {platform : Platform}
  {self : AuthController} {exchange : Exchange κ}

variable (server platform) in
/-- How a request is handled that has no effect. -/
theorem idle (none : exchange.request self = none) :
    exchange.after server platform self = exchange.before ∧ exchange.opened server platform self = [] ∧
      (exchange.event server platform self).toList.filterMap EmittedEvent.loggedIn = [] ∧
      ∀ userId, exchange.event server platform self ≠ some (.twoFactorEnabled userId) := by
  have kept : exchange.after server platform self = exchange.before := by simp only [after, none]
  refine ⟨kept, by simp [opened, none, kept], ?_⟩
  unfold request at none
  unfold event
  cases dispatched : self.dispatch exchange.http exchange.before.clock with
  | error response => simp
  | ok next =>
  cases next with
  | useCase request sub => simp [dispatched] at none
  | done handled =>
    obtain ⟨user, rfl⟩ := AuthController.dispatch_done dispatched
    simp [AuthController.logout, EmittedEvent.loggedIn]

/-- How a request is handled that gets to a use case. -/
theorem handled {request : Request} (some : exchange.request self = some request) :
    ∃ sub, self.dispatch exchange.http exchange.before.clock = .ok (.useCase request sub) := by
  unfold Exchange.request at some
  cases dispatched : self.dispatch exchange.http exchange.before.clock with
  | error response => simp [dispatched] at some
  | ok next =>
  cases next with
  | done handled => simp [dispatched] at some
  | useCase found sub =>
    simp only [dispatched, Option.some.injEq] at some
    exact ⟨sub, by rw [some]⟩

section
variable {clock : Nat} {keycloak : κ}

variable (server platform self) in
theorem after_reach (exchange : Exchange κ) : (authSystem server platform self.options).Reach
    anyEvent exchange.before
    (exchange.after server platform self) := by
  unfold after
  split
  · exact System.serve_reach ..
  · exact .start

end

end Exchange

section
variable {κ : Type} {server : KeycloakServer κ} {platform : Platform} {self : AuthController} {clock : Nat}
  {keycloak : κ} {exchanges : List (Exchange κ)} {cfg : AuthConfig κ}

/-- By induction on the run: all of its exchanges begin where the module gets to. -/
theorem Exchanges.reach (run : Exchanges server platform self (.start clock (.fresh keycloak)) exchanges cfg) :
    (authSystem server platform self.options).Reach anyEvent (.start clock (.fresh keycloak)) cfg ∧
      ∀ exchange ∈ exchanges, (authSystem server platform self.options).Reach anyEvent
        (.start clock (.fresh keycloak)) exchange.before := by
  induction run with
  | start => exact ⟨.start, by simp⟩
  | tick delay _ ih =>
    exact ⟨ih.1.next trivial (show System.advance _ _ (.tick delay) = some _ from rfl), ih.2⟩
  | disturb change _ ih =>
    exact ⟨ih.1.next trivial (show System.advance _ _ (.disturb change) = some _ from rfl), ih.2⟩
  | request schedule http _ ih =>
    refine ⟨ih.1.trans (Exchange.after_reach server platform self ⟨_, schedule, http⟩), fun exchange member => ?_⟩
    rcases List.mem_append.mp member with old | new
    · exact ih.2 exchange old
    · cases List.mem_singleton.mp new
      exact ih.1

end

namespace Sample

/-- Ann sets up her second factor, and confirms it twice. -/
def annsSetup : Exchange Realm := ⟨start, promptly, ⟨.setup2FA, some annsBearer, []⟩⟩

def annsCode : Exchange Realm :=
  ⟨annsSetup.after Realm.server platform controller, promptly, ⟨.verify2FA "123456", some annsBearer, []⟩⟩

def annsCodeAgain : Exchange Realm := { annsCode with before := annsCode.after Realm.server platform controller }

example : annsCode.event Realm.server platform controller = some (.twoFactorEnabled "ann") ∧
    annsCodeAgain.event Realm.server platform controller = some (.twoFactorEnabled "ann") := by
  decide

end Sample

end KeycloakAuth
