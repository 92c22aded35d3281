import KeycloakAuth.Rotation
import KeycloakAuth.LoginHistories
import KeycloakAuth.Async.Faults

namespace KeycloakAuth
open Async Service

section
variable {κ : Type} (server : KeycloakServer κ) (platform : Platform) (options : Deployment)

/-- The method as one run, where `faults` go wrong and `url` is the image otherwise. -/
def setupRun (faults : Faults Thrown) (url : String) (now request : Nat) (userId : String) (world : World κ) :
    Except Thrown Setup2FAResponse × World κ :=
  (KeycloakAuthProvider.setup2FA userId).evalFaulty
    (answerProvider server { Plan.good with toDataURL := .ok url }) faults now request 0 0 world

def totpSecret (world : World κ) (userId : String) : Option Str := world.store.getUserData userId "totpSecret"

/-- The world once the secret is stored. -/
def World.withSecret (world : World κ) (userId : String) (secret : Str) : World κ :=
  { world with store := world.store.saveUserData userId "totpSecret" secret }

/-- The user is asked for a code whenever the password has been accepted. -/
def Challenged (world : World κ) (userId : String) : Prop :=
  ∀ (self : LoginUseCase) email (accepted : AuthenticateResponse) p now log, accepted.user.id = userId →
    (self.issue email accepted).Ensures (answerCall server platform options) (fun _ => True) p
      (fun result _ _ _ => ∃ token expiresIn, result = .ok (.twoFactorRequired token expiresIn)) now 0 world log

/-- The user can set up a second factor, if nothing fails. -/
def CanSetUp (world : World κ) (userId : String) : Prop :=
  ∃ plan now request setup, (answerAuth server platform options plan now request
    (.setup2FA userId) world).1 = .ok setup

/-- The call has left nothing behind. -/
structure SetupUndone (userId : String) (before after : World κ) : Prop where
  entry : totpSecret after userId = totpSecret before userId
  login : Challenged server platform options after userId → Challenged server platform options before userId
  again : CanSetUp server platform options before userId → CanSetUp server platform options after userId

/-- If the call rejects, it has left nothing behind. -/
def SetupAtomic (faults : Faults Thrown) (url : String) (now request : Nat)
    (userId : String) (world : World κ) : Prop :=
  ∀ error, (setupRun server faults url now request userId world).1 = .error error →
    SetupUndone server platform options userId world (setupRun server faults url now request userId world).2

/-- The user has a secret, or it goes wrong before the new secret takes effect, or it does not go wrong at all. -/
def FailsEarlyOrNever (faults : Faults Thrown) (userId : String) (world : World κ) : Prop :=
  (totpSecret world userId).any Str.truthy = true ∨ faults.call 0 ≠ none ∨ faults.draw 0 ≠ none ∨
    (∃ error, faults.call 1 = some (.before error)) ∨ (faults.call 1 = none ∧ faults.call 2 = none)

/-- How a call of `setup2FA` ends. -/
inductive SetupRun (faults : Faults Thrown) (url : String) (request : Nat) (userId : String) (world : World κ) :
    Except Thrown Setup2FAResponse × World κ → Prop
  | early {error} (early : FailsEarlyOrNever faults userId world) :
      SetupRun faults url request userId world (.error error, world)
  | late {error} (unset : (totpSecret world userId).any Str.truthy = false)
      (late : ¬ FailsEarlyOrNever faults userId world) :
      SetupRun faults url request userId world (.error error, world.withSecret userId (.random ⟨request, 0⟩))
  | complete (never : faults.call 1 = none ∧ faults.call 2 = none) :
      SetupRun faults url request userId world (.ok ⟨.random ⟨request, 0⟩, url⟩,
        world.withSecret userId (.random ⟨request, 0⟩))

variable {server platform options} {faults : Faults Thrown} {url : String} {now request : Nat} {userId : String}
  {world : World κ}

theorem setupRun_cases :
    SetupRun faults url request userId world (setupRun server faults url now request userId world) := by
  simp only [setupRun, KeycloakAuthProvider.setup2FA, KeycloakAuthProvider.perform, Program.bind_eq,
    Program.evalFaulty_perform_bind, answerProvider]
  rcases reading : faults.call 0 with _ | ⟨error | error⟩
  rotate_left
  · exact .early (.inr (.inl (by simp [reading])))
  · exact .early (.inr (.inl (by simp [reading])))
  simp only [Fault.apply]
  by_cases configured : (totpSecret world userId).any Str.truthy = true
  · have taken := configured
    simp only [totpSecret] at taken
    simp only [taken, if_true]
    exact .early (.inl configured)
  have unset : (totpSecret world userId).any Str.truthy = false := by simpa using configured
  have absent := unset
  simp only [totpSecret] at absent
  simp only [absent, Bool.false_eq_true, if_false, Program.evalFaulty_random_bind, Nat.zero_add]
  cases drawing : faults.draw 0 with
  | some error => exact .early (.inr (.inr (.inl (by simp [drawing]))))
  | none =>
  simp only [Program.evalFaulty_perform_bind, answerProvider, Nat.reduceAdd]
  rcases saving : faults.call 1 with _ | ⟨error | error⟩
  · simp only [Fault.apply]
    cases encoding : faults.call 2 with
    | none => exact .complete ⟨saving, encoding⟩
    | some fault =>
      have late : ¬ FailsEarlyOrNever faults userId world := by
        simp [FailsEarlyOrNever, unset, reading, drawing, saving, encoding]
      cases fault <;> exact .late unset late
  · exact .early (.inr (.inr (.inr (.inl ⟨error, saving⟩))))
  · exact .late unset (by simp [FailsEarlyOrNever, unset, reading, drawing, saving])

/-- A secret that has just been stored is one that the user is asked for. -/
theorem withSecret_truthy :
    (totpSecret (world.withSecret userId (.random ⟨request, 0⟩)) userId).any Str.truthy = true := by
  rw [totpSecret, World.withSecret, InMemoryTokenStore.getUserData_saveUserData_self]
  rfl

theorem setup2FA_atomic_iff :
    SetupAtomic server platform options faults url now request userId world ↔
      FailsEarlyOrNever faults userId world := by
  have run : SetupRun faults url request userId world (setupRun server faults url now request userId world) :=
    setupRun_cases
  unfold SetupAtomic
  generalize setupRun server faults url now request userId world = ended at run
  cases run with
  | early early => exact ⟨fun _ => early, fun _ _ _ => ⟨rfl, id, id⟩⟩
  | late unset late =>
    refine iff_of_false (fun atomic => ?_) late
    have same := (atomic _ rfl).entry
    have challenged : (totpSecret (world.withSecret userId (.random ⟨request, 0⟩)) userId).any Str.truthy = true :=
      withSecret_truthy
    rw [same, unset] at challenged
    cases challenged
  | complete never => exact ⟨fun _ => .inr (.inr (.inr (.inr never))), fun _ _ no => by cases no⟩

/-- Who has a secret is asked for a code. -/
theorem challenged_of_secret (secret : (totpSecret world userId).any Str.truthy = true) :
    Challenged server platform options world userId := by
  rintro self email accepted p now log rfl
  simp only [LoginUseCase.issue, tokenStore, Program.bind_eq]
  refine tokenStore_ensures server platform options fun _ _ => tokenStore_ensures server platform options fun _ _ =>
    tokenStore_ensures server platform options fun _ _ => ?_
  have kept : ((world.store.deleteUserData "system" (LoginUseCase.failedKey email)).deleteUserData "system"
      (LoginUseCase.lockKey email)).getUserData accepted.user.id "totpSecret" =
        totpSecret world accepted.user.id := by
    rw [InMemoryTokenStore.getUserData_deleteUserData_other _ (.inr (totpSecret_ne_lockKey email)),
      InMemoryTokenStore.getUserData_deleteUserData_other _ (.inr (totpSecret_ne_failedKey email))]
    rfl
  simp only [answerStore, kept, secret, if_true]
  exact fun _ _ _ _ => ⟨_, _, rfl⟩

/-- Otherwise the user is left with a secret that nobody has seen, for which every login asks and which no further
setup replaces. -/
theorem setup2FA_stuck (late : ¬ FailsEarlyOrNever faults userId world) :
    let ended := setupRun server faults url now request userId world
    (∃ error, ended.1 = .error error) ∧ Challenged server platform options ended.2 userId ∧
      ¬ CanSetUp server platform options ended.2 userId := by
  have run : SetupRun faults url request userId world (setupRun server faults url now request userId world) :=
    setupRun_cases
  generalize setupRun server faults url now request userId world = ended at run
  cases run with
  | early early => exact absurd early late
  | complete never => exact absurd (.inr (.inr (.inr (.inr never)))) late
  | late unset late =>
    refine ⟨⟨_, rfl⟩, challenged_of_secret withSecret_truthy, ?_⟩
    rintro ⟨plan, now, request, setup, answered⟩
    rcases answerAuth_setup2FA server platform options plan now request _ userId with
      ⟨_, ⟨error, refused⟩, _⟩ | ⟨unset, _⟩
    · cases refused.symm.trans answered
    · cases unset.symm.trans withSecret_truthy

end

namespace Sample

/-- The QR encoder fails, as it does for a text that is too long. -/
def encoderFails : Faults Thrown where
  call index :=
    if index = 2 then some (.before (.error "The amount of data is too big to be stored in a QR Code")) else none
  draw _ := none

theorem setup2FA_not_atomic : ¬ ∀ (κ : Type) (server : KeycloakServer κ) platform options faults url now request
    userId (world : World κ), SetupAtomic server platform options faults url now request userId world := by
  intro always
  have undone := always Realm Realm.server platform options encoderFails "" 1000 0 "ann" (.fresh realm) _ rfl
  cases (show totpSecret _ "ann" = some (.random ⟨0, 0⟩) from rfl).symm.trans undone.entry

end Sample

end KeycloakAuth
