import Mathlib.Data.List.Basic

namespace Async

/-- A random value, named by the request that drew it and by how many that request had drawn before.
Two draws give the same value only if they are the same draw. -/
structure Nonce where
  request : Nat
  index : Nat
deriving DecidableEq, Repr

/-- A program that awaits calls answered by its surroundings. Between two calls it may read the clock
and draw random values; a call is answered by a value or rejected with an error. -/
inductive Program {Call : Type} (Ans : Call → Type) (ε α : Type) : Type
  | done (value : α)
  | fail (error : ε)
  | clock (rest : Nat → Program Ans ε α)
  | draw (rest : Nonce → Program Ans ε α)
  | await (call : Call) (rest : Except ε (Ans call) → Program Ans ε α)

variable {Call : Type} {Ans : Call → Type} {ε α β : Type}

namespace Program

def bind : Program Ans ε α → (α → Program Ans ε β) → Program Ans ε β
  | .done value, next => next value
  | .fail error, _ => .fail error
  | .clock rest, next => .clock fun now => (rest now).bind next
  | .draw rest, next => .draw fun nonce => (rest nonce).bind next
  | .await call rest, next => .await call fun answer => (rest answer).bind next

/-- `try … catch`: the handler takes over where the body fails. -/
def attempt : Program Ans ε α → (ε → Program Ans ε α) → Program Ans ε α
  | .done value, _ => .done value
  | .fail error, handler => handler error
  | .clock rest, handler => .clock fun now => (rest now).attempt handler
  | .draw rest, handler => .draw fun nonce => (rest nonce).attempt handler
  | .await call rest, handler => .await call fun answer => (rest answer).attempt handler

/-- `try … finally`: the cleanup runs however the body ends. -/
def tryFinally : Program Ans ε α → Program Ans ε Unit → Program Ans ε α
  | .done value, cleanup => cleanup.bind fun _ => .done value
  | .fail error, cleanup => cleanup.bind fun _ => .fail error
  | .clock rest, cleanup => .clock fun now => (rest now).tryFinally cleanup
  | .draw rest, cleanup => .draw fun nonce => (rest nonce).tryFinally cleanup
  | .await call rest, cleanup => .await call fun answer => (rest answer).tryFinally cleanup

instance : Monad (Program Ans ε) where
  pure := .done
  bind := .bind

instance : MonadExcept ε (Program Ans ε) where
  throw := .fail
  tryCatch := .attempt

def ofExcept : Except ε α → Program Ans ε α
  | .ok value => .done value
  | .error error => .fail error

/-- `await call`: the answer is the value, a rejection is thrown. -/
def perform (call : Call) : Program Ans ε (Ans call) := .await call .ofExcept

def now : Program Ans ε Nat := .clock .done

def random : Program Ans ε Nonce := .draw .done

@[simp] theorem pure_eq (value : α) : (pure value : Program Ans ε α) = .done value := rfl

@[simp] theorem throw_eq (error : ε) : (throw error : Program Ans ε α) = .fail error := rfl

@[simp] theorem tryCatch_eq (body : Program Ans ε α) (handler : ε → Program Ans ε α) :
    tryCatch body handler = body.attempt handler := rfl

@[simp] theorem bind_eq (body : Program Ans ε α) (next : α → Program Ans ε β) :
    body >>= next = body.bind next := rfl

@[simp] theorem done_bind (value : α) (next : α → Program Ans ε β) :
    (Program.done value).bind next = next value := rfl

@[simp] theorem fail_bind (error : ε) (next : α → Program Ans ε β) :
    (Program.fail error).bind next = .fail error := rfl

@[simp] theorem clock_bind (rest : Nat → Program Ans ε α) (next : α → Program Ans ε β) :
    (Program.clock rest).bind next = .clock fun now => (rest now).bind next := rfl

@[simp] theorem draw_bind (rest : Nonce → Program Ans ε α) (next : α → Program Ans ε β) :
    (Program.draw rest).bind next = .draw fun nonce => (rest nonce).bind next := rfl

@[simp] theorem await_bind (call : Call) (rest : Except ε (Ans call) → Program Ans ε α)
    (next : α → Program Ans ε β) :
    (Program.await call rest).bind next = .await call fun answer => (rest answer).bind next := rfl

@[simp] theorem ofExcept_ok (value : α) :
    (Program.ofExcept (.ok value) : Program Ans ε α) = .done value := rfl

@[simp] theorem ofExcept_error (error : ε) :
    (Program.ofExcept (.error error) : Program Ans ε α) = .fail error := rfl

@[simp] theorem perform_bind (call : Call) (next : Ans call → Program Ans ε β) :
    (Program.perform call : Program Ans ε _).bind next =
      .await call fun answer => (Program.ofExcept answer).bind next := rfl

@[simp] theorem now_bind (next : Nat → Program Ans ε β) :
    (Program.now : Program Ans ε Nat).bind next = .clock next := rfl

@[simp] theorem random_bind (next : Nonce → Program Ans ε β) :
    (Program.random : Program Ans ε Nonce).bind next = .draw next := rfl

theorem bind_assoc {γ : Type} (body : Program Ans ε α) (first : α → Program Ans ε β)
    (second : β → Program Ans ε γ) :
    (body.bind first).bind second = body.bind fun value => (first value).bind second := by
  induction body with
  | done value => rfl
  | fail error => rfl
  | clock rest ih => simp only [clock_bind, ih]
  | draw rest ih => simp only [draw_bind, ih]
  | await call rest ih => simp only [await_bind, ih]

end Program

/-- Where a program stands once its local steps are done: it has ended, or it waits for an answer.
A suspended program is never in the middle of a local step. -/
inductive Suspended {Call : Type} (Ans : Call → Type) (ε α : Type) : Type
  | returned (value : α)
  | threw (error : ε)
  | awaiting (call : Call) (rest : Except ε (Ans call) → Program Ans ε α)

/-- What can be seen of a suspended program from outside. -/
inductive View (Call ε α : Type) : Type
  | returned (value : α)
  | threw (error : ε)
  | awaiting (call : Call)

def Suspended.view : Suspended Ans ε α → View Call ε α
  | .returned value => .returned value
  | .threw error => .threw error
  | .awaiting call _ => .awaiting call

def Suspended.finished : Suspended Ans ε α → Bool
  | .awaiting _ _ => false
  | _ => true

/-- Runs the local steps up to the next call at one clock reading. The second component counts the
random values drawn by the request so far. -/
def Program.settle (now request : Nat) : Program Ans ε α → Nat → Suspended Ans ε α × Nat
  | .done value, drawn => (.returned value, drawn)
  | .fail error, drawn => (.threw error, drawn)
  | .clock rest, drawn => (rest now).settle now request drawn
  | .draw rest, drawn => (rest ⟨request, drawn⟩).settle now request (drawn + 1)
  | .await call rest, drawn => (.awaiting call rest, drawn)

/-- The outcome of a whole run: its result, the number of values drawn, the state left behind. -/
structure Outcome (ε α σ : Type) where
  result : Except ε α
  drawn : Nat
  state : σ

/-- A whole run in one instant: every call is answered at once by `answer`. -/
def Program.eval {σ : Type} (answer : (call : Call) → σ → Except ε (Ans call) × σ) (now request : Nat) :
    Program Ans ε α → (drawn : Nat) → σ → Outcome ε α σ
  | .done value, drawn, state => ⟨.ok value, drawn, state⟩
  | .fail error, drawn, state => ⟨.error error, drawn, state⟩
  | .clock rest, drawn, state => (rest now).eval answer now request drawn state
  | .draw rest, drawn, state => (rest ⟨request, drawn⟩).eval answer now request (drawn + 1) state
  | .await call rest, drawn, state =>
    (rest (answer call state).1).eval answer now request drawn (answer call state).2

section
variable {σ : Type} (answer : (call : Call) → σ → Except ε (Ans call) × σ) (now request drawn : Nat) (state : σ)

/-- An ended run goes on with `next` if it has a value. -/
def Outcome.andThen (outcome : Outcome ε α σ) (next : α → Nat → σ → Outcome ε β σ) : Outcome ε β σ :=
  match outcome.result with
  | .ok value => next value outcome.drawn outcome.state
  | .error error => ⟨.error error, outcome.drawn, outcome.state⟩

@[simp] theorem Program.eval_done (value : α) :
    (Program.done value : Program Ans ε α).eval answer now request drawn state = ⟨.ok value, drawn, state⟩ := rfl

@[simp] theorem Program.eval_fail (error : ε) :
    (Program.fail error : Program Ans ε α).eval answer now request drawn state = ⟨.error error, drawn, state⟩ :=
  rfl

@[simp] theorem Program.eval_now_bind (next : Nat → Program Ans ε α) :
    (Program.now.bind next).eval answer now request drawn state =
      (next now).eval answer now request drawn state := rfl

@[simp] theorem Program.eval_random_bind (next : Nonce → Program Ans ε α) :
    (Program.random.bind next).eval answer now request drawn state =
      (next ⟨request, drawn⟩).eval answer now request (drawn + 1) state := rfl

theorem Program.eval_bind (body : Program Ans ε α) (next : α → Program Ans ε β) :
    (body.bind next).eval answer now request drawn state =
      (body.eval answer now request drawn state).andThen
        fun value drawn state => (next value).eval answer now request drawn state := by
  induction body generalizing drawn state with
  | done value => rfl
  | fail error => rfl
  | clock rest ih => exact ih now drawn state
  | draw rest ih => exact ih ⟨request, drawn⟩ (drawn + 1) state
  | await call rest ih => exact ih (answer call state).1 drawn (answer call state).2

theorem Program.eval_perform (call : Call) :
    (Program.perform call : Program Ans ε _).eval answer now request drawn state =
      ⟨(answer call state).1, drawn, (answer call state).2⟩ := by
  change (Program.ofExcept (answer call state).1).eval answer now request drawn (answer call state).2 = _
  cases (answer call state).1 <;> rfl

theorem Program.eval_attempt (body : Program Ans ε α) (handler : ε → Program Ans ε α) :
    (body.attempt handler).eval answer now request drawn state =
      match (body.eval answer now request drawn state).result with
      | .ok _ => body.eval answer now request drawn state
      | .error error => (handler error).eval answer now request
          (body.eval answer now request drawn state).drawn (body.eval answer now request drawn state).state := by
  induction body generalizing drawn state with
  | done value => rfl
  | fail error => rfl
  | clock rest ih => exact ih now drawn state
  | draw rest ih => exact ih ⟨request, drawn⟩ (drawn + 1) state
  | await call rest ih => exact ih (answer call state).1 drawn (answer call state).2

end

/-- Every call the program can make is `allowed`. -/
def Program.Only (allowed : Call → Prop) : Program Ans ε α → Prop
  | .done _ => True
  | .fail _ => True
  | .clock rest => ∀ now, (rest now).Only allowed
  | .draw rest => ∀ nonce, (rest nonce).Only allowed
  | .await call rest => allowed call ∧ ∀ answer, (rest answer).Only allowed

namespace Program.Only
variable {allowed : Call → Prop}

theorem bind {body : Program Ans ε α} {next : α → Program Ans ε β} (first : body.Only allowed)
    (second : ∀ value, (next value).Only allowed) : (body.bind next).Only allowed := by
  induction body with
  | done value => exact second value
  | fail error => trivial
  | clock rest ih => exact fun now => ih now (first now)
  | draw rest ih => exact fun nonce => ih nonce (first nonce)
  | await call rest ih => exact ⟨first.1, fun answer => ih answer (first.2 answer)⟩

theorem attempt {body : Program Ans ε α} {handler : ε → Program Ans ε α} (first : body.Only allowed)
    (second : ∀ error, (handler error).Only allowed) : (body.attempt handler).Only allowed := by
  induction body with
  | done value => trivial
  | fail error => exact second error
  | clock rest ih => exact fun now => ih now (first now)
  | draw rest ih => exact fun nonce => ih nonce (first nonce)
  | await call rest ih => exact ⟨first.1, fun answer => ih answer (first.2 answer)⟩

theorem tryFinally {body : Program Ans ε α} {cleanup : Program Ans ε Unit} (first : body.Only allowed)
    (second : cleanup.Only allowed) : (body.tryFinally cleanup).Only allowed := by
  induction body with
  | done value => exact second.bind fun _ => trivial
  | fail error => exact second.bind fun _ => trivial
  | clock rest ih => exact fun now => ih now (first now)
  | draw rest ih => exact fun nonce => ih nonce (first nonce)
  | await call rest ih => exact ⟨first.1, fun answer => ih answer (first.2 answer)⟩

theorem both {fine wide : Call → Prop} {body : Program Ans ε α}
    (first : body.Only allowed) (second : body.Only fine)
    (implies : ∀ call, allowed call → fine call → wide call) : body.Only wide := by
  induction body with
  | done value => trivial
  | fail error => trivial
  | clock rest ih => exact fun now => ih now (first now) (second now)
  | draw rest ih => exact fun nonce => ih nonce (first nonce) (second nonce)
  | await call rest ih =>
    exact ⟨implies call first.1 second.1, fun answer => ih answer (first.2 answer) (second.2 answer)⟩

theorem mono {wide : Call → Prop} {body : Program Ans ε α} (only : body.Only allowed)
    (implies : ∀ call, allowed call → wide call) : body.Only wide :=
      only.both only fun call fine _ => implies call fine

theorem perform {call : Call} (fine : allowed call) : (Program.perform call : Program Ans ε _).Only allowed :=
  ⟨fine, fun answer => by cases answer <;> trivial⟩

/-- A whole run keeps what its calls keep. -/
theorem eval {σ : Type} {answer : (call : Call) → σ → Except ε (Ans call) × σ} {now request drawn : Nat}
    {body : Program Ans ε α} {state : σ} (only : body.Only allowed) (keeps : σ → Prop)
    (step : ∀ call state, allowed call → keeps state → keeps (answer call state).2) (start : keeps state) :
    keeps (body.eval answer now request drawn state).state := by
  induction body generalizing drawn state with
  | done value => exact start
  | fail error => exact start
  | clock rest ih => exact ih now (only now) start
  | draw rest ih => exact ih ⟨request, drawn⟩ (only ⟨request, drawn⟩) start
  | await call rest ih => exact ih _ (only.2 _) (step call state only.1 start)

end Program.Only

/-- Whatever the program fails with satisfies `R`, if each call is only rejected with errors that are `rejected`
for it. -/
def Program.Throws (rejected : Call → ε → Prop) (R : ε → Prop) : Program Ans ε α → Prop
  | .done _ => True
  | .fail error => R error
  | .clock rest => ∀ now, (rest now).Throws rejected R
  | .draw rest => ∀ nonce, (rest nonce).Throws rejected R
  | .await call rest => ∀ answer, (∀ error, answer = .error error → rejected call error) →
      (rest answer).Throws rejected R

namespace Program.Throws
variable {rejected : Call → ε → Prop} {R Q : ε → Prop}

theorem bind {body : Program Ans ε α} {next : α → Program Ans ε β} (first : body.Throws rejected R)
    (second : ∀ value, (next value).Throws rejected R) : (body.bind next).Throws rejected R := by
  induction body with
  | done value => exact second value
  | fail error => exact first
  | clock rest ih => exact fun now => ih now (first now)
  | draw rest ih => exact fun nonce => ih nonce (first nonce)
  | await call rest ih => exact fun answer fine => ih answer (first answer fine)

/-- Only what the handler throws gets through. -/
theorem attempt {body : Program Ans ε α} {handler : ε → Program Ans ε α} (first : body.Throws rejected Q)
    (second : ∀ error, Q error → (handler error).Throws rejected R) : (body.attempt handler).Throws rejected R := by
  induction body with
  | done value => trivial
  | fail error => exact second error first
  | clock rest ih => exact fun now => ih now (first now)
  | draw rest ih => exact fun nonce => ih nonce (first nonce)
  | await call rest ih => exact fun answer fine => ih answer (first answer fine)

theorem now {next : Nat → Program Ans ε α} (throws : ∀ now, (next now).Throws rejected R) :
    (Program.now.bind next).Throws rejected R := throws

theorem perform {call : Call} (fine : ∀ error, rejected call error → R error) :
    (Program.perform call : Program Ans ε _).Throws rejected R := by
  intro answer possible
  cases answer with
  | error error => exact fine error (possible error rfl)
  | ok value => trivial

theorem eval {σ : Type} {answer : (call : Call) → σ → Except ε (Ans call) × σ} {now request drawn : Nat}
    {body : Program Ans ε α} {state : σ} {error : ε} (throws : body.Throws rejected R)
    (possible : ∀ call state error, (answer call state).1 = .error error → rejected call error)
    (failed : (body.eval answer now request drawn state).result = .error error) : R error := by
  induction body generalizing drawn state with
  | done value => cases failed
  | fail thrown =>
    cases failed
    exact throws
  | clock rest ih => exact ih now (throws now) failed
  | draw rest ih => exact ih ⟨request, drawn⟩ (throws ⟨request, drawn⟩) failed
  | await call rest ih => exact ih _ (throws _ fun error => possible call state error) failed

end Program.Throws

/-- One answered call, as the surroundings see it. -/
structure Entry {Call : Type} (Ans : Call → Type) (ε : Type) where
  request : Nat
  call : Call
  answer : Except ε (Ans call)
  time : Nat

/-- `Φ` holds of the history and of the visible state wherever a program can be suspended, whatever
answers it is given and however late they come. -/
def Program.Along (Φ : List (Entry Ans ε) → View Call ε α → Prop) (request : Nat) :
    Program Ans ε α → (now drawn : Nat) → List (Entry Ans ε) → Prop
  | .done value, _, _, history => Φ history (.returned value)
  | .fail error, _, _, history => Φ history (.threw error)
  | .clock rest, now, drawn, history => (rest now).Along Φ request now drawn history
  | .draw rest, now, drawn, history => (rest ⟨request, drawn⟩).Along Φ request now (drawn + 1) history
  | .await call rest, now, drawn, history => Φ history (.awaiting call) ∧ ∀ answer later, now ≤ later →
      (rest answer).Along Φ request later drawn (history ++ [⟨request, call, answer, later⟩])

/-- The same for a program that is suspended already. -/
def Suspended.Along (Φ : List (Entry Ans ε) → View Call ε α → Prop) (request now drawn : Nat)
    (history : List (Entry Ans ε)) : Suspended Ans ε α → Prop
  | .awaiting call rest => Φ history (.awaiting call) ∧ ∀ answer later, now ≤ later →
      (rest answer).Along Φ request later drawn (history ++ [⟨request, call, answer, later⟩])
  | ended => Φ history ended.view

theorem Program.Along.mono {Φ Ψ : List (Entry Ans ε) → View Call ε α → Prop} {request now drawn : Nat}
    {history : List (Entry Ans ε)} {body : Program Ans ε α} (wide : ∀ history view, Φ history view → Ψ history view)
    (along : body.Along Φ request now drawn history) : body.Along Ψ request now drawn history := by
  induction body generalizing now drawn history with
  | done value => exact wide _ _ along
  | fail error => exact wide _ _ along
  | clock rest ih => exact ih now along
  | draw rest ih => exact ih ⟨request, drawn⟩ along
  | await call rest ih => exact ⟨wide _ _ along.1, fun answer later after => ih answer (along.2 answer later after)⟩

/-- Reading the clock is a local step. -/
theorem Program.Along.now {Φ : List (Entry Ans ε) → View Call ε β → Prop} {request now drawn : Nat}
    {history : List (Entry Ans ε)} {next : Nat → Program Ans ε β}
    (along : (next now).Along Φ request now drawn history) :
    (Program.now.bind next).Along Φ request now drawn history := along

theorem Program.Along.random {Φ : List (Entry Ans ε) → View Call ε β → Prop} {request now drawn : Nat}
    {history : List (Entry Ans ε)} {next : Nonce → Program Ans ε β}
    (along : (next ⟨request, drawn⟩).Along Φ request now (drawn + 1) history) :
    (Program.random.bind next).Along Φ request now drawn history := along

/-- The rule for an awaited call whose rejection is not caught. -/
theorem Program.Along.perform {Φ : List (Entry Ans ε) → View Call ε β → Prop} {request now drawn : Nat}
    {history : List (Entry Ans ε)} {call : Call} {next : Ans call → Program Ans ε β}
    (here : Φ history (.awaiting call))
    (answered : ∀ value later, now ≤ later →
      (next value).Along Φ request later drawn (history ++ [⟨request, call, .ok value, later⟩]))
    (rejected : ∀ error later, Φ (history ++ [⟨request, call, .error error, later⟩]) (.threw error)) :
    ((Program.perform call).bind next).Along Φ request now drawn history := by
  refine ⟨here, ?_⟩
  rintro (error | value) later after
  · exact rejected error later
  · exact answered value later after

theorem Program.Along.settle {Φ : List (Entry Ans ε) → View Call ε α → Prop} {request now drawn : Nat}
    {history : List (Entry Ans ε)} {body : Program Ans ε α}
    (along : body.Along Φ request now drawn history) :
    (body.settle now request drawn).1.Along Φ request now (body.settle now request drawn).2 history := by
  induction body generalizing drawn with
  | done value => exact along
  | fail error => exact along
  | clock rest ih => exact ih now along
  | draw rest ih => exact ih ⟨request, drawn⟩ along
  | await call rest => exact along

theorem Suspended.Along.holds {Φ : List (Entry Ans ε) → View Call ε α → Prop} {request now drawn : Nat}
    {history : List (Entry Ans ε)} {state : Suspended Ans ε α}
    (along : state.Along Φ request now drawn history) : Φ history state.view := by
  cases state with
  | returned value => exact along
  | threw error => exact along
  | awaiting call rest => exact along.1

theorem Suspended.Along.later {Φ : List (Entry Ans ε) → View Call ε α → Prop}
    {request now later drawn : Nat} {history : List (Entry Ans ε)} {state : Suspended Ans ε α}
    (along : state.Along Φ request now drawn history) (after : now ≤ later) :
    state.Along Φ request later drawn history := by
  cases state with
  | returned value => exact along
  | threw error => exact along
  | awaiting call rest =>
    exact ⟨along.1, fun answer time bound => along.2 answer time (Nat.le_trans after bound)⟩

end Async
