import KeycloakAuth.Async.Program

namespace Async
variable {Call Inner : Type} {Ans : Call → Type} {Sub : Inner → Type} {ε α β : Type}

namespace Program

/-- The program with its end as a value: it fails no more. -/
def reify : Program Ans ε α → Program Ans ε (Except ε α)
  | .done value => .done (.ok value)
  | .fail error => .done (.error error)
  | .clock rest => .clock fun now => (rest now).reify
  | .draw rest => .draw fun nonce => (rest nonce).reify
  | .await call rest => .await call fun answer => (rest answer).reify

/-- The program where each call is carried out by a program over other calls. -/
def inline (carry : (call : Call) → Program Sub ε (Ans call)) : Program Ans ε α → Program Sub ε α
  | .done value => .done value
  | .fail error => .fail error
  | .clock rest => .clock fun now => (rest now).inline carry
  | .draw rest => .draw fun nonce => (rest nonce).inline carry
  | .await call rest => (carry call).reify.bind fun answer => (rest answer).inline carry

theorem reify_bind (body : Program Ans ε α) (next : α → Program Ans ε β) (after : Except ε α → Program Ans ε β)
    (same : ∀ value, after (.ok value) = next value) (fails : ∀ error, after (.error error) = .fail error) :
    body.reify.bind after = body.bind next := by
  induction body with
  | done value => exact same value
  | fail error => exact fails error
  | clock rest ih => exact congrArg Program.clock (funext ih)
  | draw rest ih => exact congrArg Program.draw (funext ih)
  | await call rest ih => exact congrArg (Program.await call) (funext ih)

/-- A call whose rejection is not caught is replaced by the program that carries it out. -/
theorem inline_perform_bind (carry : (call : Call) → Program Sub ε (Ans call)) (call : Call)
    (next : Ans call → Program Ans ε β) :
    ((Program.perform call).bind next).inline carry = (carry call).bind fun value => (next value).inline carry :=
  reify_bind _ _ _ (fun _ => rfl) fun _ => rfl

end Program

end Async
