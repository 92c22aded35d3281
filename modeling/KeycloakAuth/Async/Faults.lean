import KeycloakAuth.Async.Program

namespace Async
variable {Call : Type} {Ans : Call → Type} {ε α β σ : Type}

/-- How a call goes wrong: it is rejected before it takes effect, or after. -/
inductive Fault (ε : Type)
  | before (error : ε)
  | after (error : ε)

/-- What goes wrong in a run, by the number of the call or of the draw. -/
structure Faults (ε : Type) where
  call : Nat → Option (Fault ε)
  draw : Nat → Option ε

/-- Nothing goes wrong. -/
def Faults.none : Faults ε := ⟨fun _ => .none, fun _ => .none⟩

/-- How a call ends that was answered in the state `before`, if it had not gone wrong. -/
def Fault.apply (fault : Option (Fault ε)) (before : σ) (answered : Except ε α × σ) : Except ε α × σ :=
  match fault with
  | .none => answered
  | some (.before error) => (.error error, before)
  | some (.after error) => (.error error, answered.2)

namespace Program
variable (answer : (call : Call) → σ → Except ε (Ans call) × σ) (faults : Faults ε) (now request : Nat)

/-- A whole run in one instant in which calls and draws go wrong as `faults` says. A draw that fails ends the
run, so this is only meant for programs that catch nothing around a draw. -/
def evalFaulty : Program Ans ε α → (called drawn : Nat) → σ → Except ε α × σ
  | .done value, _, _, state => (.ok value, state)
  | .fail error, _, _, state => (.error error, state)
  | .clock rest, called, drawn, state => (rest now).evalFaulty called drawn state
  | .draw rest, called, drawn, state =>
    match faults.draw drawn with
    | some error => (.error error, state)
    | none => (rest ⟨request, drawn⟩).evalFaulty called (drawn + 1) state
  | .await call rest, called, drawn, state =>
    let answered := Fault.apply (faults.call called) state (answer call state)
    (rest answered.1).evalFaulty (called + 1) drawn answered.2

variable (called drawn : Nat) (state : σ)

theorem evalFaulty_perform_bind (call : Call) (next : Ans call → Program Ans ε β) :
    ((Program.perform call).bind next).evalFaulty answer faults now request called drawn state =
      match Fault.apply (faults.call called) state (answer call state) with
      | (.ok value, after) => (next value).evalFaulty answer faults now request (called + 1) drawn after
      | (.error error, after) => (.error error, after) := by
  simp only [perform_bind, evalFaulty]
  rcases Fault.apply (faults.call called) state (answer call state) with ⟨_ | _, after⟩ <;> rfl

theorem evalFaulty_random_bind (next : Nonce → Program Ans ε β) :
    (Program.random.bind next).evalFaulty answer faults now request called drawn state =
      match faults.draw drawn with
      | some error => (.error error, state)
      | none => (next ⟨request, drawn⟩).evalFaulty answer faults now request called (drawn + 1) state := rfl

end Program

end Async
