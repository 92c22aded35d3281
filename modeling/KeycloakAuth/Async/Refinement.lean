import KeycloakAuth.Async.Sequential

namespace Async
variable {Call : Type} {Ans : Call → Type} {ε α β σ τ χ : Type}

/-- As long as it is answered with `good` values, the program makes only `fine` calls, and what it returns is as
`Q` says. -/
def Program.Handles (fine : Call → Prop) (good : ∀ call, Ans call → Prop) (Q : α → Prop) : Program Ans ε α → Prop
  | .done value => Q value
  | .fail _ => True
  | .clock rest => ∀ now, (rest now).Handles fine good Q
  | .draw rest => ∀ nonce, (rest nonce).Handles fine good Q
  | .await call rest =>
    fine call ∧ ∀ answer, (∀ value, answer = .ok value → good call value) → (rest answer).Handles fine good Q

namespace Program.Handles
variable {fine : Call → Prop} {good : ∀ call, Ans call → Prop} {P : β → Prop} {Q : α → Prop}

theorem bind {body : Program Ans ε β} {next : β → Program Ans ε α} (first : body.Handles fine good P)
    (goes_on : ∀ value, P value → (next value).Handles fine good Q) : (body.bind next).Handles fine good Q := by
  induction body with
  | done value => exact goes_on value first
  | fail error => trivial
  | clock rest ih => exact fun now => ih now (first now)
  | draw rest ih => exact fun nonce => ih nonce (first nonce)
  | await call rest ih => exact ⟨first.1, fun answer allGood => ih answer (first.2 answer allGood)⟩

theorem attempt {body : Program Ans ε α} {handler : ε → Program Ans ε α} (first : body.Handles fine good Q)
    (catches : ∀ error, (handler error).Handles fine good Q) : (body.attempt handler).Handles fine good Q := by
  induction body with
  | done value => exact first
  | fail error => exact catches error
  | clock rest ih => exact fun now => ih now (first now)
  | draw rest ih => exact fun nonce => ih nonce (first nonce)
  | await call rest ih => exact ⟨first.1, fun answer allGood => ih answer (first.2 answer allGood)⟩

theorem tryFinally {body : Program Ans ε α} {cleanup : Program Ans ε Unit} (first : body.Handles fine good Q)
    (last : cleanup.Handles fine good fun _ => True) : (body.tryFinally cleanup).Handles fine good Q := by
  induction body with
  | done value => exact last.bind fun _ _ => first
  | fail error => exact last.bind fun _ _ => trivial
  | clock rest ih => exact fun now => ih now (first now)
  | draw rest ih => exact fun nonce => ih nonce (first nonce)
  | await call rest ih => exact ⟨first.1, fun answer allGood => ih answer (first.2 answer allGood)⟩

theorem perform {call : Call} (made : fine call) :
    (Program.perform call : Program Ans ε _).Handles fine good (good call) := by
  refine ⟨made, fun answer allGood => ?_⟩
  cases answer with
  | error error => trivial
  | ok value => exact allGood value rfl

theorem now {next : Nat → Program Ans ε α} (handles : ∀ now, (next now).Handles fine good Q) :
    (Program.now.bind next).Handles fine good Q := handles

theorem mono {R : α → Prop} {body : Program Ans ε α} (handles : body.Handles fine good Q)
    (wide : ∀ value, Q value → R value) :
    body.Handles fine good R := by
  induction body with
  | done value => exact wide value handles
  | fail error => trivial
  | clock rest ih => exact fun now => ih now (handles now)
  | draw rest ih => exact fun nonce => ih nonce (handles nonce)
  | await call rest ih => exact ⟨handles.1, fun answer allGood => ih answer (handles.2 answer allGood)⟩

end Program.Handles

/-- Two surroundings that answer `fine` calls alike, with `good` values, and stay related. -/
def Simulates (fine : Call → Prop) (good : ∀ call, Ans call → Prop) (related : σ → τ → Prop)
    (perform : χ → (now request : Nat) → (call : Call) → σ → Except ε (Ans call) × σ)
    (perform' : χ → (now request : Nat) → (call : Call) → τ → Except ε (Ans call) × τ) : Prop :=
  ∀ choice now request call state state', fine call → related state state' →
    (perform' choice now request call state').1 = (perform choice now request call state).1 ∧
    related (perform choice now request call state).2 (perform' choice now request call state').2 ∧
    ∀ value, (perform choice now request call state).1 = .ok value → good call value

/-- Served alone in related surroundings, a program ends alike at the same time, with the same log. -/
theorem Simulates.drive {fine : Call → Prop} {good : ∀ call, Ans call → Prop} {related : σ → τ → Prop}
    {perform : χ → (now request : Nat) → (call : Call) → σ → Except ε (Ans call) × σ}
    {perform' : χ → (now request : Nat) → (call : Call) → τ → Except ε (Ans call) × τ}
    (simulates : Simulates fine good related perform perform') {Q : α → Prop} {body : Program Ans ε α}
    (handles : body.Handles fine good Q) (request now drawn : Nat) (schedule : Schedule χ) {state : σ} {state' : τ}
    (log : List (Entry Ans ε)) (start : related state state') :
    let driven := body.drive perform request schedule now drawn state log
    let driven' := body.drive perform' request schedule now drawn state' log
    driven'.result = driven.result ∧ driven'.clock = driven.clock ∧ driven'.log = driven.log ∧
      related driven.shared driven'.shared := by
  induction body generalizing now drawn schedule state state' log with
  | done value => exact ⟨rfl, rfl, rfl, start⟩
  | fail error => exact ⟨rfl, rfl, rfl, start⟩
  | clock rest ih => exact ih now (handles now) now drawn schedule log start
  | draw rest ih => exact ih ⟨request, drawn⟩ (handles ⟨request, drawn⟩) now (drawn + 1) schedule log start
  | await call rest ih =>
    obtain ⟨answered, after, allGood⟩ :=
      simulates (schedule 0).2 (now + (schedule 0).1) request call state state' handles.1 start
    simp only [Program.drive, answered]
    exact ih _ (handles.2 _ allGood) _ _ _ _ after

end Async
