import KeycloakAuth.Async.Interleaving

namespace Async
variable {Call : Type} {Ans : Call → Type} {ε α β Req Res σ χ δ : Type}

/-- What the surroundings decide while one request is served alone: how long it waits for its `k`-th
answer, and how that call is answered. -/
abbrev Schedule (χ : Type) := Nat → Nat × χ

/-- Where a request served alone ends. -/
structure Driven {Call : Type} (Ans : Call → Type) (ε α σ : Type) where
  result : Except ε α
  clock : Nat
  drawn : Nat
  shared : σ
  log : List (Entry Ans ε)

def Driven.state (driven : Driven Ans ε α σ) : Suspended Ans ε α :=
  match driven.result with
  | .ok value => .returned value
  | .error error => .threw error

/-- Serves a program to its end with no other request in between. -/
def Program.drive (perform : χ → (now request : Nat) → (call : Call) → σ → Except ε (Ans call) × σ)
    (request : Nat) : Program Ans ε α → Schedule χ → (now drawn : Nat) → σ → List (Entry Ans ε) →
    Driven Ans ε α σ
  | .done value, _, now, drawn, shared, log => ⟨.ok value, now, drawn, shared, log⟩
  | .fail error, _, now, drawn, shared, log => ⟨.error error, now, drawn, shared, log⟩
  | .clock rest, schedule, now, drawn, shared, log =>
    (rest now).drive perform request schedule now drawn shared log
  | .draw rest, schedule, now, drawn, shared, log =>
    (rest ⟨request, drawn⟩).drive perform request schedule now (drawn + 1) shared log
  | .await call rest, schedule, now, drawn, shared, log =>
    let later := now + (schedule 0).1
    let answered := perform (schedule 0).2 later request call shared
    (rest answered.1).drive perform request (fun index => schedule (index + 1)) later drawn answered.2
      (log ++ [⟨request, call, answered.1, later⟩])

/-- A program served alone goes on with the value that a call is answered with. -/
theorem Program.drive_perform_ok {perform : χ → (now request : Nat) → (call : Call) → σ → Except ε (Ans call) × σ}
    {request now drawn : Nat} {call : Call} {next : Ans call → Program Ans ε α} {schedule : Schedule χ}
    {shared after : σ} {log : List (Entry Ans ε)} {value : Ans call}
    (answered : perform (schedule 0).2 (now + (schedule 0).1) request call shared = (.ok value, after)) :
    ((Program.perform call).bind next).drive perform request schedule now drawn shared log =
      (next value).drive perform request (fun index => schedule (index + 1)) (now + (schedule 0).1) drawn after
        (log ++ [⟨request, call, .ok value, now + (schedule 0).1⟩]) := by
  simp only [Program.perform_bind, Program.drive, answered, Program.ofExcept_ok, Program.done_bind]

/-- A program that is a single call ends with its answer. -/
theorem Program.drive_call_ok {perform : χ → (now request : Nat) → (call : Call) → σ → Except ε (Ans call) × σ}
    {request now drawn : Nat} {call : Call} {schedule : Schedule χ} {shared after : σ} {log : List (Entry Ans ε)}
    {value : Ans call}
    (answered : perform (schedule 0).2 (now + (schedule 0).1) request call shared = (.ok value, after)) :
    (Program.perform call).drive perform request schedule now drawn shared log =
      ⟨.ok value, now + (schedule 0).1, drawn, after, log ++ [⟨request, call,
        .ok value, now + (schedule 0).1⟩]⟩ := by
  simp only [Program.perform, Program.drive, answered, Program.ofExcept_ok]

/-- A rejection that is not caught ends the program. -/
theorem Program.drive_perform_error {perform : χ → (now request : Nat) →
    (call : Call) → σ → Except ε (Ans call) × σ}
    {request now drawn : Nat} {call : Call} {next : Ans call → Program Ans ε α} {schedule : Schedule χ}
    {shared after : σ} {log : List (Entry Ans ε)} {error : ε}
    (rejected : perform (schedule 0).2 (now + (schedule 0).1) request call shared = (.error error, after)) :
    ((Program.perform call).bind next).drive perform request schedule now drawn shared log =
      ⟨.error error, now + (schedule 0).1, drawn, after,
        log ++ [⟨request, call, .error error, now + (schedule 0).1⟩]⟩ := by
  simp only [Program.perform_bind, Program.drive, rejected, Program.ofExcept_error, Program.fail_bind]

/-- Served alone, the program makes a call that is `wanted`. -/
def Program.Makes (perform : χ → (now request : Nat) → (call : Call) → σ → Except ε (Ans call) × σ)
    (wanted : Call → Prop) (request : Nat) : Program Ans ε α → Schedule χ → (now drawn : Nat) → σ → Prop
  | .done _, _, _, _, _ => False
  | .fail _, _, _, _, _ => False
  | .clock rest, schedule, now, drawn, shared => (rest now).Makes perform wanted request schedule now drawn shared
  | .draw rest, schedule, now, drawn, shared =>
    (rest ⟨request, drawn⟩).Makes perform wanted request schedule now (drawn + 1) shared
  | .await call rest, schedule, now, drawn, shared =>
    let later := now + (schedule 0).1
    let answered := perform (schedule 0).2 later request call shared
    wanted call ∨ (rest answered.1).Makes perform wanted request (fun index =>
      schedule (index + 1)) later drawn answered.2

theorem Program.drive_makes {perform : χ → (now request : Nat) → (call : Call) → σ → Except ε (Ans call) × σ}
    {wanted : Call → Prop} {request now drawn : Nat} {body : Program Ans ε α} {schedule : Schedule χ} {shared : σ}
    {log : List (Entry Ans ε)} :
    (∃ entry ∈ (body.drive perform request schedule now drawn shared log).log, wanted entry.call) ↔
      (∃ entry ∈ log, wanted entry.call) ∨ body.Makes perform wanted request schedule now drawn shared := by
  induction body generalizing schedule now drawn shared log with
  | done value => exact (or_iff_left id).symm
  | fail error => exact (or_iff_left id).symm
  | clock rest ih => exact ih now
  | draw rest ih => exact ih ⟨request, drawn⟩
  | await call rest ih =>
    refine (ih _).trans ?_
    simp only [List.mem_append, List.mem_singleton, or_and_right, exists_or,
      exists_eq_left, Program.Makes, or_assoc]

theorem Program.Only.not_makes {perform : χ → (now request : Nat) → (call : Call) → σ → Except ε (Ans call) × σ}
    {wanted fine : Call → Prop} {request now drawn : Nat} {body : Program Ans ε α}
    {schedule : Schedule χ} {shared : σ}
    (only : body.Only fine) (unwanted : ∀ call, fine call → ¬ wanted call) :
    ¬ body.Makes perform wanted request schedule now drawn shared := by
  induction body generalizing schedule now drawn shared with
  | done value => exact id
  | fail error => exact id
  | clock rest ih => exact ih now (only now)
  | draw rest ih => exact ih ⟨request, drawn⟩ (only ⟨request, drawn⟩)
  | await call rest ih => exact not_or.mpr ⟨unwanted call only.1, ih _ (only.2 _)⟩

/-- Served alone in related states, a program that makes only calls that are answered alike ends alike. -/
theorem Program.Only.drive_alike {perform : χ → (now request : Nat) → (call : Call) → σ → Except ε (Ans call) × σ}
    {fine : Call → Prop} {related : σ → σ → Prop} {request now drawn : Nat} {body : Program Ans ε α}
    {schedule : Schedule χ} {shared other : σ} {log log' : List (Entry Ans ε)} (only : body.Only fine)
    (alike : ∀ choice now call state state', fine call → related state state' →
      (perform choice now request call state').1 = (perform choice now request call state).1 ∧
        related (perform choice now request call state).2 (perform choice now request call state').2)
    (start : related shared other) : (body.drive perform request schedule now drawn other log').result =
      (body.drive perform request schedule now drawn shared log).result := by
  induction body generalizing schedule now drawn shared other log log' with
  | done value => rfl
  | fail error => rfl
  | clock rest ih => exact ih now (only now) start
  | draw rest ih => exact ih ⟨request, drawn⟩ (only ⟨request, drawn⟩) start
  | await call rest ih =>
    obtain ⟨answered, after⟩ := alike (schedule 0).2 (now + (schedule 0).1) call shared other only.1 start
    simp only [Program.drive, answered]
    exact ih _ (only.2 _) after

/-- However a program is served alone, if the surroundings only make `allowed` choices it ends as `Q`
says. -/
def Program.Ensures (perform : χ → (now request : Nat) → (call : Call) → σ → Except ε (Ans call) × σ)
    (allowed : χ → Prop) (request : Nat) (Q : Except ε α → Nat → σ → List (Entry Ans ε) → Prop) :
    Program Ans ε α → (now drawn : Nat) → σ → List (Entry Ans ε) → Prop
  | .done value, now, _, shared, log => Q (.ok value) now shared log
  | .fail error, now, _, shared, log => Q (.error error) now shared log
  | .clock rest, now, drawn, shared, log => (rest now).Ensures perform allowed request Q now drawn shared log
  | .draw rest, now, drawn, shared, log =>
    (rest ⟨request, drawn⟩).Ensures perform allowed request Q now (drawn + 1) shared log
  | .await call rest, now, drawn, shared, log => ∀ choice later, allowed choice → now ≤ later →
    (rest (perform choice later request call shared).1).Ensures perform allowed request Q later drawn
      (perform choice later request call shared).2
      (log ++ [⟨request, call, (perform choice later request call shared).1, later⟩])

section
variable {answering : χ → (now request : Nat) → (call : Call) → σ → Except ε (Ans call) × σ}
  {allowed : χ → Prop} {request clock drawn : Nat} {Q : Except ε α → Nat → σ → List (Entry Ans ε) → Prop}
  {shared : σ} {log : List (Entry Ans ε)}

theorem Program.Ensures.drive {body : Program Ans ε α} {schedule : Schedule χ}
    (ensures : body.Ensures answering allowed request Q clock drawn shared log)
    (choices : ∀ index, allowed (schedule index).2) :
    let driven := body.drive answering request schedule clock drawn shared log
    Q driven.result driven.clock driven.shared driven.log := by
  induction body generalizing schedule clock drawn shared log with
  | done value => exact ensures
  | fail error => exact ensures
  | clock rest ih => exact ih clock ensures choices
  | draw rest ih => exact ih ⟨request, drawn⟩ ensures choices
  | await call rest ih =>
    exact ih _ (ensures _ _ (choices 0) (Nat.le_add_right _ _)) fun index => choices (index + 1)

theorem Program.Ensures.mono {body : Program Ans ε α} {R : Except ε α → Nat → σ → List (Entry Ans ε) → Prop}
    (wide : ∀ result clock shared log, Q result clock shared log → R result clock shared log)
    (ensures : body.Ensures answering allowed request Q clock drawn shared log) :
    body.Ensures answering allowed request R clock drawn shared log := by
  induction body generalizing clock drawn shared log with
  | done value => exact wide _ _ _ _ ensures
  | fail error => exact wide _ _ _ _ ensures
  | clock rest ih => exact ih clock ensures
  | draw rest ih => exact ih ⟨request, drawn⟩ ensures
  | await call rest ih => exact fun choice later fine after => ih _ (ensures choice later fine after)

/-- However a program is served alone, it keeps what its calls keep. -/
theorem Program.Only.ensures {fine : Call → Prop} {keeps : σ → Prop}
    {body : Program Ans ε α} (only : body.Only fine)
    (step : ∀ choice now call state, fine call → keeps state → keeps (answering choice now request call state).2)
    (start : keeps shared) :
    body.Ensures answering allowed request (fun _ _ shared _ => keeps shared) clock drawn shared log := by
  induction body generalizing clock drawn shared log with
  | done value => exact start
  | fail error => exact start
  | clock rest ih => exact ih clock (only clock) start
  | draw rest ih => exact ih ⟨request, drawn⟩ (only ⟨request, drawn⟩) start
  | await call rest ih => exact fun choice later _ _ => ih _ (only.2 _) (step choice later call shared only.1 start)

/-- The rule for a program that is a single call. -/
theorem Program.Ensures.call (call : Call) {Q : Except ε (Ans call) → Nat → σ → List (Entry Ans ε) → Prop}
    (ends : ∀ choice later, allowed choice → clock ≤ later →
      Q (answering choice later request call shared).1 later (answering choice later request call shared).2
        (log ++ [⟨request, call, (answering choice later request call shared).1, later⟩])) :
    (Program.perform call).Ensures answering allowed request Q clock drawn shared log := by
  intro choice later fine after
  have ended := ends choice later fine after
  cases result : (answering choice later request call shared).1 with
  | error error =>
    rw [result] at ended
    exact ended
  | ok value =>
    rw [result] at ended
    exact ended

/-- The rule for a program that goes on with the value of another. -/
theorem Program.Ensures.bind {P : Except ε β → Nat → σ → List (Entry Ans ε) → Prop} {body : Program Ans ε β}
    {next : β → Program Ans ε α} (first : body.Ensures answering allowed request P clock drawn shared log)
    (goes_on : ∀ value clock drawn shared log, P (.ok value) clock shared log →
      (next value).Ensures answering allowed request Q clock drawn shared log)
    (fails : ∀ error clock shared log, P (.error error) clock shared log → Q (.error error) clock shared log) :
    (body.bind next).Ensures answering allowed request Q clock drawn shared log := by
  induction body generalizing clock drawn shared log with
  | done value => exact goes_on _ _ _ _ _ first
  | fail error => exact fails _ _ _ _ first
  | clock rest ih => exact ih clock first
  | draw rest ih => exact ih ⟨request, drawn⟩ first
  | await call rest ih => exact fun choice later fine after => ih _ (first choice later fine after)

/-- The rule for a handler. -/
theorem Program.Ensures.attempt {P : Except ε α → Nat → σ → List (Entry Ans ε) → Prop} {body : Program Ans ε α}
    {handler : ε → Program Ans ε α} (first : body.Ensures answering allowed request P clock drawn shared log)
    (fine : ∀ value clock shared log, P (.ok value) clock shared log → Q (.ok value) clock shared log)
    (handles : ∀ error clock drawn shared log, P (.error error) clock shared log →
      (handler error).Ensures answering allowed request Q clock drawn shared log) :
    (body.attempt handler).Ensures answering allowed request Q clock drawn shared log := by
  induction body generalizing clock drawn shared log with
  | done value => exact fine _ _ _ _ first
  | fail error => exact handles _ _ _ _ _ first
  | clock rest ih => exact ih clock first
  | draw rest ih => exact ih ⟨request, drawn⟩ first
  | await call rest ih => exact fun choice later fine after => ih _ (first choice later fine after)

/-- The rule for a cleanup. -/
theorem Program.Ensures.tryFinally {P : Except ε α → Nat → σ → List (Entry Ans ε) → Prop} {body : Program Ans ε α}
    {cleanup : Program Ans ε Unit} (first : body.Ensures answering allowed request P clock drawn shared log)
    (cleans : ∀ result clock drawn shared log, P result clock shared log →
      (cleanup.bind fun _ => .ofExcept result).Ensures answering allowed request Q clock drawn shared log) :
    (body.tryFinally cleanup).Ensures answering allowed request Q clock drawn shared log := by
  induction body generalizing clock drawn shared log with
  | done value => exact cleans (.ok value) _ _ _ _ first
  | fail error => exact cleans (.error error) _ _ _ _ first
  | clock rest ih => exact ih clock first
  | draw rest ih => exact ih ⟨request, drawn⟩ first
  | await call rest ih => exact fun choice later fine after => ih _ (first choice later fine after)

theorem Program.Ensures.now {next : Nat → Program Ans ε α}
    (ensures : (next clock).Ensures answering allowed request Q clock drawn shared log) :
    (Program.now.bind next).Ensures answering allowed request Q clock drawn shared log := ensures

theorem Program.Ensures.random {next : Nonce → Program Ans ε α}
    (ensures : (next ⟨request, drawn⟩).Ensures answering allowed request Q clock (drawn + 1) shared log) :
    (Program.random.bind next).Ensures answering allowed request Q clock drawn shared log := ensures

/-- The rule for an awaited call whose rejection is not caught. -/
theorem Program.Ensures.perform {call : Call} {next : Ans call → Program Ans ε α}
    (answered : ∀ choice later value, allowed choice → clock ≤ later →
      (answering choice later request call shared).1 = .ok value →
      (next value).Ensures answering allowed request Q later drawn (answering choice later request call shared).2
        (log ++ [⟨request, call, .ok value, later⟩]))
    (rejected : ∀ choice later error, allowed choice → clock ≤ later →
      (answering choice later request call shared).1 = .error error →
      Q (.error error) later (answering choice later request call shared).2
        (log ++ [⟨request, call, .error error, later⟩])) :
    ((Program.perform call).bind next).Ensures answering allowed request Q clock drawn shared log := by
  intro choice later fine after
  cases result : (answering choice later request call shared).1 with
  | error error => exact rejected choice later error fine after result
  | ok value => exact answered choice later value fine after result

end

/-- What is ensured of the runs that end with a value. -/
def Returns (R : α → Nat → σ → Prop) (result : Except ε α) (clock : Nat) (shared : σ) (_ : List (Entry Ans ε)) :
    Prop :=
  ∀ value, result = .ok value → R value clock shared

section
variable {answering : χ → (now request : Nat) → (call : Call) → σ → Except ε (Ans call) × σ}
  {allowed : χ → Prop} {request clock drawn : Nat} {R : α → Nat → σ → Prop} {shared : σ} {log : List (Entry Ans ε)}

theorem Returns.failed {error : ε} : Returns R (.error error) clock shared log := fun _ no => by cases no

theorem Returns.ok {value : α} (holds : R value clock shared) : Returns R (.ok value) clock shared log := by
  rintro _ ⟨⟩
  exact holds

/-- A program that fails in the end returns nothing, whatever it does before. -/
theorem Program.Ensures.fail_last {body : Program Ans ε β} {error : ε} :
    (body.bind fun _ => .fail error).Ensures answering allowed request (Returns R) clock drawn shared log := by
  induction body generalizing clock drawn shared log with
  | done value => exact Returns.failed
  | fail error => exact Returns.failed
  | clock rest ih => exact ih clock
  | draw rest ih => exact ih ⟨request, drawn⟩
  | await call rest ih => exact fun _ _ _ _ => ih _

theorem Program.Ensures.done_last {body : Program Ans ε β} {last : β → α} :
    (body.bind fun value => .done (last value)).Ensures answering allowed request
      (Returns fun value _ _ => ∃ before, value = last before) clock drawn shared log := by
  induction body generalizing clock drawn shared log with
  | done value => exact Returns.ok ⟨value, rfl⟩
  | fail error => exact Returns.failed
  | clock rest ih => exact ih clock
  | draw rest ih => exact ih ⟨request, drawn⟩
  | await call rest ih => exact fun _ _ _ _ => ih _

/-- The rule for an awaited call where only the runs matter that end with a value. -/
theorem Program.Ensures.answered {call : Call} {next : Ans call → Program Ans ε α}
    (answered : ∀ choice later value log, allowed choice → clock ≤ later →
      (answering choice later request call shared).1 = .ok value →
      (next value).Ensures answering allowed request (Returns R) later drawn
        (answering choice later request call shared).2 log) :
    ((Program.perform call).bind next).Ensures answering allowed request (Returns R) clock drawn shared log :=
  .perform (fun choice later value => answered choice later value _) fun _ _ _ _ _ _ => Returns.failed

end

/-- Serves one request from its arrival to its end. -/
def System.serve (S : System Ans ε Req Res σ χ δ) (cfg : Config Ans ε Req Res σ) (schedule : Schedule χ)
    (request : Req) : Config Ans ε Req Res σ :=
  let driven := (S.body request).drive S.perform cfg.threads.length schedule cfg.clock 0 cfg.shared cfg.log
  ⟨driven.clock, driven.shared, cfg.threads ++ [⟨request, driven.drawn, driven.state⟩], driven.log⟩

/-- How a request ends that is served from its arrival to its end. -/
def System.result (S : System Ans ε Req Res σ χ δ) (cfg : Config Ans ε Req Res σ) (schedule : Schedule χ)
    (request : Req) : Except ε Res :=
  ((S.body request).drive S.perform cfg.threads.length schedule cfg.clock 0 cfg.shared cfg.log).result

/-- Configurations reached from `initial` by serving one request at a time. -/
inductive System.Sequential (S : System Ans ε Req Res σ χ δ) (initial : Config Ans ε Req Res σ) :
    Config Ans ε Req Res σ → Prop
  | start : Sequential S initial initial
  | tick {cfg} (delay : Nat) : Sequential S initial cfg →
      Sequential S initial { cfg with clock := cfg.clock + delay }
  | disturb {cfg} (change : δ) : Sequential S initial cfg →
      Sequential S initial { cfg with shared := S.disturb change cfg.clock cfg.shared }
  | serve {cfg} (schedule : Schedule χ) (request : Req) : Sequential S initial cfg →
      Sequential S initial (S.serve cfg schedule request)

namespace System
variable {S : System Ans ε Req Res σ χ δ} {initial cfg : Config Ans ε Req Res σ}

theorem set_of_getElem? {xs : List α} {index : Nat} {value : α} (found : xs[index]? = some value) :
    xs.set index value = xs := by
  obtain ⟨bound, rfl⟩ := List.getElem?_eq_some_iff.mp found
  exact List.set_getElem_self bound

/-- Driving a thread to its end is a run of ticks and of its own steps. -/
theorem drive_reach (body : Program Ans ε Res) (cfg : Config Ans ε Req Res σ) {index drawn : Nat}
    {request : Req} (schedule : Schedule χ) (found : cfg.threads[index]? =
      some ⟨request, (body.settle cfg.clock index drawn).2, (body.settle cfg.clock index drawn).1⟩) :
    let driven := body.drive S.perform index schedule cfg.clock drawn cfg.shared cfg.log
    S.Reach anyEvent cfg ⟨driven.clock, driven.shared,
      cfg.threads.set index ⟨request, driven.drawn, driven.state⟩, driven.log⟩ := by
  induction body generalizing cfg drawn schedule with
  | done value =>
    have same := set_of_getElem? found
    simp only [Program.settle] at same
    simp only [Program.drive, Driven.state, same]
    exact .start
  | fail error =>
    have same := set_of_getElem? found
    simp only [Program.settle] at same
    simp only [Program.drive, Driven.state, same]
    exact .start
  | clock rest ih => exact ih cfg.clock cfg schedule found
  | draw rest ih => exact ih ⟨index, drawn⟩ cfg schedule found
  | await call rest ih =>
    let later : Config Ans ε Req Res σ := { cfg with clock := cfg.clock + (schedule 0).1 }
    have ticked : S.Reach anyEvent cfg later :=
      .next .start trivial (show S.advance cfg (.tick (schedule 0).1) = some later from rfl)
    refine (ticked.next trivial (advance_resume (schedule 0).2 found rfl)).trans ?_
    have ran := ih (S.perform (schedule 0).2 later.clock index call later.shared).1
      (S.resume later index ⟨request, drawn, .awaiting call rest⟩ call rest (schedule 0).2)
      (fun index => schedule (index + 1)) (List.getElem?_set_self (List.getElem?_eq_some_iff.mp found).1)
    simp only [resume, List.set_set] at ran
    exact ran

theorem serve_reach (cfg : Config Ans ε Req Res σ) (schedule : Schedule χ) (request : Req) :
    S.Reach anyEvent cfg (S.serve cfg schedule request) := by
  have arrived : S.Reach anyEvent cfg (S.arrive cfg request) :=
    .next .start trivial (show S.advance cfg (.arrive request) = some _ from rfl)
  have ran := drive_reach (S := S) (S.body request) (S.arrive cfg request) schedule
    (List.getElem?_concat_length ..)
  refine arrived.trans ?_
  simpa [arrive, serve] using ran

theorem drive_log (perform : χ → (now request : Nat) → (call : Call) → σ → Except ε (Ans call) × σ) (request : Nat)
    (body : Program Ans ε α) (schedule : Schedule χ) (now drawn : Nat) (shared : σ) (log : List (Entry Ans ε)) :
    ∃ history, (body.drive perform request schedule now drawn shared log).log = log ++ history ∧
      ∀ entry ∈ history, entry.request = request := by
  induction body generalizing schedule now drawn shared log with
  | done value => exact ⟨[], (List.append_nil log).symm, by simp⟩
  | fail error => exact ⟨[], (List.append_nil log).symm, by simp⟩
  | clock rest ih => exact ih now schedule now drawn shared log
  | draw rest ih => exact ih ⟨request, drawn⟩ schedule now (drawn + 1) shared log
  | await call rest ih =>
    obtain ⟨history, logged, own⟩ := ih (perform (schedule 0).2 (now + (schedule 0).1) request call shared).1
      (fun index => schedule (index + 1)) (now + (schedule 0).1) drawn _ (log ++ [_])
    refine ⟨_ :: history, by rw [Program.drive, logged, List.append_assoc]; rfl, fun entry member => ?_⟩
    rcases List.mem_cons.mp member with rfl | later
    · rfl
    · exact own entry later

/-- No time passes where no call is kept waiting. -/
theorem drive_clock (perform : χ → (now request : Nat) → (call : Call) → σ →
    Except ε (Ans call) × σ) (request : Nat)
    (body : Program Ans ε α) {schedule : Schedule χ} (instant : ∀ index, (schedule index).1 = 0) (now drawn : Nat)
    (shared : σ) (log : List (Entry Ans ε)) :
    (body.drive perform request schedule now drawn shared log).clock = now := by
  induction body generalizing schedule now drawn shared log with
  | done value => rfl
  | fail error => rfl
  | clock rest ih => exact ih now instant now drawn shared log
  | draw rest ih => exact ih ⟨request, drawn⟩ instant now (drawn + 1) shared log
  | await call rest ih =>
    rw [Program.drive, instant 0, Nat.add_zero]
    exact ih _ (fun index => instant (index + 1)) now drawn _ _

theorem le_drive_clock (perform : χ → (now request : Nat) → (call : Call) → σ →
    Except ε (Ans call) × σ) (request : Nat)
    (body : Program Ans ε α) (schedule : Schedule χ) (now drawn : Nat) (shared : σ) (log : List (Entry Ans ε)) :
    now ≤ (body.drive perform request schedule now drawn shared log).clock := by
  induction body generalizing schedule now drawn shared log with
  | done value => exact Nat.le_refl now
  | fail error => exact Nat.le_refl now
  | clock rest ih => exact ih now schedule now drawn shared log
  | draw rest ih => exact ih ⟨request, drawn⟩ schedule now (drawn + 1) shared log
  | await call rest ih => exact Nat.le_trans (Nat.le_add_right _ _) (ih _ _ _ drawn _ _)

theorem serve_clock (cfg : Config Ans ε Req Res σ) {schedule : Schedule χ}
    (instant : ∀ index, (schedule index).1 = 0)
    (request : Req) : (S.serve cfg schedule request).clock = cfg.clock :=
  drive_clock _ _ _ instant ..

/-- A request served alone logs what it does, and nothing else is logged. -/
theorem serve_log (cfg : Config Ans ε Req Res σ) (schedule : Schedule χ) (request : Req) :
    ∃ history, (S.serve cfg schedule request).log = cfg.log ++ history ∧
      ∀ entry ∈ history, entry.request = cfg.threads.length :=
  drive_log ..

/-- The calls of a request served alone are those that it has added to the log. -/
theorem serve_history {permitted : Config Ans ε Req Res σ → Event Req χ δ → Prop} {clock : Nat} {shared : σ}
    {schedule : Schedule χ} {request : Req} {history : List (Entry Ans ε)}
    (reach : S.Reach permitted (.start clock shared) cfg)
    (logged : (S.serve cfg schedule request).log = cfg.log ++ history)
    (own : ∀ entry ∈ history, entry.request = cfg.threads.length) :
    (S.serve cfg schedule request).history cfg.threads.length = history := by
  have fresh : cfg.log.filter (·.request = cfg.threads.length) = [] := reach.history_fresh
  rw [Config.history, logged, List.filter_append, fresh, List.nil_append, List.filter_eq_self]
  simpa using own

/-- A request served alone ends as its program ensures. -/
theorem serve_ensures {allowed : χ → Prop} {Q : Except ε Res → Nat → σ → List (Entry Ans ε) → Prop}
    {request : Req} {schedule : Schedule χ} (ensures : (S.body request).Ensures
      S.perform allowed cfg.threads.length Q
      cfg.clock 0 cfg.shared cfg.log) (choices : ∀ index, allowed (schedule index).2) :
    Q (S.result cfg schedule request) (S.serve cfg schedule request).clock (S.serve cfg schedule request).shared
      (S.serve cfg schedule request).log :=
  ensures.drive choices

theorem Sequential.reach (run : S.Sequential initial cfg) : S.Reach anyEvent initial cfg := by
  induction run with
  | start => exact .start
  | tick delay _ ih => exact ih.next trivial (show S.advance _ (.tick delay) = some _ from rfl)
  | disturb change _ ih => exact ih.next trivial (show S.advance _ (.disturb change) = some _ from rfl)
  | serve schedule request _ ih => exact ih.trans (serve_reach _ schedule request)

theorem serve_quiet (schedule : Schedule χ) (request : Req) (quiet : cfg.Quiet) :
    (S.serve cfg schedule request).Quiet := by
  intro thread member
  rcases List.mem_append.mp member with old | new
  · exact quiet thread old
  · rw [List.mem_singleton.mp new]
    simp only [Driven.state]
    split <;> rfl

theorem Sequential.quiet (run : S.Sequential initial cfg) (quiet : initial.Quiet) : cfg.Quiet := by
  induction run with
  | start => exact quiet
  | tick delay _ ih => exact ih
  | disturb change _ ih => exact ih
  | serve schedule request _ ih => exact serve_quiet schedule request ih

end System

end Async
