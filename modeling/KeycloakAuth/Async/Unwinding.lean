import KeycloakAuth.Async.Sequential

namespace Async
variable {Call : Type} {Ans : Call → Type} {ε α β Req Res σ χ δ : Type}

/-- Request `request` keeps to the calls in `scope` and returns what `R` says, if each call is only answered
with what is `expected` of it. -/
def Program.Within (scope : Call → Prop) (expected : (call : Call) → Ans call → Prop)
    (request : Nat) (R : α → Prop) :
    Program Ans ε α → Prop
  | .done value => R value
  | .fail _ => True
  | .clock rest => ∀ now, (rest now).Within scope expected request R
  | .draw rest => ∀ index, (rest ⟨request, index⟩).Within scope expected request R
  | .await call rest => scope call ∧ ∀ answer, (∀ value, answer = .ok value → expected call value) →
      (rest answer).Within scope expected request R

/-- The same for a program that is suspended already. -/
def Suspended.Within (scope : Call → Prop) (expected : (call : Call) → Ans call → Prop) (request : Nat)
    (R : α → Prop) : Suspended Ans ε α → Prop
  | .returned value => R value
  | .threw _ => True
  | .awaiting call rest => scope call ∧ ∀ answer, (∀ value, answer = .ok value → expected call value) →
      (rest answer).Within scope expected request R

namespace Program.Within
variable {scope : Call → Prop} {expected : (call : Call) → Ans call → Prop} {request : Nat} {R : α → Prop}
  {Q : β → Prop}

theorem bind {body : Program Ans ε α} {next : α → Program Ans ε β} (first : body.Within scope expected request R)
    (second : ∀ value, R value → (next value).Within scope expected request Q) :
    (body.bind next).Within scope expected request Q := by
  induction body with
  | done value => exact second value first
  | fail error => trivial
  | clock rest ih => exact fun now => ih now (first now)
  | draw rest ih => exact fun index => ih ⟨request, index⟩ (first index)
  | await call rest ih => exact ⟨first.1, fun answer fine => ih answer (first.2 answer fine)⟩

theorem attempt {body : Program Ans ε α} {handler : ε → Program Ans ε α}
    (first : body.Within scope expected request R)
    (second : ∀ error, (handler error).Within scope expected request R) :
    (body.attempt handler).Within scope expected request R := by
  induction body with
  | done value => exact first
  | fail error => exact second error
  | clock rest ih => exact fun now => ih now (first now)
  | draw rest ih => exact fun index => ih ⟨request, index⟩ (first index)
  | await call rest ih => exact ⟨first.1, fun answer fine => ih answer (first.2 answer fine)⟩

theorem perform {call : Call} {R : Ans call → Prop} (here : scope call)
    (answered : ∀ value, expected call value → R value) :
    (Program.perform call : Program Ans ε _).Within scope expected request R := by
  refine ⟨here, fun answer fine => ?_⟩
  cases answer with
  | error error => trivial
  | ok value => exact answered value (fine value rfl)

/-- The rule for an awaited call whose rejection is not caught. -/
theorem perform_bind {call : Call} {next : Ans call → Program Ans ε β} (here : scope call)
    (answered : ∀ value, expected call value → (next value).Within scope expected request Q) :
    ((Program.perform call).bind next).Within scope expected request Q :=
  (perform (R := expected call) here fun _ fine => fine).bind answered

theorem now {next : Nat → Program Ans ε β} (within : ∀ now, (next now).Within scope expected request Q) :
    (Program.now.bind next).Within scope expected request Q := within

theorem random {next : Nonce → Program Ans ε β}
    (within : ∀ index, (next ⟨request, index⟩).Within scope expected request Q) :
    (Program.random.bind next).Within scope expected request Q := within

theorem settle {body : Program Ans ε α} {now drawn : Nat} (within : body.Within scope expected request R) :
    (body.settle now request drawn).1.Within scope expected request R := by
  induction body generalizing drawn with
  | done value => exact within
  | fail error => trivial
  | clock rest ih => exact ih now (within now)
  | draw rest ih => exact ih ⟨request, drawn⟩ (within drawn)
  | await call rest => exact within

end Program.Within

/-- Every request keeps to the scope that its number and itself give it. -/
def Config.Confined (scope : Nat → Req → Call → Prop) (expected : Req → (call : Call) → Ans call → Prop)
    (cfg : Config Ans ε Req Res σ) : Prop :=
  ∀ (index : Nat) (thread : Thread Ans ε Req Res), cfg.threads[index]? = some thread →
    thread.state.Within (scope index thread.request) (expected thread.request) index fun _ => True

namespace Config.Confined
variable {S : System Ans ε Req Res σ χ δ} {scope : Nat → Req → Call → Prop}
  {expected : Req → (call : Call) → Ans call → Prop} {cfg : Config Ans ε Req Res σ}

theorem arrive {request : Req} (confined : cfg.Confined scope expected)
    (within : (S.body request).Within (scope cfg.threads.length request) (expected request) cfg.threads.length
      fun _ => True) : (S.arrive cfg request).Confined scope expected := by
  intro index thread found
  rw [System.arrive, List.getElem?_append] at found
  split at found
  · exact confined index thread found
  · have bound := (List.getElem?_eq_some_iff.mp found).1
    rw [List.length_singleton] at bound
    have last : index = cfg.threads.length := by omega
    subst last
    rw [Nat.sub_self] at found
    cases Option.some.inj found
    exact within.settle

theorem resume {index : Nat} {thread : Thread Ans ε Req Res} {call : Call}
    {rest : Except ε (Ans call) → Program Ans ε Res} {choice : χ} (confined : cfg.Confined scope expected)
    (found : cfg.threads[index]? = some thread) (waiting : thread.state = .awaiting call rest)
    (fine : scope index thread.request call → ∀ value,
      (S.perform choice cfg.clock index call cfg.shared).1 = .ok value → expected thread.request call value) :
    (S.resume cfg index thread call rest choice).Confined scope expected := by
  intro other later atOther
  have within := confined index thread found
  rw [waiting] at within
  by_cases own : index = other
  · subst own
    have same := (List.getElem?_set_self (List.getElem?_eq_some_iff.mp found).1).symm.trans atOther
    cases Option.some.inj same
    exact (within.2 _ (fine within.1)).settle
  · exact confined other later ((List.getElem?_set_ne own).symm.trans atOther)

theorem in_scope {index : Nat} {thread : Thread Ans ε Req Res} {call : Call}
    {rest : Except ε (Ans call) → Program Ans ε Res} (confined : cfg.Confined scope expected)
    (found : cfg.threads[index]? = some thread) (waiting : thread.state = .awaiting call rest) :
    scope index thread.request call := by
  have within := confined index thread found
  rw [waiting] at within
  exact within.1

end Config.Confined

/-- Run at once in related states, the program ends in related states with one result. -/
def Program.Agrees (answer : (call : Call) → σ → Except ε (Ans call) × σ)
    (now request : Nat) (related : σ → σ → Prop)
    (body : Program Ans ε α) : Prop :=
  ∀ drawn state other, related state other →
    (body.eval answer now request drawn other).result = (body.eval answer now request drawn state).result ∧
    (body.eval answer now request drawn other).drawn = (body.eval answer now request drawn state).drawn ∧
    related (body.eval answer now request drawn state).state (body.eval answer now request drawn other).state

namespace Program.Agrees
variable {answer : (call : Call) → σ → Except ε (Ans call) × σ} {clock request : Nat} {related : σ → σ → Prop}

theorem done (value : α) : (Program.done value : Program Ans ε α).Agrees answer clock request related :=
  fun _ _ _ alike => ⟨rfl, rfl, alike⟩

theorem fail (error : ε) : (Program.fail error : Program Ans ε α).Agrees answer clock request related :=
  fun _ _ _ alike => ⟨rfl, rfl, alike⟩

theorem bind {body : Program Ans ε α} {next : α → Program Ans ε β}
    (first : body.Agrees answer clock request related)
    (second : ∀ value, (next value).Agrees answer clock request related) :
    (body.bind next).Agrees answer clock request related := by
  intro drawn state other alike
  obtain ⟨result, counted, after⟩ := first drawn state other alike
  rw [eval_bind, eval_bind, Outcome.andThen, Outcome.andThen, result, counted]
  cases (body.eval answer clock request drawn state).result with
  | error error => exact ⟨rfl, rfl, after⟩
  | ok value => exact second value _ _ _ after

theorem attempt {body : Program Ans ε α} {handler : ε → Program Ans ε α}
    (first : body.Agrees answer clock request related)
    (second : ∀ error, (handler error).Agrees answer clock request related) :
    (body.attempt handler).Agrees answer clock request related := by
  intro drawn state other alike
  obtain ⟨result, counted, after⟩ := first drawn state other alike
  rw [eval_attempt, eval_attempt, result]
  cases (body.eval answer clock request drawn state).result with
  | ok value => exact ⟨result, counted, after⟩
  | error error =>
    simp only [counted]
    exact second error _ _ _ after

theorem now {next : Nat → Program Ans ε β} (agrees : (next clock).Agrees answer clock request related) :
    (Program.now.bind next).Agrees answer clock request related := agrees

theorem random {next : Nonce → Program Ans ε β}
    (agrees : ∀ index, (next ⟨request, index⟩).Agrees answer clock request related) :
    (Program.random.bind next).Agrees answer clock request related :=
  fun drawn => agrees drawn (drawn + 1)

theorem perform {call : Call}
    (alike : ∀ state other, related state other → (answer call other).1 = (answer call state).1 ∧
      related (answer call state).2 (answer call other).2) :
    (Program.perform call : Program Ans ε _).Agrees answer clock request related := by
  intro drawn state other before
  rw [eval_perform, eval_perform]
  obtain ⟨result, after⟩ := alike state other before
  exact ⟨result, rfl, after⟩

/-- Where all calls are answered alike, all programs agree. -/
theorem of_calls (alike : ∀ call state other, related state other → (answer call other).1 = (answer call state).1 ∧
    related (answer call state).2 (answer call other).2) (body : Program Ans ε α) :
    body.Agrees answer clock request related := by
  intro drawn state other before
  induction body generalizing drawn state other with
  | done value => exact ⟨rfl, rfl, before⟩
  | fail error => exact ⟨rfl, rfl, before⟩
  | clock rest ih => exact ih clock drawn state other before
  | draw rest ih => exact ih ⟨request, drawn⟩ (drawn + 1) state other before
  | await call rest ih =>
    obtain ⟨answered, after⟩ := alike call state other before
    simp only [Program.eval, answered]
    exact ih _ drawn _ _ after

end Program.Agrees

/-- Two configurations at one clock reading to which the same requests have come. Those that are `mine` have got
as far in both, and the shared states are related. -/
structure Config.Alongside (mine : Req → Prop) (related : σ → σ → Prop)
    (cfg other : Config Ans ε Req Res σ) : Prop where
  clock : other.clock = cfg.clock
  requests : other.threads.map (·.request) = cfg.threads.map (·.request)
  threads : ∀ (index : Nat) (thread : Thread Ans ε Req Res), cfg.threads[index]? = some thread →
    mine thread.request → other.threads[index]? = some thread
  shared : related cfg.shared other.shared

namespace Config.Alongside
variable {S : System Ans ε Req Res σ χ δ} {mine : Req → Prop} {related : σ → σ → Prop}
  {cfg other : Config Ans ε Req Res σ} {index : Nat} {thread : Thread Ans ε Req Res} {call : Call}
  {rest : Except ε (Ans call) → Program Ans ε Res} {choice : χ}

theorem length (alongside : cfg.Alongside mine related other) : other.threads.length = cfg.threads.length := by
  simpa using congrArg List.length alongside.requests

/-- What has a number in one of them has it in the other. -/
theorem request_eq (alongside : cfg.Alongside mine related other) (found : other.threads[index]? = some thread) :
    ∃ twin, cfg.threads[index]? = some twin ∧ twin.request = thread.request := by
  have same := congrArg (fun requests : List Req => requests[index]?) alongside.requests
  simp only [List.getElem?_map, found, Option.map_some] at same
  exact Option.map_eq_some_iff.mp same.symm

theorem tick (alongside : cfg.Alongside mine related other) (delay : Nat) :
    Alongside mine related { cfg with clock := cfg.clock + delay } { other with clock := other.clock + delay } :=
  ⟨congrArg (· + delay) alongside.clock, alongside.requests, alongside.threads, alongside.shared⟩

theorem arrive (alongside : cfg.Alongside mine related other) (request : Req) :
    (S.arrive cfg request).Alongside mine related (S.arrive other request) := by
  refine ⟨alongside.clock, ?_, fun index thread found own => ?_, alongside.shared⟩
  · simp only [System.arrive, List.map_append, alongside.requests, List.map_cons]
  · simp only [System.arrive, List.getElem?_append, alongside.clock, alongside.length] at found ⊢
    split at found
    · rename_i early
      rw [if_pos early]
      exact alongside.threads index thread found own
    · rename_i late
      rw [if_neg late]
      exact found

/-- One of the others takes a step on one side only. -/
theorem resume_left (alongside : cfg.Alongside mine related other) (found : cfg.threads[index]? = some thread)
    (foreign : ¬ mine thread.request)
    (unseen : related (S.perform choice cfg.clock index call cfg.shared).2 other.shared) :
    (S.resume cfg index thread call rest choice).Alongside mine related other := by
  refine ⟨alongside.clock, ?_, fun position later atPosition own => ?_, unseen⟩
  · have stays : (cfg.threads.map (·.request))[index]? =
      some thread.request := by rw [List.getElem?_map, found]; rfl
    rw [alongside.requests, System.resume, List.map_set]
    exact (System.set_of_getElem? stays).symm
  · by_cases active : index = position
    · subst active
      have here := (List.getElem?_set_self (List.getElem?_eq_some_iff.mp found).1).symm.trans atPosition
      cases Option.some.inj here
      exact absurd own foreign
    · exact alongside.threads position later ((List.getElem?_set_ne active).symm.trans atPosition) own

/-- One of mine takes a step on both sides. -/
theorem resume_both (alongside : cfg.Alongside mine related other) (found : cfg.threads[index]? = some thread)
    (own : mine thread.request)
    (answer : (S.perform choice cfg.clock index call other.shared).1 =
      (S.perform choice cfg.clock index call cfg.shared).1)
    (after : related (S.perform choice cfg.clock index call cfg.shared).2
      (S.perform choice cfg.clock index call other.shared).2) :
    (S.resume cfg index thread call rest choice).Alongside mine related
      (S.resume other index thread call rest choice) := by
  have found' := alongside.threads index thread found own
  refine ⟨alongside.clock, ?_, fun position later atPosition mine => ?_, ?_⟩
  · simp only [System.resume, List.map_set, alongside.requests]
  · by_cases active : index = position
    · subst active
      have here := (List.getElem?_set_self (List.getElem?_eq_some_iff.mp found).1).symm.trans atPosition
      cases Option.some.inj here
      simp only [System.resume, alongside.clock, answer]
      exact List.getElem?_set_self (List.getElem?_eq_some_iff.mp found').1
    · have before := alongside.threads position later ((List.getElem?_set_ne active).symm.trans atPosition) mine
      exact (List.getElem?_set_ne active).trans before
  · simp only [System.resume, alongside.clock]
    exact after

end Config.Alongside

namespace System
variable {S : System Ans ε Req Res σ χ δ}

/-- Unwinding: if the events that are not kept only change what the relation leaves open, and those that are kept go
alike in related configurations, a run is related to what is kept of it. -/
theorem unwind {kept : Event Req χ δ → Bool} {permitted : Event Req χ δ → Prop}
    {related : Config Ans ε Req Res σ → Config Ans ε Req Res σ → Prop} {last : Config Ans ε Req Res σ}
    (hidden : ∀ cfg other next event, permitted event → kept event = false → S.advance cfg event = some next →
      S.Reach anyEvent next last → related cfg other → related next other)
    (visible : ∀ cfg other next event, permitted event → kept event = true → S.advance cfg event = some next →
      S.Reach anyEvent next last → related cfg other →
      ∃ after, S.advance other event = some after ∧ related next after)
    {events : List (Event Req χ δ)} {cfg other : Config Ans ε Req Res σ} (each : ∀ event ∈ events, permitted event)
    (start : related cfg other) (ran : S.run cfg events = some last) :
    ∃ reduced, S.run other (events.filter kept) = some reduced ∧ related last reduced := by
  induction events generalizing cfg other with
  | nil => exact ⟨other, rfl, Option.some.inj ran ▸ start⟩
  | cons event events ih =>
    obtain ⟨next, step, rest⟩ := Option.bind_eq_some_iff.mp ran
    have reach : S.Reach anyEvent next last := .of_run .start (fun _ _ _ => trivial) rest
    have later : ∀ event ∈ events, permitted event := fun event member => each event (List.mem_cons_of_mem _ member)
    have fine := each event List.mem_cons_self
    cases keeps : kept event with
    | false =>
      rw [List.filter_cons_of_neg (by simp [keeps])]
      exact ih later (hidden cfg other next event fine keeps step reach start) rest
    | true =>
      obtain ⟨after, step', alike⟩ := visible cfg other next event fine keeps step reach start
      obtain ⟨reduced, ran', same⟩ := ih later alike rest
      rw [List.filter_cons_of_pos keeps]
      exact ⟨reduced, by rw [run, step']; exact ran', same⟩

end System

end Async
