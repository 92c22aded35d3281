import Mathlib.Order.Defs.PartialOrder
import KeycloakAuth.Async.Sequential
import KeycloakAuth.Sql.Table

namespace Async
variable {Call : Type} {Ans : Call → Type} {ε ι α β γ δ Req Res σ τ χ Change : Type} [Preorder ι]

/-- When calls, and the answers to them, are taken for the same at a stage of the two runs. -/
structure Likeness (Ans : Call → Type) (ι : Type) [Preorder ι] where
  calls : ι → Call → Call → Prop
  answers : ι → (call other : Call) → Ans call → Ans other → Prop
  calls_mono : ∀ {stage later call other}, stage ≤ later → calls stage call other → calls later call other
  answers_mono : ∀ {stage later call other answer answer'}, stage ≤ later →
    answers stage call other answer answer' →
    answers later call other answer answer'

/-- The same rejection, or answers that are alike. -/
inductive Likeness.Answered (L : Likeness Ans ι) (stage : ι) (call other : Call) :
    Except ε (Ans call) → Except ε (Ans other) → Prop
  | rejected (error : ε) : L.Answered stage call other (.error error) (.error error)
  | answered {answer answer'} (alike : L.answers stage call other answer answer') :
      L.Answered stage call other (.ok answer) (.ok answer')

/-- Programs that make like calls as long as they are answered alike, and return values as `R` says. -/
inductive Program.Matches (L : Likeness Ans ι) (R : ι → α → β → Prop) : ι → Program Ans ε α → Program Ans ε β → Prop
  | done {stage value value'} (same : R stage value value') : Matches L R stage (.done value) (.done value')
  | fail {stage error} : Matches L R stage (.fail error) (.fail error)
  | clock {stage rest rest'} (goesOn : ∀ now, Matches L R stage (rest now) (rest' now)) :
      Matches L R stage (.clock rest) (.clock rest')
  | draw {stage rest rest'} (goesOn : ∀ nonce, Matches L R stage (rest nonce) (rest' nonce)) :
      Matches L R stage (.draw rest) (.draw rest')
  | await {stage call call' rest rest'} (called : L.calls stage call call')
      (goesOn : ∀ later answer answer', stage ≤ later → L.Answered later call call' answer answer' →
        Matches L R later (rest answer) (rest' answer')) : Matches L R stage (.await call rest) (.await call' rest')

/-- Programs that return the same. -/
abbrev Program.Mimics (L : Likeness Ans ι) (stage : ι) (body body' : Program Ans ε α) : Prop :=
  body.Matches L (fun _ value value' => value = value') stage body'

def Suspended.Mimics (L : Likeness Ans ι) (stage : ι) : Suspended Ans ε α → Suspended Ans ε α → Prop
  | .returned value, .returned value' => value = value'
  | .threw error, .threw error' => error = error'
  | .awaiting call rest, .awaiting call' rest' => (Program.await call rest).Mimics L stage (.await call' rest')
  | _, _ => False

structure Entry.Mimics (L : Likeness Ans ι) (stage : ι) (entry entry' : Entry Ans ε) : Prop where
  request : entry'.request = entry.request
  called : L.calls stage entry.call entry'.call
  answered : L.Answered stage entry.call entry'.call entry.answer entry'.answer
  time : entry'.time = entry.time

structure Thread.Mimics (L : Likeness Ans ι) (stage : ι) (thread thread' : Thread Ans ε Req Res) : Prop where
  request : thread'.request = thread.request
  drawn : thread'.drawn = thread.drawn
  state : thread.state.Mimics L stage thread'.state

/-- The same requests have come as far, by like calls, over states that are related. -/
structure Config.Mimics (L : Likeness Ans ι) (holds : ι → σ → List (Entry Ans ε) → τ → Prop) (stage : ι)
    (cfg : Config Ans ε Req Res σ) (cfg' : Config Ans ε Req Res τ) : Prop where
  clock : cfg'.clock = cfg.clock
  shared : holds stage cfg.shared cfg.log cfg'.shared
  threads : List.Forall₂ (Thread.Mimics L stage) cfg.threads cfg'.threads
  log : List.Forall₂ (Entry.Mimics L stage) cfg.log cfg'.log

section
variable {L : Likeness Ans ι} {R : ι → α → β → Prop} {Q : ι → γ → δ → Prop} {stage later : ι}

theorem Likeness.Answered.mono {call other : Call} {answer : Except ε (Ans call)} {answer' : Except ε (Ans other)}
    (more : stage ≤ later) (answered : L.Answered stage call other answer answer') :
    L.Answered later call other answer answer' := by
  cases answered with
  | rejected error => exact .rejected error
  | answered alike => exact .answered (L.answers_mono more alike)

namespace Program.Matches

theorem bind {body : Program Ans ε α} {body' : Program Ans ε β}
    {next : α → Program Ans ε γ} {next' : β → Program Ans ε δ}
    (first : body.Matches L R stage body')
    (second : ∀ later value value', stage ≤ later → R later value value' →
      (next value).Matches L Q later (next' value')) :
    (body.bind next).Matches L Q stage (body'.bind next') := by
  induction first with
  | done same => exact second _ _ _ le_rfl same
  | fail => exact .fail
  | clock _ ih => exact .clock fun now => ih now second
  | draw _ ih => exact .draw fun nonce => ih nonce second
  | await called _ ih =>
    refine .await called fun later answer answer' more answered => ih later answer answer' more answered ?_
    exact fun last value value' further => second last value value' (le_trans more further)

/-- A call that is not caught. -/
theorem perform {call call' : Call} (called : L.calls stage call call') :
    (Program.perform call : Program Ans ε _).Matches L (fun later => L.answers later call call') stage
      (Program.perform call') := by
  refine .await called fun later answer answer' more answered => ?_
  cases answered with
  | rejected error => exact .fail
  | answered alike => exact .done alike

/-- A program whose calls are like only themselves, and answered alike only with the same. -/
theorem self {allowed : Call → Prop} (plain : ∀ stage call, allowed call → L.calls stage call call ∧
      ∀ answer answer', L.answers stage call call answer answer' → answer = answer') {body : Program Ans ε α}
    (only : body.Only allowed) (stage : ι) : body.Mimics L stage body := by
  induction body generalizing stage with
  | done value => exact .done rfl
  | fail error => exact .fail
  | clock rest ih => exact .clock fun now => ih now (only now) stage
  | draw rest ih => exact .draw fun nonce => ih nonce (only nonce) stage
  | await call rest ih =>
    refine .await (plain stage call only.1).1 fun later answer answer' more answered => ?_
    cases answered with
    | rejected error => exact ih _ (only.2 _) later
    | answered alike =>
      rw [← (plain later call only.1).2 _ _ alike]
      exact ih _ (only.2 _) later

theorem mono {body body' : Program Ans ε α} (mimics : body.Mimics L stage body') (more : stage ≤ later) :
    body.Mimics L later body' := by
  induction mimics generalizing later with
  | done same => exact .done same
  | fail => exact .fail
  | clock _ ih => exact .clock fun now => ih now more
  | draw _ ih => exact .draw fun nonce => ih nonce more
  | await called goesOn =>
    exact .await (L.calls_mono more called) fun last answer answer' further =>
      goesOn last answer answer' (le_trans more further)

theorem settle {body body' : Program Ans ε α} (mimics : body.Mimics L stage body') (now request drawn : Nat) :
    (body.settle now request drawn).1.Mimics L stage (body'.settle now request drawn).1 ∧
      (body'.settle now request drawn).2 = (body.settle now request drawn).2 := by
  induction mimics generalizing drawn with
  | done same => exact ⟨same, rfl⟩
  | fail => exact ⟨rfl, rfl⟩
  | clock _ ih => exact ih now drawn
  | draw _ ih => exact ih ⟨request, drawn⟩ (drawn + 1)
  | await called goesOn => exact ⟨.await called goesOn, rfl⟩

end Program.Matches

theorem Suspended.Mimics.mono {state state' : Suspended Ans ε α} (mimics : state.Mimics L stage state')
    (more : stage ≤ later) : state.Mimics L later state' := by
  cases state <;> cases state' <;> first | exact mimics | exact Program.Matches.mono mimics more

theorem Suspended.Mimics.awaiting {state : Suspended Ans ε α} {call' : Call}
    {rest' : Except ε (Ans call') → Program Ans ε α}
    (mimics : state.Mimics L stage (.awaiting call' rest')) : ∃ call rest, state = .awaiting call rest ∧
      L.calls stage call call' ∧ ∀ later answer answer', stage ≤ later →
        L.Answered later call call' answer answer' →
        (rest answer).Mimics L later (rest' answer') := by
  cases state with
  | returned value => exact mimics.elim
  | threw error => exact mimics.elim
  | awaiting call rest =>
    cases mimics with
    | await called goesOn => exact ⟨call, rest, rfl, called, goesOn⟩

theorem Entry.Mimics.mono {entry entry' : Entry Ans ε} (more : stage ≤ later)
    (mimics : entry.Mimics L stage entry') :
    entry.Mimics L later entry' :=
  ⟨mimics.request, L.calls_mono more mimics.called, mimics.answered.mono more, mimics.time⟩

theorem Thread.Mimics.mono {thread thread' : Thread Ans ε Req Res} (more : stage ≤ later)
    (mimics : thread.Mimics L stage thread') : thread.Mimics L later thread' :=
  ⟨mimics.request, mimics.drawn, mimics.state.mono more⟩

theorem forall₂_set {T : α → β → Prop} {xs : List α} {ys : List β} (related : List.Forall₂ T xs ys) {x : α} {y : β}
    (same : T x y) (index : Nat) : List.Forall₂ T (xs.set index x) (ys.set index y) := by
  induction related generalizing index with
  | nil => exact .nil
  | cons head tail ih =>
    cases index with
    | zero => exact .cons same tail
    | succ index => exact .cons head (ih index)

end

/-- The second system follows the first up to the time `horizon`: its requests make like calls, and its surroundings
answer them alike, whatever state the first one has reached. -/
structure System.Follows (L : Likeness Ans ι) (holds : ι → σ → List (Entry Ans ε) → τ → Prop)
    (S : System Ans ε Req Res σ χ Change) (S' : System Ans ε Req Res τ χ Change) (start : Config Ans ε Req Res σ)
    (horizon : Nat) : Prop where
  bodies : ∀ stage request, (S.body request).Mimics L stage (S'.body request)
  performed : ∀ {cfg stage state index thread call rest call'} (choice : χ), S.Reach anyEvent start cfg →
    cfg.clock ≤ horizon → cfg.threads[index]? = some thread → thread.state = .awaiting call rest →
    L.calls stage call call' → holds stage cfg.shared cfg.log state →
    let answered := S.perform choice cfg.clock index call cfg.shared
    let answered' := S'.perform choice cfg.clock index call' state
    ∃ later, stage ≤ later ∧ L.Answered later call call' answered.1 answered'.1 ∧
      holds later answered.2 (cfg.log ++ [⟨index, call, answered.1, cfg.clock⟩]) answered'.2
  disturbed : ∀ {stage shared log state} (change : Change) (now : Nat), holds stage shared log state →
    ∃ later, stage ≤ later ∧ holds later (S.disturb change now shared) log (S'.disturb change now state)

namespace System.Follows
variable {L : Likeness Ans ι} {holds : ι → σ → List (Entry Ans ε) → τ → Prop} {S : System Ans ε Req Res σ χ Change}
  {S' : System Ans ε Req Res τ χ Change} {start cfg : Config Ans ε Req Res σ} {cfg' next' : Config Ans ε Req Res τ}
  {horizon : Nat} {stage : ι}

/-- Whatever the second system does next, the first does it too. -/
theorem advance (follows : System.Follows L holds S S' start horizon) (reach : S.Reach anyEvent start cfg)
    (mimics : cfg.Mimics L holds stage cfg') (within : cfg'.clock ≤ horizon) {event : Event Req χ Change}
    (step : S'.advance cfg' event = some next') :
    ∃ next later, S.advance cfg event = some next ∧ stage ≤ later ∧ next.Mimics L holds later next' := by
  obtain ⟨clock, shared, threads, log⟩ := mimics
  rcases System.advance_cases step with ⟨delay, rfl, rfl⟩ | ⟨change, rfl, rfl⟩ | ⟨request, rfl, rfl⟩ |
    ⟨index, choice, thread', call', rest', rfl, found', waiting', rfl⟩
  · exact ⟨_, stage, rfl, le_rfl, congrArg (· + delay) clock, shared, threads, log⟩
  · obtain ⟨later, more, holds⟩ := follows.disturbed change cfg.clock shared
    exact ⟨_, later, rfl, more, clock, clock ▸ holds, threads.imp fun _ _ => .mono more,
      log.imp fun _ _ => .mono more⟩
  · refine ⟨_, stage, rfl, le_rfl, clock, shared, ?_, log⟩
    obtain ⟨state, drawn⟩ := (follows.bodies stage request).settle cfg.clock cfg.threads.length 0
    simp only [System.arrive, clock, ← threads.length_eq]
    exact List.rel_append threads (.cons ⟨rfl, drawn, state⟩ .nil)
  · have place := Sql.getElem?_related threads index
    rw [found'] at place
    generalize found : cfg.threads[index]? = atIndex at place
    cases place with
    | @some thread _ same =>
      have state := same.state
      rw [waiting'] at state
      obtain ⟨call, rest, waiting, called, goesOn⟩ := state.awaiting
      obtain ⟨later, more, answered, after⟩ :=
        follows.performed choice reach (clock ▸ within) found waiting called shared
      obtain ⟨settled, drawn⟩ := (goesOn later _ _ more answered).settle cfg.clock index thread.drawn
      refine ⟨_, later, System.advance_resume choice found waiting, more, ?_⟩
      simp only [System.resume, clock, same.request, same.drawn]
      refine ⟨rfl, after, ?_, ?_⟩
      · exact forall₂_set (threads.imp fun _ _ => .mono more) ⟨rfl, drawn, settled⟩ index
      · exact List.rel_append (log.imp fun _ _ => .mono more)
          (.cons ⟨rfl, L.calls_mono more called, answered, rfl⟩ .nil)

/-- Whatever the second system does in a run, the first one does in a run of its own under the same events. -/
theorem run (follows : System.Follows L holds S S' start horizon) (reach : S.Reach anyEvent start cfg)
    (mimics : cfg.Mimics L holds stage cfg') {events : List (Event Req χ Change)} {last' : Config Ans ε Req Res τ}
    (ran : S'.run cfg' events = some last') (within : last'.clock ≤ horizon) :
    ∃ last later, S.run cfg events = some last ∧ stage ≤ later ∧ last.Mimics L holds later last' := by
  induction events generalizing cfg cfg' stage with
  | nil =>
    cases Option.some.inj ran
    exact ⟨cfg, stage, rfl, le_rfl, mimics⟩
  | cons event events ih =>
    obtain ⟨next', step', rest'⟩ := Option.bind_eq_some_iff.mp ran
    have early : cfg'.clock ≤ horizon := by
      have begun : S'.Reach anyEvent cfg' last' := System.Reach.of_run .start (fun _ _ _ => trivial) ran
      exact Nat.le_trans begun.clock_le within
    obtain ⟨next, later, step, more, middle⟩ := follows.advance reach mimics early step'
    obtain ⟨last, latest, rest, further, mimics⟩ := ih (reach.next trivial step) middle rest'
    refine ⟨last, latest, ?_, le_trans more further, mimics⟩
    rw [System.run, step]
    exact rest

end System.Follows

/-- A run in one instant, where the calls are answered with the same and leave related states. -/
theorem Program.eval_follows {answer : (call : Call) → σ → Except ε (Ans call) × σ}
    {answer' : (call : Call) → τ → Except ε (Ans call) × τ} (holds : ι → σ → τ → Prop)
    (performed : ∀ {stage state state'} (call : Call), holds stage state state' →
      ∃ later, stage ≤ later ∧ (answer' call state').1 = (answer call state).1 ∧
        holds later (answer call state).2 (answer' call state').2) (body : Program Ans ε α)
    (now request drawn : Nat) {stage : ι} {state : σ} {state' : τ} (start : holds stage state state') :
    let outcome := body.eval answer now request drawn state
    let outcome' := body.eval answer' now request drawn state'
    outcome'.result = outcome.result ∧ ∃ later, stage ≤ later ∧ holds later outcome.state outcome'.state := by
  induction body generalizing drawn stage state state' with
  | done value => exact ⟨rfl, stage, le_rfl, start⟩
  | fail error => exact ⟨rfl, stage, le_rfl, start⟩
  | clock rest ih => exact ih now drawn start
  | draw rest ih => exact ih ⟨request, drawn⟩ (drawn + 1) start
  | await call rest ih =>
    obtain ⟨later, more, same, after⟩ := performed call start
    simp only [Program.eval, same]
    obtain ⟨result, last, further, holds⟩ := ih _ drawn after
    exact ⟨result, last, le_trans more further, holds⟩

end Async
