import Mathlib.Data.List.Basic
import KeycloakAuth.Async.Program

namespace Async

/-- Requests served concurrently over one shared state. `perform` answers one awaited call at one
clock reading, with a choice left to the surroundings; `disturb` is what they do on their own. -/
structure System {Call : Type} (Ans : Call → Type) (ε Req Res σ χ δ : Type) where
  body : Req → Program Ans ε Res
  perform : χ → (now request : Nat) → (call : Call) → σ → Except ε (Ans call) × σ
  disturb : δ → (now : Nat) → σ → σ

/-- A request being served, with the number of random values it has drawn. -/
structure Thread {Call : Type} (Ans : Call → Type) (ε Req Res : Type) where
  request : Req
  drawn : Nat
  state : Suspended Ans ε Res

structure Config {Call : Type} (Ans : Call → Type) (ε Req Res σ : Type) where
  clock : Nat
  shared : σ
  threads : List (Thread Ans ε Req Res)
  log : List (Entry Ans ε)

inductive Event (Req χ δ : Type) : Type
  | tick (delay : Nat)
  | disturb (change : δ)
  | arrive (request : Req)
  | resume (thread : Nat) (choice : χ)

variable {Call : Type} {Ans : Call → Type} {ε Req Res σ χ δ : Type}

def Config.start (clock : Nat) (shared : σ) : Config Ans ε Req Res σ := ⟨clock, shared, [], []⟩

def Config.history (cfg : Config Ans ε Req Res σ) (thread : Nat) : List (Entry Ans ε) :=
  cfg.log.filter (·.request = thread)

/-- The call that a request is waiting for. -/
def Config.awaited (cfg : Config Ans ε Req Res σ) (thread : Nat) : Option Call :=
  cfg.threads[thread]?.bind fun thread =>
    match thread.state.view with
    | .awaiting call => some call
    | _ => none

/-- No request is being served. -/
def Config.Quiet (cfg : Config Ans ε Req Res σ) : Prop :=
  ∀ thread ∈ cfg.threads, thread.state.finished = true

namespace System
variable (S : System Ans ε Req Res σ χ δ)

def arrive (cfg : Config Ans ε Req Res σ) (request : Req) : Config Ans ε Req Res σ :=
  let settled := (S.body request).settle cfg.clock cfg.threads.length 0
  { cfg with threads := cfg.threads ++ [⟨request, settled.2, settled.1⟩] }

/-- One atomic step of a waiting thread: its call takes effect, is answered and logged, and the thread
runs on to its next call at the same clock reading. -/
def resume (cfg : Config Ans ε Req Res σ) (index : Nat) (thread : Thread Ans ε Req Res) (call : Call)
    (rest : Except ε (Ans call) → Program Ans ε Res) (choice : χ) : Config Ans ε Req Res σ :=
  let answered := S.perform choice cfg.clock index call cfg.shared
  let settled := (rest answered.1).settle cfg.clock index thread.drawn
  { cfg with
    shared := answered.2
    threads := cfg.threads.set index ⟨thread.request, settled.2, settled.1⟩
    log := cfg.log ++ [⟨index, call, answered.1, cfg.clock⟩] }

def advance (cfg : Config Ans ε Req Res σ) : Event Req χ δ → Option (Config Ans ε Req Res σ)
  | .tick delay => some { cfg with clock := cfg.clock + delay }
  | .disturb change => some { cfg with shared := S.disturb change cfg.clock cfg.shared }
  | .arrive request => some (S.arrive cfg request)
  | .resume index choice =>
    match cfg.threads[index]? with
    | some ⟨request, drawn, .awaiting call rest⟩ =>
      some (S.resume cfg index ⟨request, drawn, .awaiting call rest⟩ call rest choice)
    | _ => none

def run (cfg : Config Ans ε Req Res σ) : List (Event Req χ δ) → Option (Config Ans ε Req Res σ)
  | [] => some cfg
  | event :: events => (S.advance cfg event).bind fun next => run next events

/-- Every event can happen, and is permitted where it happens. -/
def allows (permitted : Config Ans ε Req Res σ → Event Req χ δ → Prop)
    [∀ cfg event, Decidable (permitted cfg event)]
    (cfg : Config Ans ε Req Res σ) : List (Event Req χ δ) → Bool
  | [] => true
  | event :: events =>
    permitted cfg event && (S.advance cfg event).any fun next => allows permitted next events

/-- Configurations reached from `initial` by events that are all `permitted` where they happen. -/
inductive Reach (permitted : Config Ans ε Req Res σ → Event Req χ δ → Prop)
    (initial : Config Ans ε Req Res σ) : Config Ans ε Req Res σ → Prop
  | start : Reach permitted initial initial
  | next {cfg next event} : Reach permitted initial cfg → permitted cfg event →
      S.advance cfg event = some next → Reach permitted initial next

end System

/-- Everything is permitted. -/
def anyEvent (_ : Config Ans ε Req Res σ) (_ : Event Req χ δ) : Prop := True

namespace System
variable {S : System Ans ε Req Res σ χ δ} {permitted : Config Ans ε Req Res σ → Event Req χ δ → Prop}
  {initial cfg next : Config Ans ε Req Res σ} {clock : Nat} {shared : σ}

/-- What one event can do. -/
theorem advance_cases {event : Event Req χ δ} (step : S.advance cfg event = some next) :
    (∃ delay, event = .tick delay ∧ next = { cfg with clock := cfg.clock + delay }) ∨
    (∃ change, event = .disturb change ∧ next = { cfg with shared := S.disturb change cfg.clock cfg.shared }) ∨
    (∃ request, event = .arrive request ∧ next = S.arrive cfg request) ∨
    (∃ index choice thread call rest, event = .resume index choice ∧ cfg.threads[index]? = some thread ∧
      thread.state = .awaiting call rest ∧ next = S.resume cfg index thread call rest choice) := by
  cases event with
  | tick delay => exact .inl ⟨delay, rfl, (Option.some.inj step).symm⟩
  | disturb change => exact .inr (.inl ⟨change, rfl, (Option.some.inj step).symm⟩)
  | arrive request => exact .inr (.inr (.inl ⟨request, rfl, (Option.some.inj step).symm⟩))
  | resume index choice =>
    simp only [advance] at step
    split at step
    · rename_i request drawn call rest found
      exact .inr (.inr (.inr ⟨index, choice, _, call, rest, rfl, found, rfl, (Option.some.inj step).symm⟩))
    · simp at step

theorem advance_resume {index : Nat} {thread : Thread Ans ε Req Res} {call : Call}
    {rest : Except ε (Ans call) → Program Ans ε Res} (choice : χ)
    (found : cfg.threads[index]? = some thread) (waiting : thread.state = .awaiting call rest) :
    S.advance cfg (.resume index choice) = some (S.resume cfg index thread call rest choice) := by
  obtain ⟨request, drawn, state⟩ := thread
  subst waiting
  simp only [advance, found]

theorem Reach.trans {middle : Config Ans ε Req Res σ} (first : S.Reach permitted initial middle)
    (second : S.Reach permitted middle cfg) : S.Reach permitted initial cfg := by
  induction second with
  | start => exact first
  | next _ allowed step ih => exact .next ih allowed step

theorem Reach.mono {wider : Config Ans ε Req Res σ → Event Req χ δ → Prop}
    (wide : ∀ cfg event, permitted cfg event → wider cfg event) (reach : S.Reach permitted initial cfg) :
    S.Reach wider initial cfg := by
  induction reach with
  | start => exact .start
  | next _ allowed step ih => exact .next ih (wide _ _ allowed) step

theorem Reach.any (reach : S.Reach permitted initial cfg) : S.Reach anyEvent initial cfg :=
  reach.mono fun _ _ _ => trivial

/-- A run of permitted events as computed by `run` is a reached configuration. -/
theorem Reach.of_run {events : List (Event Req χ δ)} (reach : S.Reach permitted initial cfg)
    (each : ∀ event ∈ events, ∀ cfg, permitted cfg event) (ran : S.run cfg events = some next) :
    S.Reach permitted initial next := by
  induction events generalizing cfg with
  | nil => exact Option.some.inj ran ▸ reach
  | cons event events ih =>
    obtain ⟨middle, step, rest⟩ := Option.bind_eq_some_iff.mp ran
    have first := each event List.mem_cons_self cfg
    exact ih (.next reach first step) (fun event member => each event (List.mem_cons_of_mem _ member)) rest

/-- The same for a condition that depends on where the events happen. -/
theorem Reach.of_allows [∀ cfg event, Decidable (permitted cfg event)] {events : List (Event Req χ δ)}
    (reach : S.Reach permitted initial cfg) (allowed : S.allows permitted cfg events = true) :
    ∃ next, S.run cfg events = some next ∧ S.Reach permitted initial next := by
  induction events generalizing cfg with
  | nil => exact ⟨cfg, rfl, reach⟩
  | cons event events ih =>
    simp only [allows, Bool.and_eq_true, decide_eq_true_eq, Option.any_eq_true] at allowed
    obtain ⟨fine, middle, step, rest⟩ := allowed
    obtain ⟨next, ran, reached⟩ := ih (.next reach fine step) rest
    exact ⟨next, by rw [run, step]; exact ran, reached⟩

theorem awaited_eq_some {index : Nat} {call : Call} : cfg.awaited index = some call ↔
    ∃ thread rest, cfg.threads[index]? = some thread ∧ thread.state = .awaiting call rest := by
  rw [Config.awaited, Option.bind_eq_some_iff]
  constructor
  · rintro ⟨⟨request, drawn, state⟩, found, waits⟩
    cases state with
    | awaiting other rest =>
      obtain rfl := Option.some.inj waits
      exact ⟨_, rest, found, rfl⟩
    | _ => cases waits
  · rintro ⟨thread, rest, found, waiting⟩
    exact ⟨thread, found, by rw [waiting]; rfl⟩

theorem awaited_resume_other {index other : Nat} {thread : Thread Ans ε Req Res} {call : Call}
    {rest : Except ε (Ans call) → Program Ans ε Res} {choice : χ} (different : index ≠ other) :
    (S.resume cfg index thread call rest choice).awaited other = cfg.awaited other := by
  simp only [Config.awaited, resume, List.getElem?_set_ne different]

/-- If nothing was being served at the start, whatever is being served has arrived since. -/
theorem Reach.arrived (reach : S.Reach permitted initial cfg) (quiet : initial.Quiet) (arrives : Req → Prop)
    (only : ∀ cfg request, permitted cfg (.arrive request) → arrives request) {index : Nat}
    {thread : Thread Ans ε Req Res} (found : cfg.threads[index]? = some thread)
    (active : thread.state.finished = false) : arrives thread.request := by
  induction reach generalizing index thread with
  | start => simp [quiet thread (List.mem_of_getElem? found)] at active
  | @next before after event previous allowed step ih =>
    rcases advance_cases step with ⟨_, _, rfl⟩ | ⟨_, _, rfl⟩ | ⟨request, rfl, rfl⟩ |
      ⟨running, choice, old, call, rest, rfl, at_running, waiting, rfl⟩
    · exact ih found active
    · exact ih found active
    · rcases List.mem_append.mp (List.mem_of_getElem? found) with earlier | last
      · obtain ⟨position, at_position⟩ := List.mem_iff_getElem?.mp earlier
        exact ih at_position active
      · rw [List.mem_singleton.mp last]
        exact only before request allowed
    · by_cases own : running = index
      · subst own
        have bound := (List.getElem?_eq_some_iff.mp at_running).1
        cases Option.some.inj ((List.getElem?_set_self bound).symm.trans found)
        have active : old.state.finished = false := by rw [waiting]; rfl
        have held := ih at_running active
        exact held
      · exact ih ((List.getElem?_set_ne own).symm.trans found) active

theorem advance_log {event : Event Req χ δ} (step : S.advance cfg event = some next) : cfg.log <+: next.log := by
  rcases advance_cases step with ⟨_, _, rfl⟩ | ⟨_, _, rfl⟩ | ⟨_, _, rfl⟩ | ⟨_, _, _, _, _, _, _, _, rfl⟩
  · exact List.prefix_rfl
  · exact List.prefix_rfl
  · exact List.prefix_rfl
  · exact List.prefix_append _ _

theorem Reach.log_prefix (reach : S.Reach permitted initial cfg) : initial.log <+: cfg.log := by
  induction reach with
  | start => exact List.prefix_rfl
  | next _ _ step ih => exact ih.trans (advance_log step)

theorem Reach.clock_le (reach : S.Reach permitted initial cfg) : initial.clock ≤ cfg.clock := by
  induction reach with
  | start => exact Nat.le_refl _
  | next _ _ step ih =>
    rcases advance_cases step with ⟨_, _, rfl⟩ | ⟨_, _, rfl⟩ | ⟨_, _, rfl⟩ | ⟨_, _, _, _, _, _, _, _, rfl⟩
    · exact Nat.le_trans ih (Nat.le_add_right _ _)
    · exact ih
    · exact ih
    · exact ih

theorem Reach.request_kept (reach : S.Reach permitted initial cfg) {index : Nat} {thread : Thread Ans ε Req Res}
    (found : initial.threads[index]? = some thread) :
    ∃ later, cfg.threads[index]? = some later ∧ later.request = thread.request := by
  induction reach with
  | start => exact ⟨thread, found, rfl⟩
  | next _ _ step ih =>
    obtain ⟨later, atIndex, same⟩ := ih
    rcases advance_cases step with ⟨_, _, rfl⟩ | ⟨_, _, rfl⟩ | ⟨_, _, rfl⟩ |
      ⟨active, choice, running, call, rest, rfl, atActive, waiting, rfl⟩
    · exact ⟨later, atIndex, same⟩
    · exact ⟨later, atIndex, same⟩
    · exact ⟨later, List.getElem?_append_left (List.getElem?_eq_some_iff.mp atIndex).1 ▸ atIndex, same⟩
    · by_cases own : active = index
      · subst own
        cases Option.some.inj (atIndex.symm.trans atActive)
        exact ⟨_, List.getElem?_set_self (List.getElem?_eq_some_iff.mp atIndex).1, same⟩
      · exact ⟨later, (List.getElem?_set_ne own).trans atIndex, same⟩

/-- A request that has ended stays as it is. -/
theorem Reach.finished_kept (reach : S.Reach permitted initial cfg) {index : Nat} {thread : Thread Ans ε Req Res}
    (found : initial.threads[index]? = some thread) (ended : thread.state.finished = true) :
    cfg.threads[index]? = some thread := by
  induction reach with
  | start => exact found
  | next _ _ step ih =>
    rcases advance_cases step with ⟨_, _, rfl⟩ | ⟨_, _, rfl⟩ | ⟨_, _, rfl⟩ |
      ⟨active, choice, running, call, rest, rfl, atActive, waiting, rfl⟩
    · exact ih
    · exact ih
    · exact List.getElem?_append_left (List.getElem?_eq_some_iff.mp ih).1 ▸ ih
    · by_cases own : active = index
      · subst own
        cases Option.some.inj (ih.symm.trans atActive)
        rw [waiting] at ended
        cases ended
      · exact (List.getElem?_set_ne own).trans ih

/-- The step in which a request ends is its own, unless it ends as it arrives. -/
theorem advance_ends {event : Event Req χ δ} (step : S.advance cfg event = some next) {index : Nat}
    {thread : Thread Ans ε Req Res} (found : next.threads[index]? = some thread)
    (ended : thread.state.finished = true)
    (running : ∀ old, cfg.threads[index]? = some old → old.state.finished = false) :
    (index = cfg.threads.length ∧ next.log = cfg.log) ∨
    ∃ choice old call rest, event = .resume index choice ∧ cfg.threads[index]? = some old ∧
      old.state = .awaiting call rest ∧ old.request = thread.request ∧
      next = S.resume cfg index old call rest choice := by
  have same (unchanged : cfg.threads[index]? = some thread) : False := by
    rw [running thread unchanged] at ended
    cases ended
  rcases advance_cases step with ⟨_, _, rfl⟩ | ⟨_, _, rfl⟩ | ⟨request, _, rfl⟩ |
    ⟨active, choice, old, call, rest, rfl, atActive, waiting, rfl⟩
  · exact (same found).elim
  · exact (same found).elim
  · left
    simp only [arrive, List.getElem?_append] at found
    split at found
    · exact (same found).elim
    · have bound := (List.getElem?_eq_some_iff.mp found).1
      simp only [List.length_singleton] at bound
      exact ⟨by omega, rfl⟩
  · by_cases own : active = index
    · subst own
      have next := (List.getElem?_set_self (List.getElem?_eq_some_iff.mp atActive).1).symm.trans found
      cases Option.some.inj next
      exact .inr ⟨choice, old, call, rest, rfl, atActive, waiting, rfl, rfl⟩
    · exact (same ((List.getElem?_set_ne own).symm.trans found)).elim

/-- An invariant of the shared state and the log: it only has to survive a disturbance and the answer
to one pending call. -/
theorem Reach.invariant (reach : S.Reach permitted initial cfg) (holds : σ → List (Entry Ans ε) → Prop)
    (start : holds initial.shared initial.log)
    (disturbed : ∀ change now shared log, holds shared log → holds (S.disturb change now shared) log)
    (performed : ∀ cfg index (thread : Thread Ans ε Req Res) call rest choice,
      S.Reach permitted initial cfg → cfg.threads[index]? = some thread →
      thread.state = .awaiting call rest → permitted cfg (.resume index choice) →
      holds cfg.shared cfg.log →
      holds (S.perform choice cfg.clock index call cfg.shared).2
        (cfg.log ++ [⟨index, call, (S.perform choice cfg.clock index call cfg.shared).1, cfg.clock⟩])) :
    holds cfg.shared cfg.log := by
  induction reach with
  | start => exact start
  | @next before after event previous allowed step ih =>
    rcases advance_cases step with ⟨_, _, rfl⟩ | ⟨change, _, rfl⟩ | ⟨_, _, rfl⟩ |
      ⟨index, choice, thread, call, rest, rfl, found, waiting, rfl⟩
    · exact ih
    · exact disturbed change _ _ _ ih
    · exact ih
    · exact performed before index thread call rest choice previous found waiting allowed ih

theorem split_at {α : Type} {xs : List α} {index : Nat} {value : α} (found : xs[index]? = some value) :
    xs = xs.take index ++ value :: xs.drop (index + 1) := by
  obtain ⟨bound, rfl⟩ := List.getElem?_eq_some_iff.mp found
  rw [← List.drop_eq_getElem_cons bound, List.take_append_drop]

theorem mem_take {α : Type} {xs : List α} {index : Nat} {value : α} :
    value ∈ xs.take index ↔ ∃ earlier < index, xs[earlier]? = some value := by
  rw [List.mem_iff_getElem?]
  constructor
  · intro early
    obtain ⟨earlier, found⟩ := early
    rw [List.getElem?_take] at found
    split at found
    · exact ⟨earlier, by assumption, found⟩
    · cases found
  · intro early
    obtain ⟨earlier, bound, found⟩ := early
    exact ⟨earlier, by rw [List.getElem?_take, if_pos bound]; exact found⟩

/-- What holds of every answer when it is logged, given the request it answers and the log so far, holds
of every entry of the log and those before it. -/
theorem Reach.justified (reach : S.Reach permitted (.start clock shared) cfg)
    (holds : Req → List (Entry Ans ε) → Entry Ans ε → Prop)
    (each : ∀ cfg index (thread : Thread Ans ε Req Res) call rest choice,
      S.Reach permitted (.start clock shared) cfg → cfg.threads[index]? = some thread →
      thread.state = .awaiting call rest → permitted cfg (.resume index choice) →
      holds thread.request cfg.log
        ⟨index, call, (S.perform choice cfg.clock index call cfg.shared).1, cfg.clock⟩)
    {before after : List (Entry Ans ε)} {entry : Entry Ans ε} (split : cfg.log = before ++ entry :: after) :
    ∃ thread, cfg.threads[entry.request]? = some thread ∧ holds thread.request before entry := by
  induction reach generalizing before entry after with
  | start => simp [Config.start] at split
  | @next previous following event reach allowed step ih =>
    rcases advance_cases step with ⟨_, _, rfl⟩ | ⟨_, _, rfl⟩ | ⟨_, _, rfl⟩ |
      ⟨index, choice, thread, call, rest, rfl, found, waiting, rfl⟩
    · exact ih split
    · exact ih split
    · obtain ⟨thread, found, held⟩ := ih split
      exact ⟨thread, List.getElem?_append_left (List.getElem?_eq_some_iff.mp found).1 ▸ found, held⟩
    · have bound := (List.getElem?_eq_some_iff.mp found).1
      rcases List.eq_nil_or_concat after with rfl | ⟨init, last, rfl⟩
      · obtain ⟨sameLog, sameEntry⟩ := List.append_inj' split rfl
        cases sameLog
        cases sameEntry
        exact ⟨_, List.getElem?_set_self bound,
          each previous index thread call rest choice reach found waiting allowed⟩
      · rw [List.concat_eq_append, ← List.cons_append, ← List.append_assoc] at split
        obtain ⟨other, at_other, held⟩ := ih (List.append_inj' split rfl).1
        by_cases own : index = entry.request
        · subst own
          cases Option.some.inj (found.symm.trans at_other)
          exact ⟨_, List.getElem?_set_self bound, held⟩
        · exact ⟨other, (List.getElem?_set_ne own).trans at_other, held⟩

/-- The same where the request does not matter. -/
theorem Reach.justified_entry (reach : S.Reach permitted (.start clock shared) cfg)
    (holds : List (Entry Ans ε) → Entry Ans ε → Prop)
    (each : ∀ cfg index (thread : Thread Ans ε Req Res) call rest choice,
      S.Reach permitted (.start clock shared) cfg → cfg.threads[index]? = some thread →
      thread.state = .awaiting call rest → permitted cfg (.resume index choice) →
      holds cfg.log ⟨index, call, (S.perform choice cfg.clock index call cfg.shared).1, cfg.clock⟩)
    {before after : List (Entry Ans ε)} {entry : Entry Ans ε} (split : cfg.log = before ++ entry :: after) :
    holds before entry := by
  obtain ⟨_, _, held⟩ := reach.justified (fun _ => holds) each split
  exact held

theorem mem_ownEntries {log : List (Entry Ans ε)} {thread : Nat} {entry : Entry Ans ε} :
    entry ∈ log.filter (·.request = thread) ↔ entry ∈ log ∧ entry.request = thread := by simp

theorem mem_history {cfg : Config Ans ε Req Res σ} {thread : Nat} {entry : Entry Ans ε} :
    entry ∈ cfg.history thread ↔ entry ∈ cfg.log ∧ entry.request = thread := by
  simp [Config.history]

theorem Reach.request_lt (reach : S.Reach permitted (.start clock shared) cfg) :
    ∀ entry ∈ cfg.log, entry.request < cfg.threads.length := by
  induction reach with
  | start => simp [Config.start]
  | @next before after event previous allowed step ih =>
    rcases advance_cases step with ⟨_, _, rfl⟩ | ⟨_, _, rfl⟩ | ⟨_, _, rfl⟩ |
      ⟨index, choice, thread, call, rest, rfl, found, waiting, rfl⟩
    · exact ih
    · exact ih
    · intro entry member
      have bound := ih entry member
      simp only [arrive, List.length_append, List.length_singleton]
      omega
    · intro entry member
      simp only [resume, List.length_set]
      rcases List.mem_append.mp member with old | new
      · exact ih entry old
      · rw [List.mem_singleton.mp new]
        exact (List.getElem?_eq_some_iff.mp found).1

/-- The next request to arrive has made no call yet. -/
theorem Reach.history_fresh (reach : S.Reach permitted (.start clock shared) cfg) :
    cfg.history cfg.threads.length = [] := by
  refine List.filter_eq_nil_iff.mpr fun entry member => ?_
  have bound := reach.request_lt entry member
  simp only [decide_eq_true_eq]
  omega

/-- What a request does that has arrived after `cfg` stands behind the log of `cfg`. -/
theorem Reach.entry_after {wider : Config Ans ε Req Res σ → Event Req χ δ → Prop} {final : Config Ans ε Req Res σ}
    (reach : S.Reach permitted (.start clock shared) cfg) (later : S.Reach wider cfg final) {index : Nat}
    {entry : Entry Ans ε} (found : final.log[index]? = some entry) (arrived : cfg.threads.length ≤ entry.request) :
    cfg.log.length ≤ index := by
  by_contra early
  obtain ⟨more, extended⟩ := later.log_prefix
  rw [← extended, List.getElem?_append_left (Nat.not_le.mp early)] at found
  exact absurd (reach.request_lt entry (List.mem_of_getElem? found)) (Nat.not_lt.mpr arrived)

/-- The step that has written an entry of the log, and the run from there. -/
theorem Reach.step_at {final : Config Ans ε Req Res σ} (run : S.Reach permitted cfg final) {index : Nat}
    {entry : Entry Ans ε} (found : final.log[index]? = some entry) (after : cfg.log.length ≤ index) :
    ∃ middle thread rest choice, S.Reach permitted cfg middle ∧ permitted middle (.resume entry.request choice) ∧
      middle.threads[entry.request]? = some thread ∧ thread.state = .awaiting entry.call rest ∧
      middle.log = final.log.take index ∧
      (S.perform choice middle.clock entry.request entry.call middle.shared).1 = entry.answer ∧
      S.Reach permitted (S.resume middle entry.request thread entry.call rest choice) final := by
  induction run with
  | start => exact absurd (List.getElem?_eq_some_iff.mp found).1 (Nat.not_lt.mpr after)
  | @next before next event previous allowed step ih =>
    rcases advance_cases step with ⟨_, _, rfl⟩ | ⟨_, _, rfl⟩ | ⟨_, _, rfl⟩ |
      ⟨active, choice, thread, call, rest, rfl, at_active, waiting, rfl⟩
    · obtain ⟨middle, thread, rest, choice, reach, fine, at_request, waiting, log, answer, later⟩ := ih found
      exact ⟨middle, thread, rest, choice, reach, fine, at_request, waiting, log, answer, later.next allowed step⟩
    · obtain ⟨middle, thread, rest, choice, reach, fine, at_request, waiting, log, answer, later⟩ := ih found
      exact ⟨middle, thread, rest, choice, reach, fine, at_request, waiting, log, answer, later.next allowed step⟩
    · obtain ⟨middle, thread, rest, choice, reach, fine, at_request, waiting, log, answer, later⟩ := ih found
      exact ⟨middle, thread, rest, choice, reach, fine, at_request, waiting, log, answer, later.next allowed step⟩
    · have bound := (List.getElem?_eq_some_iff.mp found).1
      simp only [resume, List.length_append, List.length_singleton] at bound
      by_cases earlier : index < before.log.length
      · simp only [resume, List.getElem?_append_left earlier] at found
        obtain ⟨middle, thread, rest, choice, reach, fine, at_request, waiting, log, answer, later⟩ := ih found
        refine ⟨middle, thread, rest, choice, reach, fine, at_request, waiting, ?_, answer, later.next allowed step⟩
        rw [log]
        exact (List.take_append_of_le_length (Nat.le_of_lt earlier)).symm
      · obtain rfl : index = before.log.length := by omega
        simp only [resume, List.getElem?_concat_length, Option.some.injEq] at found
        subst found
        exact ⟨before, thread, rest, choice, previous, allowed, at_active, waiting,
          by simp only [resume, List.take_left'], rfl, .start⟩

theorem Reach.time_le (reach : S.Reach permitted (.start clock shared) cfg) :
    ∀ entry ∈ cfg.log, entry.time ≤ cfg.clock := by
  induction reach with
  | start => simp [Config.start]
  | @next before after event previous allowed step ih =>
    rcases advance_cases step with ⟨_, _, rfl⟩ | ⟨_, _, rfl⟩ | ⟨_, _, rfl⟩ |
      ⟨index, choice, thread, call, rest, rfl, found, waiting, rfl⟩
    · exact fun entry member => Nat.le_trans (ih entry member) (Nat.le_add_right _ _)
    · exact ih
    · exact ih
    · intro entry member
      rcases List.mem_append.mp member with old | new
      · exact ih entry old
      · rw [List.mem_singleton.mp new]
        exact Nat.le_refl _

/-- Answers are logged in the order in which they are given. -/
theorem Reach.times_sorted (reach : S.Reach permitted (.start clock shared) cfg) :
    cfg.log.Pairwise (·.time ≤ ·.time) := by
  induction reach with
  | start => exact .nil
  | @next before after event previous allowed step ih =>
    rcases advance_cases step with ⟨_, _, rfl⟩ | ⟨_, _, rfl⟩ | ⟨_, _, rfl⟩ | ⟨_, _, _, _, _, _, _, _, rfl⟩
    · exact ih
    · exact ih
    · exact ih
    · refine List.pairwise_append.mpr ⟨ih, List.pairwise_singleton .., fun entry member last isLast => ?_⟩
      rw [List.mem_singleton.mp isLast]
      exact previous.time_le entry member

theorem resume_history_self (cfg : Config Ans ε Req Res σ) (index : Nat) (thread : Thread Ans ε Req Res)
    (call : Call) (rest : Except ε (Ans call) → Program Ans ε Res) (choice : χ) :
    (S.resume cfg index thread call rest choice).history index = cfg.history index ++
      [⟨index, call, (S.perform choice cfg.clock index call cfg.shared).1, cfg.clock⟩] := by
  simp [resume, Config.history]

theorem resume_history_other (cfg : Config Ans ε Req Res σ) {index other : Nat}
    (thread : Thread Ans ε Req Res) (call : Call) (rest : Except ε (Ans call) → Program Ans ε Res)
    (choice : χ) (different : index ≠ other) :
    (S.resume cfg index thread call rest choice).history other = cfg.history other := by
  simp [resume, Config.history, different]

/-- What holds along every request's own program, whatever it is answered, holds of every thread of a
concurrent run with the part of the log that the thread wrote. -/
theorem Reach.along {Φ : Nat → Req → List (Entry Ans ε) → View Call ε Res → Prop}
    (reach : S.Reach permitted (.start clock shared) cfg)
    (each : ∀ index request now, (S.body request).Along (Φ index request) index now 0 [])
    {index : Nat} {thread : Thread Ans ε Req Res} (found : cfg.threads[index]? = some thread) :
    thread.state.Along (Φ index thread.request) index cfg.clock thread.drawn (cfg.history index) := by
  induction reach generalizing index thread with
  | start => simp [Config.start] at found
  | @next before after event previous allowed step ih =>
    rcases advance_cases step with ⟨_, _, rfl⟩ | ⟨_, _, rfl⟩ | ⟨request, _, rfl⟩ |
      ⟨active, choice, running, call, rest, rfl, atActive, waiting, rfl⟩
    · exact (ih found).later (Nat.le_add_right _ _)
    · exact ih found
    · simp only [arrive, List.getElem?_append] at found
      split at found
      · exact ih found
      · rename_i beyond
        have last : index = before.threads.length := by
          have bound := (List.getElem?_eq_some_iff.mp found).1
          simp only [List.length_singleton] at bound
          omega
        subst last
        have fresh := previous.history_fresh
        simp only [Nat.sub_self, List.getElem?_cons_zero, Option.some.injEq] at found
        subst found
        change Suspended.Along _ _ _ _ (before.history _) _
        rw [fresh]
        exact (each _ _ _).settle
    · by_cases own : active = index
      · subst own
        have own := ih atActive
        rw [waiting] at own
        have same := (List.getElem?_set_self (List.getElem?_eq_some_iff.mp atActive).1).symm.trans found
        cases Option.some.inj same
        rw [resume_history_self]
        exact (own.2 _ _ (Nat.le_refl _)).settle
      · have kept : before.threads[index]? = some thread := by
          rw [← found]
          exact (List.getElem?_set_ne own).symm
        rw [resume_history_other before running call rest choice own]
        exact ih kept

/-- The visible form: a thread's own log and what it shows are related by `Φ`. -/
theorem Reach.view {Φ : Nat → Req → List (Entry Ans ε) → View Call ε Res → Prop}
    (reach : S.Reach permitted (.start clock shared) cfg)
    (each : ∀ index request now, (S.body request).Along (Φ index request) index now 0 [])
    {index : Nat} {thread : Thread Ans ε Req Res} (found : cfg.threads[index]? = some thread) :
    Φ index thread.request (cfg.history index) thread.state.view :=
  (reach.along each found).holds

end System

end Async
