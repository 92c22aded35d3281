import Mathlib.Data.List.Induction
import KeycloakAuth.Async.Interleaving

namespace Async
variable {Call : Type} {Ans : Call → Type} {ε Req Res σ χ δ : Type}

/-- A request that is carried out in one instant, and what it returns. -/
structure Taken (Req Res : Type) where
  thread : Nat
  time : Nat
  request : Req
  result : Res

def Event.request? : Event Req χ δ → Option Req
  | .arrive request => some request
  | _ => none

namespace System
variable (S : System Ans ε Req Res σ χ δ) (choice : χ)

/-- Requests are carried out one after the other, each at its instant, and return what they are said to. -/
inductive Legal (initial : σ) : List (Taken Req Res) → σ → Prop
  | start : Legal initial [] initial
  | next {order : List (Taken Req Res)} {shared after : σ} {taken : Taken Req Res} {drawn : Nat} :
      Legal initial order shared →
      (S.body taken.request).eval (fun call => S.perform choice taken.time taken.thread call)
        taken.time taken.thread 0 shared = ⟨.ok taken.result, drawn, after⟩ →
      Legal initial (order ++ [taken]) after

/-- An order of requests that have arrived by then, which says of each what it has returned by then. -/
structure Explains (order : List (Taken Req Res)) (cfg : Config Ans ε Req Res σ) : Prop where
  arrived : ∀ taken ∈ order, ∃ thread, cfg.threads[taken.thread]? = some thread ∧ thread.request = taken.request
  past : ∀ taken ∈ order, taken.time ≤ cfg.clock
  returned : ∀ index thread value, cfg.threads[index]? = some thread → thread.state = .returned value →
    ∃ taken ∈ order, taken.thread = index ∧ taken.result = value

/-- The run looks as if each request had been carried out at one instant between its arrival and its end: the
requests in that order leave the same state, and up to any point of the run the order so far explains what has
been returned. -/
structure Linearizes (initial : Config Ans ε Req Res σ) (events : List (Event Req χ δ))
    (cfg : Config Ans ε Req Res σ)
    (order : List (Taken Req Res)) : Prop where
  legal : S.Legal choice initial.shared order cfg.shared
  once : (order.map (·.thread)).Nodup
  explains : Explains order cfg
  meanwhile : ∀ before mid, before <+: events → S.run initial before = some mid →
    (∃ done, done <+: order ∧ Explains done mid) ∧
    ∀ taken ∈ order, mid.threads.length ≤ taken.thread → mid.clock ≤ taken.time

/-- When the requests have arrived, after one more event. -/
def bornAfter (cfg : Config Ans ε Req Res σ) (born : List Nat) : Event Req χ δ → List Nat
  | .arrive _ => born ++ [cfg.clock]
  | _ => born

/-- What is known of an order that grows with the run. -/
structure Tracks (initial : σ) (cfg : Config Ans ε Req Res σ) (born : List Nat)
    (order : List (Taken Req Res)) : Prop where
  legal : S.Legal choice initial order cfg.shared
  once : (order.map (·.thread)).Nodup
  explains : Explains order cfg
  since : ∀ taken ∈ order, ∀ time, born[taken.thread]? = some time → time ≤ taken.time

section
variable {S choice} {initial : Config Ans ε Req Res σ} {cfg next : Config Ans ε Req Res σ}

/-- The requests are numbered as they arrive. -/
theorem run_requests {events : List (Event Req χ δ)} (ran : S.run initial events = some cfg) :
    cfg.threads.map (·.request) = initial.threads.map (·.request) ++ events.filterMap Event.request? := by
  induction events generalizing initial with
  | nil =>
    cases ran
    exact (List.append_nil _).symm
  | cons event events ih =>
    obtain ⟨middle, step, rest⟩ := Option.bind_eq_some_iff.mp ran
    rw [ih rest]
    rcases advance_cases step with ⟨delay, rfl, rfl⟩ | ⟨change, rfl, rfl⟩ | ⟨request, rfl, rfl⟩ |
      ⟨index, choice, thread, call, left, rfl, found, -, rfl⟩
    · rfl
    · rfl
    · simp [arrive, Event.request?]
    · have same : (initial.threads.map (·.request)).set index thread.request = initial.threads.map (·.request) := by
        obtain ⟨bound, rfl⟩ := List.getElem?_eq_some_iff.mp found
        refine List.ext_getElem? fun other => ?_
        by_cases own : index = other
        · subst own
          simp [bound]
        · rw [List.getElem?_set_ne own]
      simp only [resume, List.map_set, same, Event.request?, List.filterMap_cons]

theorem run_append (cfg : Config Ans ε Req Res σ) (first second : List (Event Req χ δ)) :
    S.run cfg (first ++ second) = (S.run cfg first).bind fun mid => S.run mid second := by
  induction first generalizing cfg with
  | nil => rfl
  | cons event rest ih =>
    simp only [List.cons_append, run, ih]
    cases S.advance cfg event <;> rfl

theorem run_concat (cfg : Config Ans ε Req Res σ) (events : List (Event Req χ δ)) (event : Event Req χ δ) :
    S.run cfg (events ++ [event]) = (S.run cfg events).bind fun mid => S.advance mid event := by
  rw [run_append]
  congr 1
  funext mid
  cases step : S.advance mid event <;> simp [run, step]

theorem arrival {events : List (Event Req χ δ)} {index : Nat} {request : Req}
    (found : (events.filterMap Event.request?)[index]? = some request) :
    ∃ before after, events = before ++ .arrive request :: after ∧
      (before.filterMap Event.request?).length = index := by
  induction events generalizing index with
  | nil => simp at found
  | cons event events ih =>
    cases asks : event.request? with
    | none =>
      rw [List.filterMap_cons_none asks] at found
      obtain ⟨before, after, rfl, length⟩ := ih found
      exact ⟨event :: before, after, rfl, by rw [List.filterMap_cons_none asks, length]⟩
    | some other =>
      rw [List.filterMap_cons_some asks] at found
      cases index with
      | zero =>
        cases Option.some.inj found
        cases event with
        | arrive asked =>
          cases asks
          exact ⟨[], events, rfl, rfl⟩
        | tick delay => cases asks
        | disturb change => cases asks
        | resume thread choice => cases asks
      | succ index =>
        obtain ⟨before, after, rfl, length⟩ := ih (by simpa using found)
        exact ⟨event :: before, after, rfl, by rw [List.filterMap_cons_some asks, List.length_cons, length]⟩

/-- What was reached when a request arrived. -/
theorem run_arrival {events : List (Event Req χ δ)} (ran : S.run initial events = some cfg)
    (empty : initial.threads = []) {index : Nat} {thread : Thread Ans ε Req Res}
    (found : cfg.threads[index]? = some thread) :
    ∃ before mid, before ++ [.arrive thread.request] <+: events ∧ S.run initial before = some mid ∧
      mid.threads.length = index := by
  have requests := run_requests ran
  rw [empty, List.map_nil, List.nil_append] at requests
  obtain ⟨before, after, rfl, length⟩ := @arrival _ _ _ events index thread.request
    (by rw [← requests]; simp [found])
  rw [run_append] at ran
  obtain ⟨mid, reached, -⟩ := Option.bind_eq_some_iff.mp ran
  have counted := congrArg List.length (run_requests reached)
  rw [empty, List.map_nil, List.nil_append, List.length_map, length] at counted
  exact ⟨before, mid, ⟨after, by simp⟩, reached, counted⟩

theorem advance_clock {event : Event Req χ δ} (step : S.advance cfg event = some next) :
    cfg.clock ≤ next.clock := by
  rcases advance_cases step with ⟨delay, -, rfl⟩ | ⟨change, -, rfl⟩ | ⟨request, -, rfl⟩ |
    ⟨index, choice, thread, call, rest, -, -, -, rfl⟩
  · exact Nat.le_add_right _ _
  · exact Nat.le_refl _
  · exact Nat.le_refl _
  · exact Nat.le_refl _

theorem advance_length {event : Event Req χ δ} (step : S.advance cfg event = some next) {born : List Nat}
    (length : born.length = cfg.threads.length) : (bornAfter cfg born event).length = next.threads.length := by
  rcases advance_cases step with ⟨delay, rfl, rfl⟩ | ⟨change, rfl, rfl⟩ | ⟨request, rfl, rfl⟩ |
    ⟨index, choice, thread, call, rest, rfl, -, -, rfl⟩
  · exact length
  · exact length
  · simp [bornAfter, arrive, length]
  · simp [bornAfter, resume, length]

/-- What a request returned before another arrived was taken before the other. -/
theorem Linearizes.taken_before {events : List (Event Req χ δ)} {order before : List (Taken Req Res)}
    (linearizes : S.Linearizes choice initial events cfg order) {earlier : List (Event Req χ δ)}
    {mid : Config Ans ε Req Res σ} (first : earlier <+: events) (reached : S.run initial earlier = some mid)
    {taken : Taken Req Res} (place : before ++ [taken] <+: order)
    (later : mid.threads.length ≤ taken.thread) {index : Nat}
    {thread : Thread Ans ε Req Res} {value : Res} (found : mid.threads[index]? = some thread)
    (returned : thread.state = .returned value) : ∃ other ∈ before,
      other.thread = index ∧ other.result = value := by
  obtain ⟨⟨done, part, explains⟩, -⟩ := linearizes.meanwhile earlier mid first reached
  obtain ⟨other, member, same⟩ := explains.returned index thread value found returned
  have absent : taken ∉ done := by
    intro inDone
    obtain ⟨_, there, -⟩ := explains.arrived taken inDone
    exact Nat.lt_irrefl _ (Nat.lt_of_lt_of_le (List.getElem?_eq_some_iff.mp there).1 later)
  have short : done <+: before := by
    rcases List.prefix_or_prefix_of_prefix part place with shorter | longer
    · rcases List.prefix_concat_iff.mp shorter with whole | proper
      · exact (absent (whole ▸ List.mem_append_right _ (List.mem_singleton_self _))).elim
      · exact proper
    · exact (absent (longer.subset (List.mem_append_right _ (List.mem_singleton_self _)))).elim
  exact ⟨other, short.subset member, same⟩

/-- From an order that each event extends: by induction on the events, the last one first. -/
theorem linearizes_of_tracks {I : Config Ans ε Req Res σ → List Nat → List (Taken Req Res) → Prop}
    (start : I initial [] []) (empty : initial.threads = [])
    (tracks : ∀ cfg born order, I cfg born order → S.Tracks choice initial.shared cfg born order)
    (grows : ∀ cfg born order event next, I cfg born order → S.advance cfg event = some next →
      ∃ new, I next (bornAfter cfg born event) (order ++ new))
    {events : List (Event Req χ δ)} (ran : S.run initial events = some cfg) :
    ∃ order, S.Linearizes choice initial events cfg order := by
  -- with it goes when the requests have arrived: no earlier than what was reached without them
  suffices both : ∃ born order, I cfg born order ∧ born.length = cfg.threads.length ∧
      (∀ before mid, before <+: events → S.run initial before = some mid → mid.clock ≤ cfg.clock ∧
        (∃ done, done <+: order ∧ Explains done mid) ∧
        ∀ index time, mid.threads.length ≤ index → born[index]? = some time → mid.clock ≤ time) by
    obtain ⟨born, order, holds, length, meanwhile⟩ := both
    obtain ⟨legal, once, explains, since⟩ := tracks _ _ _ holds
    refine ⟨order, legal, once, explains, fun before mid first reached => ?_⟩
    obtain ⟨-, done, later⟩ := meanwhile before mid first reached
    refine ⟨done, fun taken member behind => ?_⟩
    obtain ⟨thread, found, -⟩ := explains.arrived taken member
    have inside : taken.thread < born.length := length ▸ (List.getElem?_eq_some_iff.mp found).1
    have arrived := List.getElem?_eq_getElem inside
    exact Nat.le_trans (later _ _ behind arrived) (since taken member _ arrived)
  induction events using List.reverseRecOn generalizing cfg with
  | nil =>
    cases ran
    refine ⟨[], [], start, by simp [empty], fun before mid first reached => ?_⟩
    obtain rfl := List.prefix_nil.mp first
    cases reached
    exact ⟨Nat.le_refl _, ⟨[], List.prefix_rfl, (tracks _ _ _ start).explains⟩, fun _ _ _ no => by simp at no⟩
  | append_singleton events event ih =>
    rw [run_concat] at ran
    obtain ⟨last, reachedLast, step⟩ := Option.bind_eq_some_iff.mp ran
    obtain ⟨born, order, holds, length, meanwhile⟩ := ih reachedLast
    obtain ⟨new, after⟩ := grows _ _ _ _ _ holds step
    refine ⟨bornAfter last born event, order ++ new, after, advance_length step length,
      fun before mid first reached => ?_⟩
    rcases List.prefix_concat_iff.mp first with whole | earlier
    · have same : S.run initial (events ++ [event]) = some cfg := by rw [run_concat,
        reachedLast, Option.bind_some, step]
      rw [whole, same] at reached
      cases reached
      refine ⟨Nat.le_refl _, ⟨_, List.prefix_rfl, (tracks _ _ _ after).explains⟩,
        fun index time behind arrived => ?_⟩
      have inside := List.getElem?_eq_some_iff.mp arrived
      have bound := advance_length step length
      exact absurd inside.1 (by omega)
    · obtain ⟨clocks, ⟨done, part, explains⟩, later⟩ := meanwhile before mid earlier reached
      refine ⟨Nat.le_trans clocks (advance_clock step), ⟨done, part.trans (List.prefix_append ..), explains⟩, ?_⟩
      intro index time behind arrived
      cases event with
      | arrive request =>
        by_cases old : index < born.length
        · rw [bornAfter, List.getElem?_append_left old] at arrived
          exact later index time behind arrived
        · rw [bornAfter, List.getElem?_append_right (Nat.le_of_not_lt old)] at arrived
          obtain rfl : last.clock = time := by
            cases at0 : index - born.length with
            | zero => simpa [at0] using arrived
            | succ n => simp [at0] at arrived
          exact clocks
      | tick delay => exact later index time behind arrived
      | disturb change => exact later index time behind arrived
      | resume thread choice => exact later index time behind arrived

end

end System

end Async
