import KeycloakAuth.Async.Interleaving

namespace Async
variable {Call : Type} {Ans : Call → Type} {ε α β Req Res σ χ δ : Type}

/-- What programs promise of the calls they make, and what they rely on in return: when the answer comes, what
becomes of the state until then, and what is then true of the answer. -/
structure Contract (Ans : Call → Type) (ε σ : Type) where
  fine : (now : Nat) → σ → Call → Prop
  inTime : Call → (made now : Nat) → Prop
  grows : σ → σ → Prop
  good : (now : Nat) → σ → (call : Call) → Except ε (Ans call) → Prop

/-- A program that keeps its promises from here on; what it returns is then as `Q` says. -/
def Program.Meets (C : Contract Ans ε σ) (Q : Nat → σ → α → Prop) : Program Ans ε α → (now : Nat) → σ → Prop
  | .done value, now, state => Q now state value
  | .fail _, _, _ => True
  | .clock rest, now, state => (rest now).Meets C Q now state
  | .draw rest, now, state => ∀ nonce, (rest nonce).Meets C Q now state
  | .await call rest, now, state => C.fine now state call ∧ ∀ later after answer, C.inTime call now later →
      C.grows state after → C.good later after call answer → (rest answer).Meets C Q later after

def Suspended.Meets (C : Contract Ans ε σ) (now : Nat) (state : σ) : Suspended Ans ε α → Prop
  | .awaiting call rest => (Program.await call rest).Meets C (fun _ _ _ => True) now state
  | _ => True

section
variable {C : Contract Ans ε σ} {P : Nat → σ → β → Prop} {Q R : Nat → σ → α → Prop} {now : Nat} {state : σ}

namespace Program.Meets

theorem bind {body : Program Ans ε β} {next : β → Program Ans ε α} (first : body.Meets C P now state)
    (goes_on : ∀ now state value, P now state value → (next value).Meets C Q now state) :
    (body.bind next).Meets C Q now state := by
  induction body generalizing now state with
  | done value => exact goes_on now state value first
  | fail error => trivial
  | clock rest ih => exact ih now first
  | draw rest ih => exact fun nonce => ih nonce (first nonce)
  | await call rest ih =>
    exact ⟨first.1, fun later after answer soon grown good =>
      ih answer (first.2 later after answer soon grown good)⟩

theorem attempt {body : Program Ans ε α} {handler : ε → Program Ans ε α} (first : body.Meets C Q now state)
    (catches : ∀ now state error, (handler error).Meets C Q now state) :
      (body.attempt handler).Meets C Q now state := by
  induction body generalizing now state with
  | done value => exact first
  | fail error => exact catches now state error
  | clock rest ih => exact ih now first
  | draw rest ih => exact fun nonce => ih nonce (first nonce)
  | await call rest ih =>
    exact ⟨first.1, fun later after answer soon grown good =>
      ih answer (first.2 later after answer soon grown good)⟩

theorem perform {call : Call} {T : Nat → σ → Ans call → Prop} (fine : C.fine now state call)
    (answered : ∀ later after value, C.inTime call now later → C.grows state after →
      C.good later after call (.ok value) →
      T later after value) : (Program.perform call : Program Ans ε _).Meets C T now state := by
  refine ⟨fine, fun later after answer soon grown good => ?_⟩
  cases answer with
  | error error => trivial
  | ok value => exact answered later after value soon grown good

theorem mono {body : Program Ans ε α} (meets : body.Meets C Q now state)
    (wide : ∀ now state value, Q now state value → R now state value) : body.Meets C R now state := by
  induction body generalizing now state with
  | done value => exact wide now state value meets
  | fail error => trivial
  | clock rest ih => exact ih now meets
  | draw rest ih => exact fun nonce => ih nonce (meets nonce)
  | await call rest ih =>
    exact ⟨meets.1, fun later after answer soon grown good =>
      ih answer (meets.2 later after answer soon grown good)⟩

theorem settle {body : Program Ans ε α} (meets : body.Meets C Q now state) (request drawn : Nat) :
    (body.settle now request drawn).1.Meets C now state := by
  induction body generalizing drawn with
  | done value => trivial
  | fail error => trivial
  | clock rest ih => exact ih now meets drawn
  | draw rest ih => exact ih ⟨request, drawn⟩ (meets _) (drawn + 1)
  | await call rest => exact Program.Meets.mono meets fun _ _ _ _ => trivial

end Program.Meets

end

/-- The surroundings answer as the contract says, and keep `inv`. -/
structure Contract.Kept (C : Contract Ans ε σ) (S : System Ans ε Req Res σ χ δ)
    (allow : χ → Prop) (inv : σ → Prop) :
    Prop where
  refl : ∀ state, C.grows state state
  trans : ∀ {state middle after}, C.grows state middle → C.grows middle after → C.grows state after
  performed : ∀ {choice made now index call before state}, allow choice → C.fine made before call →
    C.inTime call made now → C.grows before state → inv state →
    C.grows state (S.perform choice now index call state).2 ∧ inv (S.perform choice now index call state).2 ∧
      C.good now (S.perform choice now index call state).2 call (S.perform choice now index call state).1
  disturbed : ∀ {change now state}, inv state →
    C.grows state (S.disturb change now state) ∧ inv (S.disturb change now state)

/-- Since when each request waits, after one more event. -/
def sinceAfter (cfg : Config Ans ε Req Res σ) (since : List Nat) : Event Req χ δ → List Nat
  | .arrive _ => since ++ [cfg.clock]
  | .resume index _ => since.set index cfg.clock
  | _ => since

/-- A call is answered in time, and with an allowed choice. -/
def Punctual (inTime : Call → Nat → Nat → Prop) (allow : χ → Prop)
    (cfg : Config Ans ε Req Res σ) (since : List Nat) :
    Event Req χ δ → Prop
  | .resume index choice => allow choice ∧ ∀ thread call rest made, cfg.threads[index]? = some thread →
      thread.state = .awaiting call rest → since[index]? = some made → inTime call made cfg.clock
  | _ => True

/-- Configurations that are reached while all calls are answered in time, with the times since when the requests
wait. -/
inductive System.Reaches (S : System Ans ε Req Res σ χ δ) (inTime : Call → Nat → Nat → Prop) (allow : χ → Prop)
    (clock : Nat) (shared : σ) : Config Ans ε Req Res σ → List Nat → Prop
  | start : S.Reaches inTime allow clock shared (.start clock shared) []
  | next {cfg next since event} : S.Reaches inTime allow clock shared cfg since →
      Punctual inTime allow cfg since event →
      S.advance cfg event = some next → S.Reaches inTime allow clock shared next (sinceAfter cfg since event)

section
variable {S : System Ans ε Req Res σ χ δ} {C : Contract Ans ε σ} {allow : χ → Prop} {inv : σ → Prop} {clock : Nat}
  {shared : σ} {cfg : Config Ans ε Req Res σ} {since : List Nat}

theorem System.Reaches.tick {inTime : Call → Nat → Nat → Prop}
    (reaches : S.Reaches inTime allow clock shared cfg since)
    (delay : Nat) : S.Reaches inTime allow clock shared { cfg with clock := cfg.clock + delay } since :=
  .next reaches (show Punctual inTime allow cfg since (.tick delay) from trivial) rfl

theorem System.Reaches.arrive {inTime : Call → Nat → Nat → Prop}
    (reaches : S.Reaches inTime allow clock shared cfg since)
    (request : Req) : S.Reaches inTime allow clock shared (S.arrive cfg request) (since ++ [cfg.clock]) :=
  .next reaches (show Punctual inTime allow cfg since (.arrive request) from trivial) rfl

theorem System.Reaches.resume {inTime : Call → Nat → Nat → Prop}
    (reaches : S.Reaches inTime allow clock shared cfg since)
    (index : Nat) (choice : χ) {thread : Thread Ans ε Req Res} {call : Call}
    {rest : Except ε (Ans call) → Program Ans ε Res}
    {made : Nat} (allowed : allow choice) (found : cfg.threads[index]? = some thread)
    (waits : thread.state = .awaiting call rest) (arrived : since[index]? = some made)
    (soon : inTime call made cfg.clock) :
    S.Reaches inTime allow clock shared (S.resume cfg index thread call rest choice)
      (since.set index cfg.clock) := by
  have punctual : Punctual inTime allow cfg since (.resume index choice : Event Req χ δ) := by
    refine ⟨allowed, fun other call' rest' made' found' waits' arrived' => ?_⟩
    cases Option.some.inj (found.symm.trans found')
    cases waits.symm.trans waits'
    cases Option.some.inj (arrived.symm.trans arrived')
    exact soon
  exact .next reaches punctual (System.advance_resume choice found waits)

/-- What holds of a configuration whose requests keep their promises. -/
structure Contract.Holds (C : Contract Ans ε σ) (inv : σ → Prop) (cfg : Config Ans ε Req Res σ)
    (since : List Nat) : Prop where
  inv : inv cfg.shared
  length : since.length = cfg.threads.length
  threads : ∀ (index : Nat) (thread : Thread Ans ε Req Res), cfg.threads[index]? = some thread →
    ∃ made state, since[index]? = some made ∧ C.grows state cfg.shared ∧ thread.state.Meets C made state
  log : ∀ entry ∈ cfg.log, ∃ made state,
    C.fine made state entry.call ∧ C.inTime entry.call made entry.time ∧ C.grows state cfg.shared

/-- In a run in which all calls are answered in time, every call was fine when it was made. -/
theorem System.Reaches.holds (reaches : S.Reaches C.inTime allow clock shared cfg since) (kept : C.Kept S allow inv)
    (starts : ∀ request now state, (S.body request).Meets C (fun _ _ _ => True) now state) (start : inv shared) :
    C.Holds inv cfg since := by
  induction reaches with
  | start => exact ⟨start, rfl, fun _ _ no => by simp [Config.start] at no, fun _ no => (List.not_mem_nil no).elim⟩
  | @next cfg next since event _ punctual step ih =>
    rcases System.advance_cases step with ⟨delay, rfl, rfl⟩ | ⟨change, rfl, rfl⟩ | ⟨request, rfl, rfl⟩ |
      ⟨index, choice, thread, call, rest, rfl, found, waits, rfl⟩
    · exact ⟨ih.inv, ih.length, ih.threads, ih.log⟩
    · obtain ⟨grown, inv⟩ := @kept.disturbed change cfg.clock _ ih.inv
      refine ⟨inv, ih.length, fun index thread found => ?_, fun entry member => ?_⟩
      · obtain ⟨made, state, at', grows, meets⟩ := ih.threads index thread found
        exact ⟨made, state, at', kept.trans grows grown, meets⟩
      · obtain ⟨made, state, fine, soon, grows⟩ := ih.log entry member
        exact ⟨made, state, fine, soon, kept.trans grows grown⟩
    · refine ⟨ih.inv, by simp [sinceAfter, System.arrive, ih.length], fun index thread found => ?_, ih.log⟩
      rcases Nat.lt_or_ge index cfg.threads.length with old | recent
      · rw [System.arrive, List.getElem?_append_left old] at found
        obtain ⟨made, state, at', rest⟩ := ih.threads index thread found
        exact ⟨made, state, (List.getElem?_append_left (ih.length ▸ old)).trans at', rest⟩
      · rw [System.arrive, List.getElem?_append_right recent] at found
        have bound := (List.getElem?_eq_some_iff.mp found).1
        simp only [List.length_singleton] at bound
        obtain rfl : index = cfg.threads.length := by omega
        rw [Nat.sub_self] at found
        cases Option.some.inj found
        refine ⟨cfg.clock, cfg.shared, by simp [sinceAfter, ← ih.length], kept.refl _, ?_⟩
        exact (starts request cfg.clock cfg.shared).settle _ _
    · obtain ⟨made, before, at', grows, meets⟩ := ih.threads index thread found
      rw [waits] at meets
      have soon := punctual.2 thread call rest made found waits at'
      obtain ⟨grown, inv, good⟩ := @kept.performed choice made cfg.clock index call before
        cfg.shared punctual.1 meets.1 soon grows ih.inv
      refine ⟨inv, by simp [sinceAfter, System.resume, ih.length],
        fun other running there => ?_, fun entry member => ?_⟩
      · have bound := (List.getElem?_eq_some_iff.mp found).1
        by_cases own : index = other
        · subst own
          cases Option.some.inj ((List.getElem?_set_self bound).symm.trans there)
          refine ⟨cfg.clock, _, List.getElem?_set_self (ih.length ▸ bound), kept.refl _, ?_⟩
          exact (meets.2 _ _ _ soon (kept.trans grows grown) good).settle _ _
        · obtain ⟨made, state, at', grows, meets⟩ := ih.threads other running
            ((List.getElem?_set_ne own).symm.trans there)
          exact ⟨made, state, (List.getElem?_set_ne own).trans at', kept.trans grows grown, meets⟩
      · rcases List.mem_append.mp member with old | recent
        · obtain ⟨made, state, fine, soon, grows⟩ := ih.log entry old
          exact ⟨made, state, fine, soon, kept.trans grows grown⟩
        · obtain rfl := List.mem_singleton.mp recent
          exact ⟨made, before, meets.1, soon, kept.trans grows grown⟩

end

end Async
