import Mathlib.Data.List.Induction
import Mathlib.Data.List.TakeDrop
import KeycloakAuth.Async.OrderedMap

namespace KeycloakAuth.Events
open Async

/-- Classes of events. The bus tells them apart by `Function.name`. -/
class EventClass (C : Type) where
  name : C → String
  name_injective {first second : C} : name first = name second → first = second

/-- The classes that the package exports. -/
inductive ExportedEvent
  | userRegistered
  | userLoggedIn
  | userLoggedOut
  | magicLinkSent
  | passwordReset
  | twoFactorEnabled
  | twoFactorDisabled
deriving DecidableEq, Repr

instance : EventClass ExportedEvent where
  name
    | .userRegistered => "UserRegisteredEvent"
    | .userLoggedIn => "UserLoggedInEvent"
    | .userLoggedOut => "UserLoggedOutEvent"
    | .magicLinkSent => "MagicLinkSentEvent"
    | .passwordReset => "PasswordResetEvent"
    | .twoFactorEnabled => "TwoFactorEnabledEvent"
    | .twoFactorDisabled => "TwoFactorDisabledEvent"
  name_injective {first second} same := by
    cases first <;> cases second <;> first | rfl | exact absurd same (by decide)

/-- An event: its constructor and the values of its fields. -/
structure AuthEvent (C : Type) where
  eventClass : C
  timestamp : Nat
  fields : List String
deriving DecidableEq, Repr

/-- Handlers are told apart as function objects are. The arrays of the map live on the heap, since an `emit` may
still be reading one of them. -/
structure AuthEventBus (H : Type) where
  heap : List (List H)
  handlers : OrderedMap String Nat

namespace AuthEventBus
variable {C H : Type} [EventClass C]

def new : AuthEventBus H := ⟨[], .empty⟩

/-- The elements of an array. -/
def array (bus : AuthEventBus H) (reference : Nat) : List H := bus.heap.getD reference []

def allocate (bus : AuthEventBus H) (key : String) (elements : List H) : AuthEventBus H :=
  ⟨bus.heap ++ [elements], bus.handlers.set key bus.heap.length⟩

/-- `push` changes the array in place. -/
def on (bus : AuthEventBus H) (eventClass : C) (handler : H) : AuthEventBus H :=
  match bus.handlers.get (EventClass.name eventClass) with
  | none => bus.allocate (EventClass.name eventClass) [handler]
  | some reference =>
    ⟨bus.heap.set reference (bus.array reference ++ [handler]),
      bus.handlers.set (EventClass.name eventClass) reference⟩

/-- `filter` makes a new array. -/
def off [DecidableEq H] (bus : AuthEventBus H) (eventClass : C) (handler : H) : AuthEventBus H :=
  match bus.handlers.get (EventClass.name eventClass) with
  | none => bus
  | some reference => bus.allocate (EventClass.name eventClass) ((bus.array reference).filter (· ≠ handler))

def removeAll (bus : AuthEventBus H) : AuthEventBus H := ⟨bus.heap, .empty⟩

end AuthEventBus

/-- What a handler returns: nothing, or a promise. -/
inductive Returned
  | nothing
  | fulfilling
  | rejecting
deriving DecidableEq, Repr

/-- What happens at a bus. The last two are about the handler that is running. -/
inductive BusAction (C H : Type)
  | on (eventClass : C) (handler : H)
  | off (eventClass : C) (handler : H)
  | removeAll
  | emit (event : AuthEvent C)
  | returns (value : Returned)
  | throws
deriving DecidableEq, Repr

/-- An `emit` in the middle of `handlers.map`: its array and the length it had, the next index, the handlers
invoked so far, of which the last one is running, and what had happened before the call. -/
structure Delivery (C H : Type) where
  event : AuthEvent C
  reference : Nat
  length : Nat
  next : Nat
  invoked : List H
  returned : List Returned
  before : List (BusAction C H)

/-- An `emit` that invokes no further handler, and whether its promise is fulfilled. -/
structure Emission (C H : Type) where
  event : AuthEvent C
  invoked : List H
  fulfilled : Bool
  before : List (BusAction C H)

/-- A bus with the calls of `emit` on the stack, the innermost first. -/
structure Dispatch (C H : Type) where
  bus : AuthEventBus H
  deliveries : List (Delivery C H)
  emitted : List (Emission C H)
  history : List (BusAction C H)

namespace Dispatch
variable {C H : Type}

def start : Dispatch C H := ⟨.new, [], [], []⟩

/-- `map` goes on: it stops at the length it has read, and skips what is not in the array. -/
def proceed (state : Dispatch C H) (delivery : Delivery C H) (outer : List (Delivery C H)) : Dispatch C H :=
  match if delivery.next < delivery.length then (state.bus.array delivery.reference)[delivery.next]? else none with
  | some handler =>
    { state with deliveries :=
        { delivery with next := delivery.next + 1, invoked := delivery.invoked ++ [handler] } :: outer }
  | none =>
    { state with
      deliveries := outer
      emitted := state.emitted ++
        [⟨delivery.event, delivery.invoked, .rejecting ∉ delivery.returned, delivery.before⟩] }

variable [EventClass C]

/-- `emit` up to the first handler; without an array there is nothing to map over. -/
def emit (state : Dispatch C H) (event : AuthEvent C) : Dispatch C H :=
  match state.bus.handlers.get (EventClass.name event.eventClass) with
  | none => { state with emitted := state.emitted ++ [⟨event, [], true, state.history⟩] }
  | some reference =>
    state.proceed ⟨event, reference, (state.bus.array reference).length, 0, [], [], state.history⟩ state.deliveries

variable [DecidableEq H]

def act (state : Dispatch C H) : BusAction C H → Option (Dispatch C H)
  | .on eventClass handler => some { state with bus := state.bus.on eventClass handler }
  | .off eventClass handler => some { state with bus := state.bus.off eventClass handler }
  | .removeAll => some { state with bus := state.bus.removeAll }
  | .emit event => some (state.emit event)
  | .returns value =>
    match state.deliveries with
    | [] => none
    | delivery :: outer => some (state.proceed { delivery with returned := delivery.returned ++ [value] } outer)
  | .throws =>
    -- the exception leaves `map` and rejects the promise of the `emit` that has called the handler
    match state.deliveries with
    | [] => none
    | delivery :: outer => some { state with
        deliveries := outer
        emitted := state.emitted ++ [⟨delivery.event, delivery.invoked, false, delivery.before⟩] }

def step (state : Dispatch C H) (action : BusAction C H) : Option (Dispatch C H) :=
  (state.act action).map fun next => { next with history := state.history ++ [action] }

def run (actions : List (BusAction C H)) : Option (Dispatch C H) := actions.foldlM step start

end Dispatch

/-- The bus holds a table of handlers, in arrays that no two keys share. -/
structure AuthEventBus.Holds {C H : Type} [EventClass C] (bus : AuthEventBus H) (table : C → List H) : Prop where
  valid : ∀ key reference, bus.handlers.get key = some reference → reference < bus.heap.length
  apart : ∀ key other reference, bus.handlers.get key = some reference → bus.handlers.get other = some reference →
    key = other
  present : ∀ eventClass reference, bus.handlers.get (EventClass.name eventClass) = some reference →
    bus.array reference = table eventClass
  absent : ∀ eventClass, bus.handlers.get (EventClass.name eventClass) = none → table eventClass = []

/-- Arrays stay and only grow at their end. -/
structure AuthEventBus.Grows {H : Type} (bus later : AuthEventBus H) : Prop where
  kept : bus.heap.length ≤ later.heap.length
  longer : ∀ reference, reference < bus.heap.length → bus.array reference <+: later.array reference

namespace AuthEventBus
variable {C H : Type} [EventClass C] {bus : AuthEventBus H} {table : C → List H}

theorem new_holds : (new : AuthEventBus H).Holds fun _ : C => [] where
  valid _ _ none := by cases none
  apart _ _ _ none := by cases none
  present _ _ none := by cases none
  absent _ _ := rfl

theorem Grows.refl (bus : AuthEventBus H) : bus.Grows bus := ⟨Nat.le_refl _, fun _ _ => List.prefix_rfl⟩

theorem array_allocate_new (key : String) (elements : List H) :
    (bus.allocate key elements).array bus.heap.length = elements := by
  simp [array, allocate, List.getD]

theorem array_allocate_old (key : String) (elements : List H) {reference : Nat}
    (inside : reference < bus.heap.length) :
    (bus.allocate key elements).array reference = bus.array reference := by
  simp [array, allocate, List.getD, List.getElem?_append_left inside]

theorem allocate_grows (key : String) (elements : List H) : bus.Grows (bus.allocate key elements) where
  kept := by simp [allocate]
  longer _ inside := (array_allocate_old key elements inside).symm ▸ List.prefix_rfl

theorem get_allocate (key other : String) (elements : List H) : (bus.allocate key elements).handlers.get other =
    if other = key then some bus.heap.length else bus.handlers.get other := by
  unfold allocate
  split
  · rename_i same
    rw [same, OrderedMap.get_set_self]
  · rename_i different
    exact OrderedMap.get_set_other _ _ different

/-- `push` to the array that a class has. -/
def push (bus : AuthEventBus H) (reference : Nat) (handler : H) : AuthEventBus H :=
  ⟨bus.heap.set reference (bus.array reference ++ [handler]), bus.handlers⟩

theorem array_push (handler : H) {reference other : Nat} (inside : reference < bus.heap.length) :
    (bus.push reference handler).array other =
      if other = reference then bus.array reference ++ [handler] else bus.array other := by
  unfold push array
  split
  · rename_i same
    simp [same, List.getD, inside]
  · rename_i different
    simp [List.getD, Ne.symm different]

theorem push_grows (handler : H) {reference : Nat} (inside : reference < bus.heap.length) :
    bus.Grows (bus.push reference handler) where
  kept := by simp [push]
  longer other _ := by
    rw [array_push handler inside]
    split
    · rename_i same
      rw [same]
      exact List.prefix_append _ _
    · exact List.prefix_rfl

/-- `on` where the class has an array. -/
theorem on_some {eventClass : C} {reference : Nat} (handler : H)
    (found : bus.handlers.get (EventClass.name eventClass) = some reference) :
    bus.on eventClass handler = bus.push reference handler := by
  rw [on, found]
  simp only [push, OrderedMap.set_same found]

/-- `on` where the class has none. -/
theorem on_none {eventClass : C} (handler : H) (missing : bus.handlers.get (EventClass.name eventClass) = none) :
    bus.on eventClass handler = bus.allocate (EventClass.name eventClass) [handler] := by
  rw [on, missing]

theorem off_grows [DecidableEq H] (eventClass : C) (handler : H) : bus.Grows (bus.off eventClass handler) := by
  unfold off
  split
  · exact .refl bus
  · exact allocate_grows ..

section
variable [DecidableEq C]

/-- A fresh array under the name of a class. -/
theorem Holds.allocate (holds : bus.Holds table) (eventClass : C) (elements : List H) :
    (bus.allocate (EventClass.name eventClass) elements).Holds fun other =>
      if eventClass = other then elements else table other where
  valid key reference found := by
    rw [get_allocate] at found
    have grown : (bus.allocate (EventClass.name eventClass) elements).heap.length = bus.heap.length + 1 := by
      simp [AuthEventBus.allocate]
    split at found
    · cases found
      omega
    · have old := holds.valid key reference found
      omega
  apart key other reference found found' := by
    rw [get_allocate] at found found'
    split at found <;> split at found'
    · simp_all
    · cases found
      exact absurd (holds.valid _ _ found') (Nat.lt_irrefl _)
    · cases found'
      exact absurd (holds.valid _ _ found) (Nat.lt_irrefl _)
    · exact holds.apart _ _ _ found found'
  present other reference found := by
    rw [get_allocate] at found
    split at found
    · rename_i same
      cases found
      rw [array_allocate_new, if_pos (EventClass.name_injective same).symm]
    · rename_i different
      rw [array_allocate_old _ _ (holds.valid _ _ found), holds.present other reference found, if_neg]
      rintro rfl
      exact different rfl
  absent other missing := by
    rw [get_allocate] at missing
    split at missing
    · cases missing
    · rename_i different
      rw [holds.absent other missing, if_neg]
      rintro rfl
      exact different rfl

/-- Only the class that the array belongs to gets a further handler. -/
theorem Holds.push (holds : bus.Holds table) {eventClass : C} {reference : Nat}
    (found : bus.handlers.get (EventClass.name eventClass) = some reference) (handler : H) :
    (bus.push reference handler).Holds fun other =>
      if eventClass = other then table other ++ [handler] else table other where
  valid key other found' := by
    simpa [AuthEventBus.push] using holds.valid key other found'
  apart := holds.apart
  present other reference' found' := by
    have old := holds.present other reference' found'
    rw [array_push handler (holds.valid _ _ found)]
    by_cases same : eventClass = other
    · subst same
      cases Option.some.inj (found.symm.trans found')
      rw [if_pos rfl, if_pos rfl, old]
    · rw [if_neg same, if_neg, old]
      rintro rfl
      exact same (EventClass.name_injective (holds.apart _ _ _ found found'))
  absent other missing := by
    rw [if_neg, holds.absent other missing]
    rintro rfl
    cases found.symm.trans missing

end

end AuthEventBus

section
variable {C H : Type} [DecidableEq C] [DecidableEq H]

/-- What an action makes of the handlers that are registered for one class. -/
def register (eventClass : C) (handlers : List H) : BusAction C H → List H
  | .on other handler => if other = eventClass then handlers ++ [handler] else handlers
  | .off other handler => if other = eventClass then handlers.filter (· ≠ handler) else handlers
  | .removeAll => []
  | _ => handlers

/-- The handlers that are registered for a class after all this, in the order of their registration. -/
def registered (history : List (BusAction C H)) (eventClass : C) : List H :=
  history.foldl (register eventClass) []

@[simp] theorem registered_concat (history : List (BusAction C H)) (action : BusAction C H) (eventClass : C) :
    registered (history ++ [action]) eventClass = register eventClass (registered history eventClass) action := by
  simp [registered, List.foldl_append]

/-- What is true of an `emit` on the stack: its array begins with the handlers that were registered when it was
called, and it has invoked some of these, from the first on. -/
structure Delivery.Underway (bus : AuthEventBus H) (delivery : Delivery C H) : Prop where
  valid : delivery.reference < bus.heap.length
  starts : registered delivery.before delivery.event.eventClass <+: bus.array delivery.reference
  length : delivery.length = (registered delivery.before delivery.event.eventClass).length
  next : delivery.next ≤ delivery.length
  invoked : delivery.invoked = (registered delivery.before delivery.event.eventClass).take delivery.next

theorem Delivery.Underway.grows {bus later : AuthEventBus H} {delivery : Delivery C H}
    (underway : delivery.Underway bus) (grows : bus.Grows later) : delivery.Underway later :=
  { underway with
    valid := Nat.lt_of_lt_of_le underway.valid grows.kept
    starts := underway.starts.trans (grows.longer _ underway.valid) }

/-- An `emit` has invoked the handlers that were registered for the class of its event when it was called, each
as often as it was registered and in this order. -/
def Emission.Complete (emission : Emission C H) : Prop :=
  emission.invoked = registered emission.before emission.event.eventClass

namespace AuthEventBus
variable [EventClass C] {bus : AuthEventBus H} {history : List (BusAction C H)}

theorem holds_on (holds : bus.Holds (registered history)) (eventClass : C) (handler : H) :
    (bus.on eventClass handler).Holds (registered (history ++ [.on eventClass handler])) := by
  cases found : bus.handlers.get (EventClass.name eventClass) with
  | none =>
    rw [on_none handler found]
    have fresh := holds.allocate eventClass [handler]
    refine (congrArg _ (funext fun other => ?_)).mpr fresh
    rw [registered_concat, register]
    split
    · rename_i same
      rw [← same, holds.absent eventClass found, List.nil_append]
    · rfl
  | some reference =>
    rw [on_some handler found]
    exact (congrArg _ (funext fun other => registered_concat ..)).mpr (holds.push found handler)

theorem holds_off (holds : bus.Holds (registered history)) (eventClass : C) (handler : H) :
    (bus.off eventClass handler).Holds (registered (history ++ [.off eventClass handler])) := by
  unfold off
  cases found : bus.handlers.get (EventClass.name eventClass) with
  | none =>
    refine (congrArg _ (funext fun other => ?_)).mpr holds
    rw [registered_concat, register]
    split
    · rename_i same
      rw [← same, holds.absent eventClass found, List.filter_nil]
    · rfl
  | some reference =>
    refine (congrArg _ (funext fun other => ?_)).mpr (holds.allocate eventClass _)
    rw [registered_concat, register, holds.present eventClass reference found]
    split
    · rename_i same
      rw [same]
    · rfl

variable (bus history) in
theorem holds_removeAll : bus.removeAll.Holds (registered (history ++ [.removeAll])) where
  valid _ _ none := by cases none
  apart _ _ _ none := by cases none
  present _ _ none := by cases none
  absent _ _ := registered_concat ..

theorem on_grows (holds : bus.Holds (registered history)) (eventClass : C) (handler : H) :
    bus.Grows (bus.on eventClass handler) := by
  cases found : bus.handlers.get (EventClass.name eventClass) with
  | none => exact on_none handler found ▸ allocate_grows ..
  | some reference => exact on_some handler found ▸ push_grows handler (holds.valid _ _ found)

end AuthEventBus

namespace Dispatch
variable {state next : Dispatch C H} {delivery : Delivery C H} {outer : List (Delivery C H)}

/-- `map` invokes the next handler, or all have been invoked. -/
theorem proceed_cases (outer : List (Delivery C H)) (underway : delivery.Underway state.bus) :
    (∃ handler, state.proceed delivery outer = { state with deliveries :=
        { delivery with next := delivery.next + 1, invoked := delivery.invoked ++ [handler] } :: outer } ∧
      Delivery.Underway state.bus
        { delivery with next := delivery.next + 1, invoked := delivery.invoked ++ [handler] }) ∨
    ∃ emission : Emission C H, state.proceed delivery outer =
        { state with deliveries := outer, emitted := state.emitted ++ [emission] } ∧
      emission.event = delivery.event ∧ emission.before = delivery.before ∧ emission.Complete := by
  by_cases more : delivery.next < delivery.length
  · have inside := underway.length ▸ more
    obtain ⟨rest, starts⟩ := underway.starts
    have read : (state.bus.array delivery.reference)[delivery.next]? =
        some (registered delivery.before delivery.event.eventClass)[delivery.next] := by
      rw [← starts, List.getElem?_append_left inside, List.getElem?_eq_getElem inside]
    refine .inl ⟨(registered delivery.before delivery.event.eventClass)[delivery.next], ?_,
      { underway with next := more, invoked := ?_ }⟩
    · simp only [proceed, more, if_true, read]
    · rw [underway.invoked, List.take_append_getElem inside]
  · refine .inr ⟨⟨delivery.event, delivery.invoked, .rejecting ∉ delivery.returned, delivery.before⟩,
      by simp only [proceed, more, if_false], rfl, rfl, ?_⟩
    have all : delivery.next = (registered delivery.before delivery.event.eventClass).length := by
      have bound := underway.next
      have length := underway.length
      omega
    rw [Emission.Complete, underway.invoked, all, List.take_length]

/-- Some `emit` of this event has been called after `before`. -/
def Records (state : Dispatch C H) (event : AuthEvent C) (before : List (BusAction C H)) : Prop :=
  (∃ emission ∈ state.emitted, emission.event = event ∧ emission.before = before) ∨
    ∃ delivery ∈ state.deliveries, delivery.event = event ∧ delivery.before = before

/-- An `emit` that is cut short is complete only if it was at its last handler. -/
theorem complete_of_throw {emission : Emission C H} (underway : delivery.Underway state.bus)
    (event : emission.event = delivery.event) (before : emission.before = delivery.before)
    (invoked : emission.invoked = delivery.invoked) : emission.Complete ↔ delivery.next = delivery.length := by
  have bound := underway.next
  rw [Emission.Complete, event, before, invoked, underway.invoked, List.take_eq_self_iff, ← underway.length]
  omega

omit [DecidableEq C] [DecidableEq H] in
/-- Once the innermost `emit` is taken off the stack, the others are still on it. -/
theorem kept_of_stack (stack : state.deliveries = delivery :: outer) : ∀ other ∈ state.deliveries,
    other ∈ outer ∨ delivery.event = other.event ∧ delivery.before = other.before := by
  rintro other member
  rw [stack] at member
  rcases List.mem_cons.mp member with rfl | member
  · exact .inr ⟨rfl, rfl⟩
  · exact .inl member

/-- If a handler throws, it is the last one that its `emit` had to invoke. -/
def LastToThrow (state : Dispatch C H) (action : BusAction C H) : Prop :=
  action = .throws → ∀ delivery, state.deliveries.head? = some delivery → delivery.next = delivery.length

variable [EventClass C]

/-- Every `emit` on the stack is underway, and none has been lost. -/
structure Sound (state : Dispatch C H) : Prop where
  holds : state.bus.Holds (registered state.history)
  underway : ∀ delivery ∈ state.deliveries, delivery.Underway state.bus
  records : ∀ before event after, state.history = before ++ .emit event :: after → state.Records event before

/-- What one action makes of a sound state. -/
structure Steps (state next : Dispatch C H) (action : BusAction C H) : Prop where
  sound : next.Sound
  history : next.history = state.history ++ [action]
  emitted : ∃ new, next.emitted = state.emitted ++ new ∧
    ((∀ emission ∈ new, Emission.Complete emission) ↔ state.LastToThrow action)

theorem records_step {action : BusAction C H} (sound : state.Sound)
    (history : next.history = state.history ++ [action])
    (kept : ∀ event before, state.Records event before → next.Records event before)
    (new : ∀ event, action = .emit event → next.Records event state.history) (before : List (BusAction C H))
    (event : AuthEvent C) (after : List (BusAction C H)) (called : next.history = before ++ .emit event :: after) :
    next.Records event before := by
  rw [history] at called
  rcases List.eq_nil_or_concat after with rfl | ⟨earlier, last, rfl⟩
  · obtain ⟨rfl, same⟩ := List.append_inj' called rfl
    exact new event (List.singleton_inj.mp same)
  · rw [List.concat_eq_append, ← List.cons_append, ← List.append_assoc] at called
    obtain ⟨same, -⟩ := List.append_inj' called rfl
    exact kept event before (sound.records before event earlier same)

/-- An action that only changes what is registered. -/
theorem bus_steps {action : BusAction C H} {bus : AuthEventBus H} (sound : state.Sound)
    (holds : bus.Holds (registered (state.history ++ [action]))) (grows : state.bus.Grows bus)
    (quiet : action ≠ .throws) (silent : ∀ event, action ≠ .emit event) :
    Steps state { state with bus := bus, history := state.history ++ [action] } action where
  sound :=
    { holds := holds
      underway := fun delivery member => (sound.underway delivery member).grows grows
      records := records_step sound rfl (fun _ _ known => known) fun event emits => (silent event emits).elim }
  history := rfl
  emitted := ⟨[], (List.append_nil _).symm, iff_of_true (by simp) fun throws => (quiet throws).elim⟩

/-- An action that ends an `emit`. -/
theorem ends_steps {action : BusAction C H} {emission : Emission C H} (sound : state.Sound)
    (inner : ∀ other ∈ outer, other ∈ state.deliveries)
    (kept : ∀ other ∈ state.deliveries, other ∈ outer ∨ emission.event = other.event ∧
      emission.before = other.before)
    (new : ∀ event, action = .emit event → emission.event = event ∧ emission.before = state.history)
    (same : ∀ eventClass handlers, register eventClass handlers action = (handlers : List H))
    (complete : emission.Complete ↔ state.LastToThrow action) :
    Steps state ⟨state.bus, outer, state.emitted ++ [emission], state.history ++ [action]⟩ action := by
  have member : emission ∈ state.emitted ++ [emission] := List.mem_append_right _ (List.mem_singleton_self _)
  refine ⟨⟨?_, fun other still => sound.underway other (inner other still), records_step sound rfl ?_ ?_⟩, rfl,
    [emission], rfl, by simpa using complete⟩
  · exact (congrArg _ (funext fun other => (registered_concat ..).trans (same _ _))).mpr sound.holds
  · rintro event before (⟨done, old, known⟩ | ⟨other, stacked, known⟩)
    · exact .inl ⟨done, List.mem_append_left _ old, known⟩
    · rcases kept other stacked with still | ⟨event', before'⟩
      · exact .inr ⟨other, still, known⟩
      · exact .inl ⟨emission, member, event'.trans known.1, before'.trans known.2⟩
  · exact fun event emits => .inl ⟨emission, member, new event emits⟩

/-- An action that makes `map` go on, in the innermost `emit` or in a new one. -/
theorem proceed_steps {action : BusAction C H} (sound : state.Sound) (underway : delivery.Underway state.bus)
    (inner : ∀ other ∈ outer, other ∈ state.deliveries)
    (kept : ∀ other ∈ state.deliveries, other ∈ outer ∨ delivery.event = other.event ∧
      delivery.before = other.before)
    (new : ∀ event, action = .emit event → delivery.event = event ∧ delivery.before = state.history)
    (same : ∀ eventClass handlers, register eventClass handlers action = (handlers : List H))
    (quiet : action ≠ .throws) :
    Steps state { state.proceed delivery outer with history := state.history ++ [action] } action := by
  rcases proceed_cases outer underway with ⟨handler, goes, further⟩ | ⟨emission, ends, event, before, complete⟩
  · rw [goes]
    refine ⟨⟨?_, ?_, records_step sound rfl ?_ ?_⟩, rfl, [], (List.append_nil _).symm,
      iff_of_true (by simp) fun throws => (quiet throws).elim⟩
    · exact (congrArg _ (funext fun other => (registered_concat ..).trans (same _ _))).mpr sound.holds
    · rintro other member
      rcases List.mem_cons.mp member with rfl | member
      · exact further
      · exact sound.underway other (inner other member)
    · rintro event before (done | ⟨other, stacked, known⟩)
      · exact .inl done
      · rcases kept other stacked with still | ⟨event', before'⟩
        · exact .inr ⟨other, List.mem_cons_of_mem _ still, known⟩
        · exact .inr ⟨_, List.mem_cons_self, event'.trans known.1, before'.trans known.2⟩
    · exact fun event emits => .inr ⟨_, List.mem_cons_self, new event emits⟩
  · rw [ends]
    refine ends_steps sound inner ?_ ?_ same (iff_of_true complete fun throws => (quiet throws).elim)
    · rw [event, before]
      exact kept
    · rw [event, before]
      exact new

theorem step_steps {action : BusAction C H} (sound : state.Sound) (step : state.step action = some next) :
    Steps state next action := by
  obtain ⟨acted, act, rfl⟩ := Option.map_eq_some_iff.mp step
  cases action with
  | on eventClass handler =>
    cases act
    exact bus_steps sound (AuthEventBus.holds_on sound.holds ..)
      (AuthEventBus.on_grows sound.holds ..) (by simp) (by simp)
  | off eventClass handler =>
    cases act
    exact bus_steps sound (AuthEventBus.holds_off sound.holds ..) (AuthEventBus.off_grows ..) (by simp) (by simp)
  | removeAll =>
    cases act
    exact bus_steps sound (AuthEventBus.holds_removeAll ..) ⟨Nat.le_refl _, fun _ _ => List.prefix_rfl⟩ (by simp)
      (by simp)
  | emit event =>
    cases act
    unfold emit
    cases found : state.bus.handlers.get (EventClass.name event.eventClass) with
    | none =>
      refine ends_steps sound (fun _ member => member) (fun _ member => .inl member) ?_ (fun _ _ => rfl)
        (iff_of_true (sound.holds.absent _ found).symm (by simp [LastToThrow]))
      rintro _ ⟨⟩
      exact ⟨rfl, rfl⟩
    | some reference =>
      have present := sound.holds.present _ _ found
      have underway : Delivery.Underway state.bus
          ⟨event, reference, (state.bus.array reference).length, 0, [], [], state.history⟩ :=
        ⟨sound.holds.valid _ _ found, present ▸ List.prefix_rfl, congrArg List.length present, Nat.zero_le _, rfl⟩
      refine proceed_steps sound underway (fun _ member => member) (fun _ member => .inl member) ?_ (fun _ _ => rfl)
        (by simp)
      rintro _ ⟨⟩
      exact ⟨rfl, rfl⟩
  | returns value =>
    simp only [Dispatch.act] at act
    cases stack : state.deliveries with
    | nil => simp [stack] at act
    | cons delivery outer =>
      simp only [stack, Option.some.injEq] at act
      subst act
      have underway := sound.underway delivery (stack ▸ List.mem_cons_self)
      have kept := kept_of_stack stack
      refine proceed_steps sound { underway with } ?_ kept (by simp) (fun _ _ => rfl) (by simp)
      exact fun other member => stack ▸ List.mem_cons_of_mem _ member
  | throws =>
    simp only [Dispatch.act] at act
    cases stack : state.deliveries with
    | nil => simp [stack] at act
    | cons delivery outer =>
      simp only [stack, Option.some.injEq] at act
      subst act
      have underway := sound.underway delivery (stack ▸ List.mem_cons_self)
      refine ends_steps sound ?_ ?_ (by simp) (fun _ _ => rfl) ((complete_of_throw underway rfl rfl rfl).trans ?_)
      · exact fun other member => stack ▸ List.mem_cons_of_mem _ member
      · exact kept_of_stack stack
      · simp [LastToThrow, stack]

omit [DecidableEq C] in
theorem run_concat (actions : List (BusAction C H)) (action : BusAction C H) :
    run (actions ++ [action]) = (run actions).bind (step · action) := by
  simp [run, List.foldlM_append]

/-- Wherever in the run a handler throws, it is the last one that its `emit` has to invoke. -/
def OnlyLastThrow (actions : List (BusAction C H)) : Prop :=
  ∀ before action after, actions = before ++ action :: after →
    ∀ state, run before = some state → state.LastToThrow action

omit [DecidableEq C] in
theorem onlyLastThrow_concat {actions : List (BusAction C H)} {action : BusAction C H}
    (ran : run actions = some state) :
    OnlyLastThrow (actions ++ [action]) ↔ OnlyLastThrow actions ∧ state.LastToThrow action := by
  constructor
  · intro always
    refine ⟨fun before earlier after same => always before earlier (after ++ [action]) (by simp [same]),
      always actions action [] rfl state ran⟩
  · rintro ⟨earlier, last⟩ before other after same middle reached
    rcases List.eq_nil_or_concat after with rfl | ⟨front, final, rfl⟩
    · obtain ⟨rfl, one⟩ := List.append_inj' same rfl
      cases ran.symm.trans reached
      cases List.singleton_inj.mp one
      exact last
    · rw [List.concat_eq_append, ← List.cons_append, ← List.append_assoc] at same
      obtain ⟨same, -⟩ := List.append_inj' same rfl
      exact earlier before other front same middle reached

/-- A run is sound, has the actions for its history, and its emissions are complete as long as only last handlers
throw. -/
theorem run_sound {actions : List (BusAction C H)} (ran : run actions = some state) :
    state.Sound ∧ state.history = actions ∧
      ((∀ emission ∈ state.emitted, emission.Complete) ↔ OnlyLastThrow actions) := by
  induction actions using List.reverseRecOn generalizing state with
  | nil =>
    cases ran
    refine ⟨⟨AuthEventBus.new_holds, by simp [start], by simp [start]⟩, rfl, iff_of_true (by simp [start]) ?_⟩
    intro before action after same
    simp at same
  | append_singleton actions action ih =>
    rw [run_concat] at ran
    obtain ⟨middle, ran, step⟩ := Option.bind_eq_some_iff.mp ran
    obtain ⟨sound, rfl, complete⟩ := ih ran
    obtain ⟨sound, history, new, emitted, further⟩ := step_steps sound step
    refine ⟨sound, history, ?_⟩
    rw [onlyLastThrow_concat ran, ← complete, ← further, emitted]
    simp only [List.forall_mem_append]

/-- Every `emit` of the run has ended or is on the stack; each has invoked handlers that were registered for its
class when it was called, in their order, and those that have ended have invoked them all. -/
structure Delivers (actions : List (BusAction C H)) (state : Dispatch C H) : Prop where
  accounted : ∀ before event after, actions = before ++ .emit event :: after → state.Records event before
  underway : ∀ delivery ∈ state.deliveries,
    delivery.invoked <+: registered delivery.before delivery.event.eventClass
  complete : ∀ emission ∈ state.emitted, emission.Complete

theorem run_delivers_iff {actions : List (BusAction C H)} (ran : run actions = some state) :
    state.Delivers actions ↔ OnlyLastThrow actions := by
  obtain ⟨sound, rfl, complete⟩ := run_sound ran
  refine ⟨fun delivers => complete.mp delivers.complete, fun last => ⟨sound.records, ?_, complete.mpr last⟩⟩
  intro delivery member
  rw [(sound.underway delivery member).invoked]
  exact List.take_prefix _ _

/-- A handler that is registered twice takes itself off the bus, and throws when it is invoked again. -/
theorem run_delivers_again :
    let event : AuthEvent ExportedEvent := ⟨.userLoggedIn, 0, ["ann", "ann@mail"]⟩
    let actions : List (BusAction ExportedEvent Nat) :=
      [.on .userLoggedIn 0, .on .userLoggedIn 0, .emit event, .off .userLoggedIn 0, .returns .rejecting, .throws]
    ∃ state, run actions = some state ∧ (state.Delivers actions ↔ OnlyLastThrow actions) :=
  ⟨_, rfl, run_delivers_iff rfl⟩

/-- A handler throws before the one that was registered after it has been invoked. -/
theorem run_not_always_delivers :
    ¬ ∀ (actions : List (BusAction ExportedEvent Nat)) state,
      run actions = some state → state.Delivers actions := by
  intro always
  let event : AuthEvent ExportedEvent := ⟨.userLoggedIn, 0, ["ann", "ann@mail"]⟩
  let actions : List (BusAction ExportedEvent Nat) := [.on .userLoggedIn 0,
    .on .userLoggedIn 1, .emit event, .throws]
  have ran : ∃ state, run actions = some state ∧
      ∃ emission ∈ state.emitted, emission.invoked = [0] ∧ emission.event = event ∧
        emission.before = actions.take 2 :=
    ⟨_, rfl, _, List.mem_singleton_self _, rfl, rfl, rfl⟩
  obtain ⟨state, ran, emission, member, invoked, same, before⟩ := ran
  have complete := (always actions state ran).complete emission member
  rw [Emission.Complete, invoked, same, before] at complete
  exact absurd complete (by decide)

end Dispatch

end

end KeycloakAuth.Events
