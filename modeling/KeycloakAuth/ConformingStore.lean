import KeycloakAuth.Async.Simulation
import KeycloakAuth.DrizzleTokenStore
import KeycloakAuth.Ledger

namespace KeycloakAuth
open Async InMemoryTokenStore

/-- An implementation of `ITokenStore`: what it holds at first, and what its methods do. -/
structure TokenStore (σ : Type) where
  initial : σ
  answer : (now : Nat) → (call : StoreCall) → σ → Except Thrown call.Ans × σ

namespace Renaming

/-- Renamings grow as records are saved. -/
instance : Preorder Renaming where
  le names later := names.pairs ⊆ later.pairs
  le_refl names := List.Subset.refl names.pairs
  le_trans _ _ _ := List.Subset.trans

def empty : Renaming := ⟨[], .nil, .nil⟩

/-- Another pair, of two ids that are not in use. -/
def extend (names : Renaming) {id other : Str} (fresh : ∀ pair ∈ names.pairs, pair.1 ≠ id)
    (undrawn : ∀ pair ∈ names.pairs, pair.2 ≠ other) : Renaming where
  pairs := names.pairs ++ [(id, other)]
  left := by
    rw [List.map_append]
    refine List.nodup_append.mpr ⟨names.left, List.nodup_singleton _, ?_⟩
    simpa using fun left right member => fresh (left, right) member
  right := by
    rw [List.map_append]
    refine List.nodup_append.mpr ⟨names.right, List.nodup_singleton _, ?_⟩
    simpa using fun right left member => undrawn (left, right) member

/-- The same call, but for the id that is consumed. -/
inductive Made (names : Renaming) : StoreCall → StoreCall → Prop
  | same {call : StoreCall} (looked : ∀ id, call ≠ .markConsumed id) : names.Made call call
  | consume {id other : Str} (renamed : (id, other) ∈ names.pairs) : names.Made (.markConsumed id)
      (.markConsumed other)

/-- The same record under another id. When it was created is no one's concern. -/
structure Same (names : Renaming) (record other : TokenRecord) : Prop where
  renamed : (record.id, other.id) ∈ names.pairs
  fields : other = { record with id := other.id, createdAt := other.createdAt }

/-- The same answer, but for the id of a record that is found. -/
def Answers (names : Renaming) : (call other : StoreCall) → call.Ans → other.Ans → Prop
  | .findByToken _ _, .findByToken _ _, found, found' => Option.Rel names.Same found found'
  | .markConsumed _, .markConsumed _, taken, taken' => taken = taken'
  | .getUserData _ _, .getUserData _ _, value, value' => value = value'
  | _, _, _, _ => True

variable {names names' : Renaming} {call other : StoreCall}

theorem Made.mono (more : names ≤ names') (made : names.Made call other) : names'.Made call other := by
  cases made with
  | same looked => exact .same looked
  | consume renamed => exact .consume (more renamed)

theorem Same.mono {record record' : TokenRecord} (more : names ≤ names') (same : names.Same record record') :
    names'.Same record record' := ⟨more same.renamed, same.fields⟩

theorem Same.cases {record other : TokenRecord} (same : names.Same record other) :
    ∃ id createdAt, (record.id, id) ∈ names.pairs ∧ other = { record with id := id, createdAt := createdAt } :=
  ⟨other.id, other.createdAt, same.renamed, same.fields⟩

theorem Answers.mono {answer : call.Ans} {answer' : other.Ans} (more : names ≤ names')
    (answers : names.Answers call other answer answer') : names'.Answers call other answer answer' := by
  cases call <;> cases other <;> try exact answers
  cases answers with
  | none => exact .none
  | some same => exact .some (same.mono more)

end Renaming

/-- Calls of two stores that stand for each other. -/
def storeLikeness : Likeness StoreCall.Ans Renaming where
  calls := Renaming.Made
  answers := Renaming.Answers
  calls_mono := Renaming.Made.mono
  answers_mono := Renaming.Answers.mono

/-- A store that answers as the in-memory one does, as long as the records it is asked to save are fresh. -/
structure ConformingStore (σ : Type) extends TokenStore σ where
  holds : Renaming → InMemoryTokenStore → σ → Prop
  start : holds .empty .empty initial
  step : ∀ {names store state call other} (now : Nat), holds names store state → names.Call call other →
    ∃ later : Renaming, names ≤ later ∧
      (∀ pair ∈ later.pairs, pair ∈ names.pairs ∨ ∃ record, call = .save record ∧ pair.1 = record.id) ∧
      storeLikeness.Answered later call other (.ok (answerStore now call store).1) (answer now other state).1 ∧
      holds later (answerStore now call store).2 (answer now other state).2
  missing : ∀ {names store state id} (now : Nat), holds names store state → (∀ pair ∈ names.pairs, pair.2 ≠ id) →
    (answer now (.markConsumed id) state).1 = .ok false

/-- `DrizzleTokenStore`, with what the driver throws when an `INSERT` breaks a constraint. -/
def answerDrizzle (rejection : StoreCall → Thrown) (now : Nat) : (call : StoreCall) → DrizzleTokenStore →
    Except Thrown call.Ans × DrizzleTokenStore
  | .save record, store =>
    (store.save record).elim (.error (rejection (.save record)), store) fun next => (.ok (), next)
  | .findByToken token type, store => (.ok (store.findByToken token type), store)
  | .markConsumed id, store => let marked := store.markConsumed id now; (.ok marked.1, marked.2)
  | .deleteExpired, store => (.ok (), store.deleteExpired now)
  | .deleteAllForUser userId, store => (.ok (), store.deleteAllForUser userId)
  | .saveUserData userId key value, store =>
    (store.saveUserData userId key value).elim (.error (rejection (.saveUserData userId key value)), store)
      fun next => (.ok (), next)
  | .getUserData userId key, store => (.ok (store.getUserData userId key), store)
  | .deleteUserData userId key, store => (.ok (), store.deleteUserData userId key)

/-- What a caller makes of an answer. -/
def Reply.of : (call : StoreCall) → Except Thrown call.Ans → Reply
  | _, .error _ => .rejected
  | .findByToken _ _, .ok record => .found record
  | .markConsumed _, .ok taken => .marked taken
  | .getUserData _ _, .ok value => .data value
  | _, .ok _ => .done

theorem replyInMemory_of (now : Nat) (call : StoreCall) (store : InMemoryTokenStore) :
    replyInMemory now call store = (.of call (.ok (answerStore now call store).1),
      (answerStore now call store).2) := by
  cases call <;> rfl

theorem replyDrizzle_of (rejection : StoreCall → Thrown) (now : Nat) (call : StoreCall) (db : DrizzleTokenStore) :
    replyDrizzle now call db =
      (.of call (answerDrizzle rejection now call db).1, (answerDrizzle rejection now call db).2) := by
  cases call with
  | save record => simp only [replyDrizzle, answerDrizzle]; cases db.save record <;> rfl
  | saveUserData userId key value =>
    simp only [replyDrizzle, answerDrizzle]; cases db.saveUserData userId key value <;> rfl
  | _ => rfl

theorem Renaming.Agree.answered {names : Renaming} {call other : StoreCall} (made : names.Made call other)
    {answer : call.Ans} {answer' : Except Thrown other.Ans}
    (agree : names.Agree (.of call (.ok answer)) (.of other answer')) :
    storeLikeness.Answered names call other (.ok answer) answer' := by
  cases answer' with
  | error error => cases made with | consume => cases agree | same => cases call <;> cases agree
  | ok answer' =>
    refine .answered ?_
    cases made with
    | consume renamed => cases agree; rfl
    | same looked =>
      cases call with
      | findByToken token type =>
        cases agree with
        | missing => exact .none
        | found renamed => exact .some ⟨renamed, rfl⟩
      | getUserData userId key => cases agree; rfl
      | markConsumed id => exact absurd rfl (looked id)
      | _ => trivial

theorem Renaming.Call.made {names later : Renaming} {call other : StoreCall} (called : names.Call call other)
    (more : names ≤ later) : later.Made call other := by
  cases called with
  | same looked fresh => exact .same looked
  | consume renamed => exact .consume (more renamed)

def drizzleTokenStore (rejection : StoreCall → Thrown) : ConformingStore DrizzleTokenStore where
  initial := .empty
  answer := answerDrizzle rejection
  holds := HoldsSame
  start := ⟨.nil, fun _ _ => rfl, fun _ no => (List.not_mem_nil no).elim, fun _ no => (List.not_mem_nil no).elim⟩
  step {names store db call other} now alike called := by
    obtain ⟨later, more, added, agree, after⟩ := alike.step now called
    rw [replyInMemory_of, replyDrizzle_of rejection] at agree after
    exact ⟨later, more, added, agree.answered (called.made more), after⟩
  missing {names store db id} now alike unnamed := by
    have unmatched : db.tokens.filter (fun row => row.id = id ∧ row.consumedAt = none) = [] := by
      refine List.filter_eq_nil_iff.mpr fun row member matched => ?_
      obtain ⟨record, -, rowOf⟩ := Sql.related_of_mem alike.rows member
      exact unnamed _ rowOf.renamed (of_decide_eq_true matched).1
    simp only [answerDrizzle, DrizzleTokenStore.markConsumed, Sql.update, unmatched]
    rfl

/-- A renaming under which the in-memory store stands for itself. -/
structure StandsForItself (names : Renaming) (store other : InMemoryTokenStore) : Prop where
  same : other = store
  plain : ∀ pair ∈ names.pairs, pair.1 = pair.2
  named : ∀ record ∈ store.records, (record.id, record.id) ∈ names.pairs

namespace StandsForItself
variable {names : Renaming} {store other : InMemoryTokenStore}

theorem answered (stands : StandsForItself names store other) (now : Nat) {call : StoreCall}
    (keeps : ∀ record, call ≠ .save record) : StandsForItself names (answerStore now call store).2
      (answerStore now call other).2 := by
  refine ⟨congrArg (fun store => (answerStore now call store).2) stands.same, stands.plain, fun record member => ?_⟩
  rcases answerStore_records member with ⟨old, filed, _, rfl, _⟩ | ⟨record, saves, _⟩
  · exact stands.named old filed
  · exact absurd saves (keeps record)

theorem saved (stands : StandsForItself names store other) {record : TokenRecord}
    (fresh : ∀ pair ∈ names.pairs, pair.1 ≠ record.id) :
    ∃ later : Renaming, later.pairs = names.pairs ++ [(record.id, record.id)] ∧
      StandsForItself later (store.save record) (other.save record) := by
  refine ⟨names.extend fresh fun pair member => stands.plain pair member ▸ fresh pair member, rfl, ?_, ?_, ?_⟩
  · rw [stands.same]
  · intro pair member
    rcases List.mem_append.mp member with old | new
    · exact stands.plain pair old
    · rw [List.mem_singleton.mp new]
  · intro filed member
    rw [save_records_of_fresh fun old member => fresh _ (stands.named old member)] at member
    rcases List.mem_append.mp member with old | new
    · exact List.mem_append_left _ (stands.named filed old)
    · rw [List.mem_singleton.mp new]
      exact List.mem_append_right _ (List.mem_singleton_self _)

end StandsForItself

def inMemoryTokenStore : ConformingStore InMemoryTokenStore where
  initial := .empty
  answer now call store := let answered := answerStore now call store; (.ok answered.1, answered.2)
  holds := StandsForItself
  start := ⟨rfl, fun _ no => (List.not_mem_nil no).elim, fun _ no => (List.not_mem_nil no).elim⟩
  step {names store other call call'} now stands called := by
    cases called with
    | consume renamed =>
      cases (show _ = _ from stands.plain _ renamed)
      exact ⟨names, le_rfl, fun _ => .inl, stands.same ▸ .answered rfl, stands.answered now (by simp)⟩
    | same looked fresh =>
      cases call with
      | save record =>
        obtain ⟨later, pairs, after⟩ := stands.saved (fresh record rfl).1
        have more : names.pairs ⊆ later.pairs := pairs ▸ List.subset_append_left ..
        refine ⟨later, more, fun pair member => ?_, .answered trivial, after⟩
        rw [pairs] at member
        rcases List.mem_append.mp member with old | new
        · exact .inl old
        · exact .inr ⟨record, rfl, congrArg Prod.fst (List.mem_singleton.mp new)⟩
      | findByToken token type =>
        refine ⟨names, le_rfl, fun _ => .inl, .answered ?_, stands.answered now (by simp)⟩
        rw [stands.same]
        change Option.Rel names.Same (store.findByToken token type) (store.findByToken token type)
        cases found : store.findByToken token type with
        | none => exact .none
        | some record => exact .some ⟨stands.named record (findByToken_spec found).1, rfl⟩
      | markConsumed id => exact absurd rfl (looked id)
      | getUserData userId key =>
        exact ⟨names, le_rfl, fun _ => .inl, stands.same ▸ .answered rfl, stands.answered now (by simp)⟩
      | _ => exact ⟨names, le_rfl, fun _ => .inl, .answered trivial, stands.answered now (by simp)⟩
  missing {names store other id} now stands unnamed := by
    rcases markConsumed_cases other id now with ⟨record, filed, own, -⟩ | ⟨-, same⟩
    · have named := stands.named record (stands.same ▸ filed)
      exact absurd own (unnamed _ named)
    · simp only [answerStore, same]

end KeycloakAuth
