import KeycloakAuth.Domain
import KeycloakAuth.Async.OrderedMap

namespace KeycloakAuth
open Async

def hashToken (token : Str) : Str := .sha256 token

/-- The two maps of `InMemoryTokenStore`. A record is always filed under its own id. -/
structure InMemoryTokenStore where
  tokens : OrderedMap Str TokenRecord
  userData : OrderedMap String (OrderedMap String Str)
  keyed : ∀ entry ∈ tokens.entries, entry.2.id = entry.1

namespace InMemoryTokenStore

def empty : InMemoryTokenStore := ⟨.empty, .empty, by simp [OrderedMap.empty]⟩

def save (store : InMemoryTokenStore) (record : TokenRecord) : InMemoryTokenStore where
  tokens := store.tokens.set record.id { record with token := hashToken record.token }
  userData := store.userData
  keyed := by
    intro entry member
    obtain ⟨id, filed⟩ := entry
    rcases OrderedMap.mem_set.mp member with ⟨rfl, rfl⟩ | ⟨_, old⟩
    · rfl
    · exact store.keyed _ old

def findByToken (store : InMemoryTokenStore) (token : Str) (type : TokenType) : Option TokenRecord :=
  store.tokens.values.find? fun record => record.token = hashToken token ∧ record.type = type

def markConsumed (store : InMemoryTokenStore) (id : Str) (now : Nat) : Bool × InMemoryTokenStore :=
  match found : store.tokens.get id with
  | none => (false, store)
  | some record =>
    if record.consumedAt.isSome then (false, store) else
      (true, {
        tokens := store.tokens.set id { record with consumedAt := some (.ofMs now) }
        userData := store.userData
        keyed := by
          intro entry member
          obtain ⟨other, filed⟩ := entry
          rcases OrderedMap.mem_set.mp member with ⟨rfl, rfl⟩ | ⟨_, old⟩
          · exact store.keyed (_, record) (OrderedMap.get_eq_some.mp found)
          · exact store.keyed _ old })

/-- The loop of `deleteExpired` and `deleteAllForUser`. -/
def deleteRecords (store : InMemoryTokenStore) (doomed : TokenRecord → Bool) : InMemoryTokenStore where
  tokens := store.tokens.deleteWhere doomed
  userData := store.userData
  keyed := by
    intro entry member
    rw [OrderedMap.deleteWhere_entries] at member
    exact store.keyed entry (List.mem_filter.mp member).1

def deleteExpired (store : InMemoryTokenStore) (now : Nat) : InMemoryTokenStore :=
  store.deleteRecords fun record => record.expiresAt.before now

def deleteAllForUser (store : InMemoryTokenStore) (userId : String) : InMemoryTokenStore :=
  store.deleteRecords fun record => record.userId = userId

def saveUserData (store : InMemoryTokenStore) (userId key : String) (value : Str) : InMemoryTokenStore :=
  let map := (store.userData.get userId).getD .empty
  { store with userData := store.userData.set userId (map.set key value) }

def getUserData (store : InMemoryTokenStore) (userId key : String) : Option Str :=
  (store.userData.get userId).bind (·.get key)

def deleteUserData (store : InMemoryTokenStore) (userId key : String) : InMemoryTokenStore :=
  match store.userData.get userId with
  | none => store
  | some map => { store with userData := store.userData.set userId (map.delete key) }

/-- The records on file, in the order in which they were first saved. -/
def records (store : InMemoryTokenStore) : List TokenRecord := store.tokens.values

@[simp] theorem records_empty : empty.records = [] := rfl

@[simp] theorem saveUserData_records (store : InMemoryTokenStore) (userId key : String) (value : Str) :
    (store.saveUserData userId key value).records = store.records := rfl

@[simp] theorem deleteUserData_records (store : InMemoryTokenStore) (userId key : String) :
    (store.deleteUserData userId key).records = store.records := by
  unfold deleteUserData
  split <;> rfl

theorem mem_records {store : InMemoryTokenStore} {record : TokenRecord} :
    record ∈ store.records ↔ store.tokens.get record.id = some record := by
  rw [OrderedMap.get_eq_some, records, OrderedMap.values, List.mem_map]
  constructor
  · intro filed
    obtain ⟨entry, member, rfl⟩ := filed
    rw [store.keyed entry member]
    exact member
  · exact fun member => ⟨_, member, rfl⟩

/-- Records on file are told apart by their ids. -/
theorem eq_of_id_eq {store : InMemoryTokenStore} {first second : TokenRecord} (one : first ∈ store.records)
    (two : second ∈ store.records) (same : first.id = second.id) : first = second := by
  have left := mem_records.mp one
  rw [same, mem_records.mp two] at left
  exact (Option.some.inj left).symm

theorem findByToken_eq (store : InMemoryTokenStore) (token : Str) (type : TokenType) :
    store.findByToken token type =
      store.records.find? fun record => record.token = hashToken token ∧ record.type = type := rfl

theorem findByToken_spec {store : InMemoryTokenStore} {token : Str} {type : TokenType} {record : TokenRecord}
    (found : store.findByToken token type = some record) :
    record ∈ store.records ∧ record.token = hashToken token ∧ record.type = type := by
  have matched := List.find?_some found
  simp only [Bool.decide_and, Bool.and_eq_true, decide_eq_true_eq] at matched
  exact ⟨List.mem_of_find?_eq_some found, matched⟩

theorem save_records_of_fresh {store : InMemoryTokenStore} {record : TokenRecord}
    (fresh : ∀ old ∈ store.records, old.id ≠ record.id) :
    (store.save record).records = store.records ++ [{ record with token := hashToken record.token }] := by
  have absent : store.tokens.get record.id = none := by
    refine Option.eq_none_iff_forall_ne_some.mpr fun old present => ?_
    have own := store.keyed _ (OrderedMap.get_eq_some.mp present)
    exact fresh old (mem_records.mpr (own ▸ present)) own
  simp only [records, OrderedMap.values, save, OrderedMap.set_entries_of_none _ absent, List.map_append,
    List.map_cons, List.map_nil]

theorem findByToken_save {store : InMemoryTokenStore} {new record : TokenRecord} {token : Str} {type : TokenType}
    (fresh : ∀ old ∈ store.records, old.id ≠ new.id) (found : store.findByToken token type = some record) :
    (store.save new).findByToken token type = some record := by
  rw [findByToken_eq] at found ⊢
  rw [save_records_of_fresh fresh, List.find?_append, found]
  rfl

/-- A record marked as consumed, as `markConsumed` rewrites the matching one. -/
def consume (id : Str) (now : Nat) (record : TokenRecord) : TokenRecord :=
  if record.id = id then { record with consumedAt := some (.ofMs now) } else record

/-- `markConsumed` answers true exactly for an unconsumed record on file, and then marks that record
where it stands. -/
theorem markConsumed_cases (store : InMemoryTokenStore) (id : Str) (now : Nat) :
    (∃ record ∈ store.records, record.id = id ∧ record.consumedAt = none ∧
      (store.markConsumed id now).1 = true ∧
      (store.markConsumed id now).2.records = store.records.map (consume id now)) ∨
    ((∀ record ∈ store.records, record.id = id → record.consumedAt.isSome) ∧
      store.markConsumed id now = (false, store)) := by
  unfold markConsumed
  split
  · rename_i absent
    refine .inr ⟨fun record member own => ?_, rfl⟩
    rw [← own, mem_records.mp member] at absent
    cases absent
  · rename_i record present
    have own := store.keyed _ (OrderedMap.get_eq_some.mp present)
    have member : record ∈ store.records := mem_records.mpr (own ▸ present)
    split
    · rename_i used
      refine .inr ⟨fun other inStore same => ?_, rfl⟩
      rw [eq_of_id_eq inStore member (same.trans own.symm)]
      exact used
    · rename_i unused
      refine .inl ⟨record, member, own, by simpa using unused, rfl, ?_⟩
      simp only [records, OrderedMap.values, OrderedMap.set_entries_of_some _ present, List.map_map]
      refine List.map_congr_left fun entry inMap => ?_
      have filed := store.keyed entry inMap
      by_cases same : entry.1 = id
      · have one := OrderedMap.get_eq_some.mpr (show (entry.1, entry.2) ∈ store.tokens.entries from inMap)
        rw [same, present] at one
        have atId : record.id = id := own
        simp only [Function.comp_apply, same, if_true, consume, ← Option.some.inj one, atId]
      · simp [same, consume, filed]

@[simp] theorem consume_token (id : Str) (now : Nat) (record : TokenRecord) :
    (consume id now record).token = record.token := by
  unfold consume
  split <;> rfl

@[simp] theorem consume_type (id : Str) (now : Nat) (record : TokenRecord) :
    (consume id now record).type = record.type := by
  unfold consume
  split <;> rfl

@[simp] theorem consume_id (id : Str) (now : Nat) (record : TokenRecord) :
    (consume id now record).id = record.id := by
  unfold consume
  split <;> rfl

@[simp] theorem consume_userId (id : Str) (now : Nat) (record : TokenRecord) :
    (consume id now record).userId = record.userId := by
  unfold consume
  split <;> rfl

theorem consume_other {id : Str} {record : TokenRecord} (now : Nat) (other : record.id ≠ id) :
    consume id now record = record := by rw [consume, if_neg other]

/-- Once consumed, a record stays consumed. -/
theorem consume_used (id : Str) (now : Nat) {record : TokenRecord} (used : record.consumedAt.isSome = true) :
    (consume id now record).consumedAt.isSome = true := by
  unfold consume
  split
  · rfl
  · exact used

/-- A choice of records that does not look at the mark is the same before and after. -/
theorem filter_consume {id : Str} {now : Nat} {keep : TokenRecord → Bool}
    (blind : ∀ record, keep (consume id now record) = keep record) (records : List TokenRecord) :
    (records.map (consume id now)).filter keep = (records.filter keep).map (consume id now) := by
  have same : keep ∘ consume id now = keep := funext blind
  rw [List.filter_map, same]

theorem markConsumed_unused {store : InMemoryTokenStore} {record : TokenRecord} (now : Nat)
    (member : record ∈ store.records) (unused : record.consumedAt = none) :
    (store.markConsumed record.id now).1 = true ∧
      (store.markConsumed record.id now).2.records = store.records.map (consume record.id now) := by
  rcases markConsumed_cases store record.id now with ⟨_, _, _, _, marked, after⟩ | ⟨used, _⟩
  · exact ⟨marked, after⟩
  · have marked := used record member rfl
    simp [unused] at marked

/-- The record that stands for a token is the same one after another has been consumed. -/
theorem findByToken_markConsumed {store : InMemoryTokenStore} {record : TokenRecord} (now : Nat)
    (member : record ∈ store.records) (unused : record.consumedAt = none) (token : Str) (type : TokenType) :
    (store.markConsumed record.id now).2.findByToken token type =
      (store.findByToken token type).map (consume record.id now) := by
  rw [findByToken_eq, findByToken_eq, (markConsumed_unused now member unused).2, List.find?_map]
  congr 2
  funext other
  simp only [Function.comp_apply, consume_token, consume_type]

@[simp] theorem deleteRecords_records (store : InMemoryTokenStore) (doomed : TokenRecord → Bool) :
    (store.deleteRecords doomed).records = store.records.filter fun record => !doomed record := by
  simp only [records, deleteRecords, OrderedMap.values, OrderedMap.deleteWhere_entries, List.filter_map]
  rfl

theorem filter_deleteRecords (store : InMemoryTokenStore) (doomed keep : TokenRecord → Bool) :
    (store.deleteRecords doomed).records.filter keep = (store.records.filter keep).filter fun record =>
      !doomed record := by
  rw [deleteRecords_records, List.filter_filter, List.filter_filter]
  exact List.filter_congr fun record _ => Bool.and_comm ..

/-- A record that survives still stands for its token. -/
theorem findByToken_deleteRecords {store : InMemoryTokenStore} {doomed : TokenRecord → Bool} {token : Str}
    {type : TokenType} {record : TokenRecord} (found : store.findByToken token type = some record)
    (kept : doomed record = false) : (store.deleteRecords doomed).findByToken token type = some record := by
  rw [findByToken_eq] at found ⊢
  rw [deleteRecords_records, List.find?_filter]
  obtain ⟨matched, earlier, later, split, others⟩ := List.find?_eq_some_iff_append.mp found
  refine List.find?_eq_some_iff_append.mpr ⟨by simp_all, earlier, later, split, fun other member => ?_⟩
  have unmatched := others other member
  simp_all

@[simp] theorem deleteAllForUser_records (store : InMemoryTokenStore) (userId : String) :
    (store.deleteAllForUser userId).records = store.records.filter (·.userId ≠ userId) := by
  simp [deleteAllForUser]

@[simp] theorem getUserData_saveUserData_self (store : InMemoryTokenStore) (userId key : String)
    (value : Str) : (store.saveUserData userId key value).getUserData userId key = some value := by
  simp [saveUserData, getUserData]

@[simp] theorem getUserData_markConsumed (store : InMemoryTokenStore) (id : Str) (now : Nat)
    (userId key : String) : (store.markConsumed id now).2.getUserData userId key =
      store.getUserData userId key := by
  unfold markConsumed
  split
  · rfl
  · split <;> rfl

@[simp] theorem getUserData_deleteRecords (store : InMemoryTokenStore) (doomed : TokenRecord → Bool)
    (userId key : String) : (store.deleteRecords doomed).getUserData userId key =
      store.getUserData userId key := rfl

theorem getUserData_saveUserData_other (store : InMemoryTokenStore) {userId otherId key other : String}
    (value : Str) (different : otherId ≠ userId ∨ other ≠ key) :
    (store.saveUserData userId key value).getUserData otherId other = store.getUserData otherId other := by
  by_cases same : otherId = userId
  · subst same
    have apart : other ≠ key := different.resolve_left fun no => no rfl
    simp only [saveUserData, getUserData, OrderedMap.get_set_self, Option.bind_some,
      OrderedMap.get_set_other _ _ apart]
    cases store.userData.get otherId <;> rfl
  · simp [saveUserData, getUserData, OrderedMap.get_set_other _ _ same]

@[simp] theorem getUserData_deleteUserData_self (store : InMemoryTokenStore) (userId key : String) :
    (store.deleteUserData userId key).getUserData userId key = none := by
  unfold deleteUserData
  split
  · rename_i absent
    simp [getUserData, absent]
  · simp [getUserData]

theorem getUserData_deleteUserData_other (store : InMemoryTokenStore) {userId otherId key other : String}
    (different : otherId ≠ userId ∨ other ≠ key) :
    (store.deleteUserData userId key).getUserData otherId other = store.getUserData otherId other := by
  unfold deleteUserData
  split
  · rfl
  · rename_i map present
    by_cases same : otherId = userId
    · subst same
      have apart : other ≠ key := different.resolve_left fun no => no rfl
      simp [getUserData, present, OrderedMap.get_delete_other _ apart]
    · simp [getUserData, OrderedMap.get_set_other _ _ same]

end InMemoryTokenStore

end KeycloakAuth
