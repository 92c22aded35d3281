import KeycloakAuth.Service
import KeycloakAuth.Sql.Table

namespace KeycloakAuth
open Async InMemoryTokenStore

/-- A row of `auth_tokens`. Dates are stored as integers. -/
structure TokenRow where
  id : Str
  userId : String
  type : TokenType
  tokenHash : Str
  expiresAt : Nat
  consumedAt : Option Nat
  createdAt : Nat
deriving DecidableEq, Repr

/-- A row of `auth_user_data`. -/
structure UserDataRow where
  id : Str
  userId : String
  key : String
  value : Str
deriving DecidableEq, Repr

/-- The database behind `DrizzleTokenStore`, and how many UUIDs the store has drawn. -/
structure DrizzleTokenStore where
  tokens : List TokenRow
  userData : List UserDataRow
  drawn : Nat

namespace DrizzleTokenStore

def empty : DrizzleTokenStore := ⟨[], [], 0⟩

def uuid (index : Nat) : Str := .random ⟨0, index⟩

/-- The record that `findByToken` makes of a row. -/
def record (row : TokenRow) : TokenRecord where
  id := row.id
  userId := row.userId
  type := row.type
  token := row.tokenHash
  expiresAt := .ofMs row.expiresAt
  consumedAt := row.consumedAt.map .ofMs
  createdAt := .ofMs row.createdAt

/-- `getTime()` of an invalid date is NaN, which SQLite takes for NULL, and the columns are NOT NULL. -/
def save (store : DrizzleTokenStore) (saved : TokenRecord) : Option DrizzleTokenStore := do
  let expiresAt ← saved.expiresAt.time
  let createdAt ← saved.createdAt.time
  let tokens ← Sql.insert TokenRow.id
    ⟨uuid store.drawn, saved.userId, saved.type, hashToken saved.token, expiresAt, none, createdAt⟩ store.tokens
  return { store with tokens := tokens, drawn := store.drawn + 1 }

def findByToken (store : DrizzleTokenStore) (token : Str) (type : TokenType) : Option TokenRecord :=
  (Sql.selectFirst (fun row => row.tokenHash = hashToken token ∧ row.type = type) store.tokens).map record

def markConsumed (store : DrizzleTokenStore) (id : Str) (now : Nat) : Bool × DrizzleTokenStore :=
  let updated := Sql.update (fun row => row.id = id ∧ row.consumedAt = none)
    (fun row => { row with consumedAt := some now }) store.tokens
  (0 < updated.1.length, { store with tokens := updated.2 })

def deleteExpired (store : DrizzleTokenStore) (now : Nat) : DrizzleTokenStore :=
  { store with tokens := Sql.delete (fun row => row.expiresAt < now) store.tokens }

def deleteAllForUser (store : DrizzleTokenStore) (userId : String) : DrizzleTokenStore :=
  { store with tokens := Sql.delete (fun row => row.userId = userId) store.tokens }

def target (row : UserDataRow) : String × String := (row.userId, row.key)

def saveUserData (store : DrizzleTokenStore) (userId key : String) (value : Str) : Option DrizzleTokenStore := do
  let userData ← Sql.insertOrUpdate UserDataRow.id target ⟨uuid store.drawn, userId, key, value⟩
    (fun row => { row with value := value }) store.userData
  return { store with userData := userData, drawn := store.drawn + 1 }

def getUserData (store : DrizzleTokenStore) (userId key : String) : Option Str :=
  (Sql.selectFirst (fun row => target row = (userId, key)) store.userData).map (·.value)

def deleteUserData (store : DrizzleTokenStore) (userId key : String) : DrizzleTokenStore :=
  { store with userData := Sql.delete (fun row => target row = (userId, key)) store.userData }

end DrizzleTokenStore

/-- What a caller gets from a store. -/
inductive Reply
  | rejected
  | done
  | found (record : Option TokenRecord)
  | marked (taken : Bool)
  | data (value : Option Str)
deriving DecidableEq, Repr

def replyInMemory (now : Nat) (call : StoreCall) (store : InMemoryTokenStore) : Reply × InMemoryTokenStore :=
  let answered := answerStore now call store
  match call, answered.1 with
  | .findByToken _ _, record => (.found record, answered.2)
  | .markConsumed _, taken => (.marked taken, answered.2)
  | .getUserData _ _, value => (.data value, answered.2)
  | _, _ => (.done, answered.2)

def replyDrizzle (now : Nat) (call : StoreCall) (store : DrizzleTokenStore) : Reply × DrizzleTokenStore :=
  match call with
  | .save record => (store.save record).elim (.rejected, store) fun next => (.done, next)
  | .findByToken token type => (.found (store.findByToken token type), store)
  | .markConsumed id => let marked := store.markConsumed id now; (.marked marked.1, marked.2)
  | .deleteExpired => (.done, store.deleteExpired now)
  | .deleteAllForUser userId => (.done, store.deleteAllForUser userId)
  | .saveUserData userId key value =>
    (store.saveUserData userId key value).elim (.rejected, store) fun next => (.done, next)
  | .getUserData userId key => (.data (store.getUserData userId key), store)
  | .deleteUserData userId key => (.done, store.deleteUserData userId key)

/-- A call of a use case. An id to be consumed is the one in the record that an earlier call has found. -/
inductive IssuedCall
  | call (call : StoreCall)
  | consume (earlier : Nat)
deriving DecidableEq, Repr

def IssuedCall.resolve (replies : List Reply) : IssuedCall → Option StoreCall
  | .call made => some made
  | .consume earlier =>
    match replies[earlier]? with
    | some (.found (some record)) => some (.markConsumed record.id)
    | _ => none

/-- The replies of a store to a sequence of calls. -/
def replies {σ : Type} (reply : Nat → StoreCall → σ → Reply × σ) : List (Nat × IssuedCall) →
    List Reply → σ → List Reply
  | [], earlier, _ => earlier
  | (now, issued) :: rest, earlier, store =>
    match issued.resolve earlier with
    | none => replies reply rest (earlier ++ [.rejected]) store
    | some call =>
      let answered := reply now call store
      replies reply rest (earlier ++ [answered.1]) answered.2

/-- Pairs of ids, no id in two of them. -/
structure Renaming where
  pairs : List (Str × Str)
  left : (pairs.map Prod.fst).Nodup
  right : (pairs.map Prod.snd).Nodup

/-- The same reply but for the id of a record that is found. -/
inductive Renaming.Agree (names : Renaming) : Reply → Reply → Prop
  | rejected : names.Agree .rejected .rejected
  | done : names.Agree .done .done
  | marked {taken} : names.Agree (.marked taken) (.marked taken)
  | data {value} : names.Agree (.data value) (.data value)
  | missing : names.Agree (.found none) (.found none)
  | found {record : TokenRecord} {id : Str} (renamed : (record.id, id) ∈ names.pairs) :
      names.Agree (.found (some record)) (.found (some { record with id := id }))

def Date.Valid (date : Date) : Prop := ∃ time ≤ Date.maxTime, date = .ofMs time

/-- The id of a record that is saved. -/
def IssuedCall.savedId : IssuedCall → Option Str
  | .call (.save record) => some record.id
  | _ => none

/-- Calls as the use cases make them: only fresh and unconsumed records are saved, and no id is consumed that
has not been found. -/
structure AsIssued (script : List (Nat × IssuedCall)) : Prop where
  distinct : (script.filterMap (·.2.savedId)).Nodup
  fresh : ∀ now record, (now, .call (.save record)) ∈ script → record.consumedAt = none
  looked : ∀ now id, (now, .call (.markConsumed id)) ∉ script

/-- The dates of the saved records are valid. -/
def Dated (script : List (Nat × IssuedCall)) : Prop :=
  ∀ now record, (now, .call (.save record)) ∈ script → record.expiresAt.Valid ∧ record.createdAt.Valid

/-- Both stores give the same replies to the calls, up to a renaming of the ids. -/
def StoresAgree (script : List (Nat × IssuedCall)) : Prop :=
  ∃ names : Renaming, List.Forall₂ names.Agree (replies replyInMemory script [] .empty)
    (replies replyDrizzle script [] .empty)

section
variable {names : Renaming}

/-- A row that stands for a record. -/
structure RowOf (names : Renaming) (record : TokenRecord) (row : TokenRow) : Prop where
  renamed : (record.id, row.id) ∈ names.pairs
  same : DrizzleTokenStore.record row = { record with id := row.id }
  dated : row.expiresAt ≤ Date.maxTime

/-- The two stores hold the same, but for the ids of the records. -/
structure HoldsSame (names : Renaming) (store : InMemoryTokenStore) (db : DrizzleTokenStore) : Prop where
  rows : List.Forall₂ (RowOf names) store.records db.tokens
  userData : ∀ userId key, store.getUserData userId key = db.getUserData userId key
  drawn : ∀ pair ∈ names.pairs, ∃ index < db.drawn, pair.2 = DrizzleTokenStore.uuid index
  dataIds : ∀ row ∈ db.userData, ∃ index < db.drawn, row.id = DrizzleTokenStore.uuid index

theorem Renaming.same_iff (names : Renaming) {left right left' right' : Str} (one : (left, right) ∈ names.pairs)
    (two : (left', right') ∈ names.pairs) : left = left' ↔ right = right' := by
  constructor
  · intro same
    exact (Prod.mk.inj (List.inj_on_of_nodup_map names.left one two same)).2
  · intro same
    exact (Prod.mk.inj (List.inj_on_of_nodup_map names.right one two same)).1

namespace RowOf
variable {record : TokenRecord} {row : TokenRow} (rowOf : RowOf names record row)
include rowOf

theorem fields : row.userId = record.userId ∧ row.type = record.type ∧ row.tokenHash = record.token ∧
    record.expiresAt = .ofMs row.expiresAt ∧ record.consumedAt = row.consumedAt.map .ofMs := by
  have same := rowOf.same
  simp only [DrizzleTokenStore.record, TokenRecord.mk.injEq] at same
  exact ⟨same.2.1, same.2.2.1, same.2.2.2.1, same.2.2.2.2.1.symm, same.2.2.2.2.2.1.symm⟩

theorem before (now : Nat) : record.expiresAt.before now = decide (row.expiresAt < now) := by
  rw [rowOf.fields.2.2.2.1]
  simp [Date.ofMs, Date.before, rowOf.dated]

end RowOf

/-- `markConsumed` as an update of the records on file. -/
theorem markConsumed_update (store : InMemoryTokenStore) (id : Str) (now : Nat) :
    let cond : TokenRecord → Bool := fun record => record.id = id ∧ record.consumedAt = none
    (store.markConsumed id now).1 = decide (0 < (store.records.filter cond).length) ∧
      (store.markConsumed id now).2.records = store.records.map fun record =>
        if cond record then { record with consumedAt := some (.ofMs now) } else record := by
  intro cond
  rcases markConsumed_cases store id now with ⟨record, member, named, unused, marked, after⟩ | ⟨used, refused⟩
  · constructor
    · have hit : record ∈ store.records.filter cond := List.mem_filter.mpr ⟨member, by simp [cond, named, unused]⟩
      rw [marked, decide_eq_true (List.length_pos_of_mem hit)]
    · rw [after]
      refine List.map_congr_left fun other inStore => ?_
      by_cases same : other.id = id
      · obtain rfl := eq_of_id_eq inStore member (same.trans named.symm)
        simp [consume, cond, same, unused]
      · simp [consume, cond, same]
  · have never (record : TokenRecord) (member : record ∈ store.records) : cond record = false := by
      cases used' : record.consumedAt with
      | none =>
        have other : record.id ≠ id := fun same => by simpa [used'] using used record member same
        simp [cond, other]
      | some date => simp [cond, used']
    rw [refused]
    constructor
    · rw [List.filter_eq_nil_iff.mpr fun record member => by simp [never record member]]
      rfl
    · refine ((List.map_congr_left fun record member => ?_).trans (List.map_id _)).symm
      simp [never record member]

section
variable {store : InMemoryTokenStore} {db : DrizzleTokenStore}

theorem HoldsSame.save (alike : HoldsSame names store db)
    {record : TokenRecord} (fresh : ∀ pair ∈ names.pairs, pair.1 ≠ record.id) (unused : record.consumedAt = none)
    (expires : record.expiresAt.Valid) (created : record.createdAt.Valid) :
    ∃ names' next, db.save record = some next ∧ HoldsSame names' (store.save record) next ∧
      names'.pairs = names.pairs ++ [(record.id, DrizzleTokenStore.uuid db.drawn)] := by
  obtain ⟨expiresAt, expiryBound, expiry⟩ := expires
  obtain ⟨createdAt, creationBound, creation⟩ := created
  have undrawn (pair) (member : pair ∈ names.pairs) : pair.2 ≠ DrizzleTokenStore.uuid db.drawn := by
    obtain ⟨index, low, same⟩ := alike.drawn pair member
    rw [same]
    simp [DrizzleTokenStore.uuid, Nat.ne_of_lt low]
  let names' : Renaming :=
    { pairs := names.pairs ++ [(record.id, DrizzleTokenStore.uuid db.drawn)]
      left := by
        rw [List.map_append]
        refine List.nodup_append.mpr ⟨names.left, List.nodup_singleton _, ?_⟩
        simpa using fun left right member => fresh (left, right) member
      right := by
        rw [List.map_append]
        refine List.nodup_append.mpr ⟨names.right, List.nodup_singleton _, ?_⟩
        simpa using fun right left member => undrawn (left, right) member }
  have more {pair} (member : pair ∈ names.pairs) : pair ∈ names'.pairs := List.mem_append_left _ member
  let row : TokenRow :=
    ⟨DrizzleTokenStore.uuid db.drawn, record.userId, record.type,
      hashToken record.token, expiresAt, none, createdAt⟩
  have inserted : Sql.insert TokenRow.id row db.tokens = some (db.tokens ++ [row]) := by
    refine Sql.insert_of_fresh fun old member => ?_
    obtain ⟨_, _, rowOf⟩ := Sql.related_of_mem alike.rows member
    exact undrawn _ rowOf.renamed
  refine ⟨names', { db with tokens := db.tokens ++ [row], drawn := db.drawn + 1 }, ?_, ?_, rfl⟩
  · simp [DrizzleTokenStore.save, expiry, creation, Date.ofMs, expiryBound, creationBound, row, inserted]
  · have unsaved : ∀ old ∈ store.records, old.id ≠ record.id := by
      intro old member
      obtain ⟨_, _, rowOf⟩ := Sql.related_of_mem alike.rows.flip member
      exact fresh _ rowOf.renamed
    constructor
    · rw [save_records_of_fresh unsaved]
      refine List.rel_append (alike.rows.imp fun old row rowOf => ⟨more rowOf.renamed, rowOf.same, rowOf.dated⟩) ?_
      refine .cons ⟨List.mem_append_right _ (List.mem_singleton_self _), ?_, expiryBound⟩ .nil
      simp [DrizzleTokenStore.record, row, unused, expiry, creation]
    · exact alike.userData
    · intro pair member
      rcases List.mem_append.mp member with old | new
      · obtain ⟨index, low, same⟩ := alike.drawn pair old
        exact ⟨index, Nat.lt_succ_of_lt low, same⟩
      · rw [List.mem_singleton.mp new]
        exact ⟨db.drawn, Nat.lt_succ_self _, rfl⟩
    · intro row member
      obtain ⟨index, low, same⟩ := alike.dataIds row member
      exact ⟨index, Nat.lt_succ_of_lt low, same⟩

theorem HoldsSame.findByToken (alike : HoldsSame names store db) (token : Str) (type : TokenType) :
    names.Agree (.found (store.findByToken token type)) (.found (db.findByToken token type)) := by
  have found := Sql.find?_related alike.rows (p := fun record =>
    record.token = hashToken token ∧ record.type = type)
    (q := fun row => row.tokenHash = hashToken token ∧ row.type = type) fun record row rowOf => by
      simp only [rowOf.fields]
  rw [findByToken_eq, DrizzleTokenStore.findByToken, Sql.selectFirst]
  generalize (store.records.find? fun record => decide (record.token = hashToken token ∧
    record.type = type)) = record,
    (db.tokens.find? fun row => decide (row.tokenHash = hashToken token ∧ row.type = type)) = row at found ⊢
  cases found with
  | none => exact .missing
  | some rowOf =>
    simp only [Option.map_some, rowOf.same]
    exact .found rowOf.renamed

theorem HoldsSame.deleteRecords (alike : HoldsSame names store db)
    {doomed : TokenRecord → Bool} {cond : TokenRow → Bool}
    (same : ∀ record row, RowOf names record row → doomed record = cond row) :
    HoldsSame names (store.deleteRecords doomed) { db with tokens := Sql.delete cond db.tokens } where
  rows := by
    rw [deleteRecords_records, Sql.delete]
    exact List.rel_filter (fun record row rowOf => by simp only [same record row rowOf]) alike.rows
  userData := alike.userData
  drawn := alike.drawn
  dataIds := alike.dataIds

theorem HoldsSame.markConsumed (alike : HoldsSame names store db) {id other : Str}
    (renamed : (id, other) ∈ names.pairs)
    (now : Nat) :
    (store.markConsumed id now).1 = (db.markConsumed other now).1 ∧
      HoldsSame names (store.markConsumed id now).2 (db.markConsumed other now).2 := by
  obtain ⟨answer, after⟩ := markConsumed_update store id now
  have same {record : TokenRecord} {row : TokenRow} (rowOf : RowOf names record row) :
      (record.id = id ∧ record.consumedAt = none) ↔ (row.id = other ∧ row.consumedAt = none) := by
    rw [names.same_iff rowOf.renamed renamed, rowOf.fields.2.2.2.2, Option.map_eq_none_iff]
  constructor
  · rw [answer, DrizzleTokenStore.markConsumed, Sql.update]
    have length := (List.rel_filter (p := fun record => record.id = id ∧ record.consumedAt = none)
      (q := fun row => row.id = other ∧ row.consumedAt = none)
      (fun record row rowOf => by simpa using same rowOf) alike.rows).length_eq
    rw [length]
  · refine ⟨?_, fun userId key => ?_, alike.drawn, alike.dataIds⟩
    · rw [after, DrizzleTokenStore.markConsumed, Sql.update]
      refine List.rel_map (fun record row rowOf => ?_) alike.rows
      by_cases hit : record.id = id ∧ record.consumedAt = none
      · simp only [decide_eq_true_eq, if_pos hit, if_pos ((same rowOf).mp hit)]
        refine ⟨rowOf.renamed, ?_, rowOf.dated⟩
        have fields := rowOf.same
        simp only [DrizzleTokenStore.record, TokenRecord.mk.injEq] at fields
        simp [DrizzleTokenStore.record, fields]
      · have miss : ¬ (row.id = other ∧ row.consumedAt = none) := fun there => hit ((same rowOf).mpr there)
        simpa [hit, miss] using rowOf
    · rw [getUserData_markConsumed]
      exact alike.userData userId key

theorem HoldsSame.saveUserData (alike : HoldsSame names store db) (userId key : String) (value : Str) :
    ∃ next, db.saveUserData userId key value = some next ∧
      HoldsSame names (store.saveUserData userId key value) next := by
  obtain ⟨after, saved, selects⟩ := @Sql.selectFirst_insertOrUpdate _ _ _ _ _ _ UserDataRow.id
    DrizzleTokenStore.target ⟨DrizzleTokenStore.uuid db.drawn, userId, key, value⟩
    (fun row => { row with value := value }) db.userData UserDataRow.value
    (fun old member => by
      obtain ⟨index, low, same⟩ := alike.dataIds old member
      rw [same]
      simp [DrizzleTokenStore.uuid, Nat.ne_of_lt low])
    (fun _ => rfl) fun _ => rfl
  refine ⟨{ db with userData := after, drawn := db.drawn + 1 }, by simp [DrizzleTokenStore.saveUserData, saved],
    alike.rows, fun user name => ?_, ?_, ?_⟩
  · rw [DrizzleTokenStore.getUserData, selects]
    change _ = if (userId, key) = (user, name) then _ else _
    by_cases same : (userId, key) = (user, name)
    · obtain ⟨rfl, rfl⟩ := Prod.mk.inj same
      simp
    · rw [getUserData_saveUserData_other, if_neg same, alike.userData, DrizzleTokenStore.getUserData]
      by_contra both
      simp only [not_or, not_not] at both
      exact same (by rw [both.1, both.2])
  · intro pair member
    obtain ⟨index, low, same⟩ := alike.drawn pair member
    exact ⟨index, Nat.lt_succ_of_lt low, same⟩
  · intro row member
    rcases Sql.mem_of_insertOrUpdate saved member with rfl | old | ⟨old, inTable, rfl⟩
    · exact ⟨db.drawn, Nat.lt_succ_self _, rfl⟩
    · obtain ⟨index, low, same⟩ := alike.dataIds row old
      exact ⟨index, Nat.lt_succ_of_lt low, same⟩
    · obtain ⟨index, low, same⟩ := alike.dataIds old inTable
      exact ⟨index, Nat.lt_succ_of_lt low, same⟩

theorem HoldsSame.deleteUserData (alike : HoldsSame names store db) (userId key : String) :
    HoldsSame names (store.deleteUserData userId key) (db.deleteUserData userId key) where
  rows := by
    rw [deleteUserData_records]
    exact alike.rows
  userData user name := by
    rw [DrizzleTokenStore.getUserData, DrizzleTokenStore.deleteUserData, Sql.selectFirst_delete]
    by_cases same : (userId, key) = (user, name)
    · obtain ⟨rfl, rfl⟩ := Prod.mk.inj same
      simp
    · rw [getUserData_deleteUserData_other, if_neg same, alike.userData, DrizzleTokenStore.getUserData]
      by_contra both
      simp only [not_or, not_not] at both
      exact same (by rw [both.1, both.2])
  drawn := alike.drawn
  dataIds row member := alike.dataIds row (List.mem_filter.mp member).1

end

/-- The same call, or the consumption of a record under its two ids. -/
inductive Renaming.Call (names : Renaming) : StoreCall → StoreCall → Prop
  | same {call : StoreCall} (looked : ∀ id, call ≠ .markConsumed id)
      (fresh : ∀ record, call = .save record → (∀ pair ∈ names.pairs, pair.1 ≠ record.id) ∧
        record.consumedAt = none ∧ record.expiresAt.Valid ∧ record.createdAt.Valid) : names.Call call call
  | consume {id other : Str} (renamed : (id, other) ∈ names.pairs) :
      names.Call (.markConsumed id) (.markConsumed other)

/-- One call on both sides: the replies agree, and the stores stay alike. -/
theorem HoldsSame.step {store : InMemoryTokenStore} {db : DrizzleTokenStore} (alike : HoldsSame names store db)
    (now : Nat) {call other : StoreCall} (called : names.Call call other) :
    ∃ names' : Renaming, names.pairs ⊆ names'.pairs ∧
      (∀ pair ∈ names'.pairs, pair ∈ names.pairs ∨ ∃ record, call = .save record ∧ pair.1 = record.id) ∧
      names'.Agree (replyInMemory now call store).1 (replyDrizzle now other db).1 ∧
      HoldsSame names' (replyInMemory now call store).2 (replyDrizzle now other db).2 := by
  cases called with
  | consume renamed =>
    obtain ⟨answer, after⟩ := alike.markConsumed renamed now
    refine ⟨names, List.Subset.refl _, fun _ => .inl, ?_, after⟩
    simp only [replyInMemory, replyDrizzle, answerStore, answer]
    exact .marked
  | same looked fresh =>
    cases call with
    | save record =>
      obtain ⟨unsaved, unused, expires, created⟩ := fresh record rfl
      obtain ⟨names', next, saved, after, pairs⟩ := alike.save unsaved unused expires created
      refine ⟨names', by rw [pairs]; exact List.subset_append_left .., fun pair member => ?_, ?_, ?_⟩
      · rw [pairs] at member
        rcases List.mem_append.mp member with old | new
        · exact .inl old
        · exact .inr ⟨record, rfl, by rw [List.mem_singleton.mp new]⟩
      · simp only [replyDrizzle, saved, Option.elim_some]
        exact .done
      · simp only [replyDrizzle, saved, Option.elim_some]
        exact after
    | findByToken token type =>
      exact ⟨names, List.Subset.refl _, fun _ => .inl, alike.findByToken token type, alike⟩
    | markConsumed id => exact absurd rfl (looked id)
    | deleteExpired =>
      exact ⟨names, List.Subset.refl _, fun _ => .inl, .done, alike.deleteRecords fun _ _ rowOf => rowOf.before now⟩
    | deleteAllForUser userId =>
      exact ⟨names, List.Subset.refl _, fun _ => .inl, .done,
        alike.deleteRecords fun _ _ rowOf => by rw [rowOf.fields.1]⟩
    | saveUserData userId key value =>
      obtain ⟨next, saved, after⟩ := alike.saveUserData userId key value
      refine ⟨names, List.Subset.refl _, fun _ => .inl, ?_, ?_⟩
      · simp only [replyDrizzle, saved, Option.elim_some]
        exact .done
      · simp only [replyDrizzle, saved, Option.elim_some]
        exact after
    | getUserData userId key =>
      refine ⟨names, List.Subset.refl _, fun _ => .inl, ?_, alike⟩
      simp only [replyInMemory, replyDrizzle, answerStore, alike.userData]
      exact .data
    | deleteUserData userId key =>
      exact ⟨names, List.Subset.refl _, fun _ => .inl, .done, alike.deleteUserData userId key⟩

theorem Renaming.Agree.mono {names' : Renaming} {left right : Reply} (more : names.pairs ⊆ names'.pairs)
    (agree : names.Agree left right) : names'.Agree left right := by
  cases agree with
  | rejected => exact .rejected
  | done => exact .done
  | marked => exact .marked
  | data => exact .data
  | missing => exact .missing
  | found renamed => exact .found (more renamed)

theorem AsIssued.rest {first : Nat × IssuedCall} {script : List (Nat × IssuedCall)}
    (issued : AsIssued (first :: script)) : AsIssued script where
  distinct := issued.distinct.sublist ((List.sublist_cons_self ..).filterMap _)
  fresh now record member := issued.fresh now record (List.mem_cons_of_mem _ member)
  looked now id member := issued.looked now id (List.mem_cons_of_mem _ member)

/-- What a caller asks of the two stores corresponds, since their replies have agreed. -/
theorem resolve_agree {earlier earlier' : List Reply} (agree : List.Forall₂ names.Agree earlier earlier')
    {issued : IssuedCall} (looked : ∀ id, issued ≠ .call (.markConsumed id))
    (fresh : ∀ record, issued = .call (.save record) → (∀ pair ∈ names.pairs, pair.1 ≠ record.id) ∧
      record.consumedAt = none ∧ record.expiresAt.Valid ∧ record.createdAt.Valid) :
    Option.Rel names.Call (issued.resolve earlier) (issued.resolve earlier') := by
  cases issued with
  | call made =>
    refine .some (.same (fun id same => looked id (by rw [same])) fun record same => fresh record (by rw [same]))
  | consume index =>
    have replied := Sql.getElem?_related agree index
    simp only [IssuedCall.resolve]
    generalize earlier[index]? = left, earlier'[index]? = right at replied ⊢
    cases replied with
    | none => exact .none
    | some agree =>
      cases agree with
      | found renamed => exact .some (.consume renamed)
      | _ => exact .none

/-- By induction on the calls: the ids of the records that are still to be saved are in no pair. -/
theorem replies_agree {script : List (Nat × IssuedCall)} (issued : AsIssued script) (dated : Dated script)
    {store : InMemoryTokenStore} {db : DrizzleTokenStore} (alike : HoldsSame names store db)
    {earlier earlier' : List Reply}
    (agree : List.Forall₂ names.Agree earlier earlier')
    (unsaved : ∀ pair ∈ names.pairs, pair.1 ∉ script.filterMap (·.2.savedId)) :
    ∃ names' : Renaming, List.Forall₂ names'.Agree (replies replyInMemory script earlier store)
      (replies replyDrizzle script earlier' db) := by
  induction script generalizing names store db earlier earlier' with
  | nil => exact ⟨names, agree⟩
  | cons first rest ih =>
    obtain ⟨now, made⟩ := first
    have later (pair) (member : pair ∈ names.pairs) : pair.1 ∉ rest.filterMap (·.2.savedId) :=
      fun saved => unsaved pair member (((List.sublist_cons_self ..).filterMap _).subset saved)
    have asked := @resolve_agree names _ _ agree made
      (fun id same => issued.looked now id (by rw [same]; exact List.mem_cons_self ..)) fun record same => by
        have saving : (now, .call (.save record)) ∈ (now, made) :: rest := by
          rw [same]
          exact List.mem_cons_self ..
        refine ⟨fun pair member saved => unsaved pair member ?_,
          issued.fresh now record saving, dated now record saving⟩
        rw [saved]
        simp [same, IssuedCall.savedId]
    have restDated : Dated rest := fun now record member => dated now record (List.mem_cons_of_mem _ member)
    simp only [replies]
    generalize left : made.resolve earlier = call, made.resolve earlier' = call' at asked ⊢
    cases asked with
    | none => exact ih issued.rest restDated alike (List.rel_append agree (.cons .rejected .nil)) later
    | @some call other called =>
      obtain ⟨names', more, added, reply, after⟩ := alike.step now called
      refine ih issued.rest restDated after
        (List.rel_append (agree.imp fun _ _ same => same.mono more) (.cons reply .nil)) fun pair member => ?_
      rcases added pair member with old | ⟨record, rfl, same⟩
      · exact later pair old
      · have saves : made.savedId = some record.id := by
          cases made with
          | call made => cases left; rfl
          | consume index =>
            simp only [IssuedCall.resolve] at left
            split at left <;> cases left
        have distinct := issued.distinct
        simp only [List.filterMap_cons, saves] at distinct
        rw [same]
        exact (List.nodup_cons.mp distinct).1

end

/-- The stores agree on all records with valid dates. -/
theorem drizzle_store_agrees {script : List (Nat × IssuedCall)} (issued : AsIssued script) (dated : Dated script) :
    StoresAgree script := by
  have none {pair : Str × Str} (member : pair ∈ (⟨[], .nil, .nil⟩ : Renaming).pairs) : False := by cases member
  exact replies_agree issued dated ⟨.nil, fun _ _ => rfl, fun _ member => (none member).elim,
    fun _ member => by cases member⟩ .nil fun _ member => (none member).elim

namespace Sample

/-- Ann's link is saved, looked up and taken twice. -/
def linkPresented : List (Nat × IssuedCall) :=
  [(1000, .call (.save ⟨.random ⟨1, 0⟩, "ann", .magicLink, .random ⟨1, 1⟩, .ofMs 901000, none, .ofMs 1000⟩)),
    (2000, .call (.findByToken (.random ⟨1, 1⟩) .magicLink)), (2000, .consume 1), (2001, .consume 1)]

theorem drizzle_store_agrees_linkPresented : StoresAgree linkPresented := by
  have saved {now : Nat} {record : TokenRecord} (member : (now, .call (.save record)) ∈ linkPresented) :
      record = ⟨.random ⟨1, 0⟩, "ann", .magicLink, .random ⟨1, 1⟩, .ofMs 901000, none, .ofMs 1000⟩ := by
    simp only [linkPresented, List.mem_cons, Prod.mk.injEq, IssuedCall.call.injEq, StoreCall.save.injEq,
      reduceCtorEq, and_false, List.not_mem_nil, or_false] at member
    exact member.2
  refine drizzle_store_agrees ⟨by decide, fun now record member => ?_, fun now id member => ?_⟩
    fun now record member => ?_
  · rw [saved member]
  · simp [linkPresented] at member
  · rw [saved member]
    exact ⟨⟨901000, by decide, rfl⟩, ⟨1000, by decide, rfl⟩⟩

/-- A session with a lifetime that leads to no date. -/
def undatedSaved : List (Nat × IssuedCall) :=
  [(1000, .call (.save ⟨.random ⟨1, 0⟩, "ann", .refreshToken, .random ⟨1, 1⟩, .ofMs (Date.maxTime + 1), none,
    .ofMs 1000⟩))]

/-- It is saved in memory, but not by a statement that lacks a value for a column that must have one. -/
theorem drizzle_store_not_agrees : ¬ ∀ script, AsIssued script → StoresAgree script := by
  intro agree
  have issued : AsIssued undatedSaved := by
    refine ⟨by decide, fun now record member => ?_, fun now id member => ?_⟩
    · simp only [undatedSaved, List.mem_singleton, Prod.mk.injEq, IssuedCall.call.injEq,
        StoreCall.save.injEq] at member
      rw [member.2]
    · simp [undatedSaved] at member
  obtain ⟨names, agreed⟩ := agree undatedSaved issued
  have inMemory : replies replyInMemory undatedSaved [] .empty = [.done] := by decide +kernel
  have drizzle : replies replyDrizzle undatedSaved [] .empty = [.rejected] := by decide +kernel
  rw [inMemory, drizzle] at agreed
  cases agreed with
  | cons first => cases first

end Sample

end KeycloakAuth
