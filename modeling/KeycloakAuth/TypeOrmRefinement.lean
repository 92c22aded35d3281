import KeycloakAuth.ConformingStore
import KeycloakAuth.TypeOrmLinearization

namespace KeycloakAuth
open Async TypeOrmTokenStore InMemoryTokenStore

/-- The replies of the in-memory store to calls that are served one after the other. -/
def servedInMemory (calls : List (Nat × StoreCall)) : List Reply × InMemoryTokenStore :=
  calls.foldl (fun served call => let answered := replyInMemory call.1 call.2 served.2
    (served.1 ++ [answered.1], answered.2)) ([], .empty)

theorem servedInMemory_concat (calls : List (Nat × StoreCall)) (call : Nat × StoreCall) :
    servedInMemory (calls ++ [call]) =
      ((servedInMemory calls).1 ++ [(replyInMemory call.1 call.2 (servedInMemory calls).2).1],
        (replyInMemory call.1 call.2 (servedInMemory calls).2).2) := by
  rw [servedInMemory, List.foldl_append]
  rfl

theorem Renaming.Agree.named {names : Renaming} {reply : Reply} {record : TokenRecord}
    (agree : names.Agree reply (.found (some record))) : ∃ id, (id, record.id) ∈ names.pairs := by
  cases agree with
  | found renamed => exact ⟨_, renamed⟩

/-- A call as the use cases make it, after those that were taken before: only fresh and unconsumed records that
expire no later than `last` are saved, and no id is consumed that has not been found. -/
def Heeds (last : Nat) (before : List TakenCall) (taken : TakenCall) : Prop :=
  taken.time ≤ last ∧
  match taken.request with
  | .save saved => (∀ earlier ∈ before, ∀ other, earlier.request = .save other → other.id ≠ saved.id) ∧
      saved.consumedAt = none ∧ ∃ time ≤ last, saved.expiresAt = .ofMs time
  | .markConsumed id => ∃ finder ∈ before, ∃ record, finder.result = .found (some record) ∧ record.id = id
  | _ => True

/-- A row that stands for a record. -/
structure EntityOf (last : Nat) (names : Renaming) (record : TokenRecord) (row : TokenEntity) : Prop where
  renamed : (record.id, row.id) ∈ names.pairs
  same : TypeOrmTokenStore.record row = { record with id := row.id }
  dated : ∃ time ≤ last, row.expiresAt = .ofMs time

/-- The database holds what the in-memory store holds after the same calls, but for the ids of the records. -/
structure HoldsAlike (last : Nat) (names : Renaming) (store : InMemoryTokenStore)
    (db : Database) (order : List TakenCall) :
    Prop where
  rows : List.Forall₂ (EntityOf last names) store.records db.tokens
  userData : ∀ userId key, store.getUserData userId key =
    (Sql.selectFirst (fun row => row.target = (userId, key)) db.userData).map UserDataEntity.value
  ids : (db.userData.map UserDataEntity.id).Nodup
  saved : ∀ pair ∈ names.pairs, ∃ taken ∈ order, ∃ other, taken.request = .save other ∧ other.id = pair.1
  drawn : ∀ pair ∈ names.pairs, DrawnBy order pair.2
  found : ∀ taken ∈ order, ∀ record, taken.result = .found (some record) → ∃ id, (id, record.id) ∈ names.pairs

section
variable {last : Nat} {names : Renaming} {earlier : Date → Nat → Bool}
  {store : InMemoryTokenStore} {db after : Database}
  {order : List TakenCall} {taken : TakenCall}

namespace EntityOf
variable {record : TokenRecord} {row : TokenEntity} (entity : EntityOf last names record row)
include entity

theorem fields : row.userId = record.userId ∧ row.type = record.type ∧ row.tokenHash = record.token ∧
    row.expiresAt = record.expiresAt ∧ row.consumedAt = record.consumedAt := by
  have same := entity.same
  simp only [TypeOrmTokenStore.record, TokenRecord.mk.injEq] at same
  exact ⟨same.2.1, same.2.2.1, same.2.2.2.1, same.2.2.2.2.1, same.2.2.2.2.2.1⟩

end EntityOf

/-- What a call that changes no records, and finds none, leaves to be shown. -/
theorem HoldsAlike.keep (alike : HoldsAlike last names store db order) {next : InMemoryTokenStore}
    (rows : List.Forall₂ (EntityOf last names) next.records after.tokens)
    (userData : ∀ userId key, next.getUserData userId key =
      (Sql.selectFirst (fun row => row.target = (userId, key)) after.userData).map UserDataEntity.value)
    (ids : (after.userData.map UserDataEntity.id).Nodup)
    (found : ∀ record, taken.result = .found (some record) → ∃ id, (id, record.id) ∈ names.pairs) :
    HoldsAlike last names next after (order ++ [taken]) where
  rows := rows
  userData := userData
  ids := ids
  saved pair member := by
    obtain ⟨earlier, inOrder, saves⟩ := alike.saved pair member
    exact ⟨earlier, List.mem_append_left _ inOrder, saves⟩
  drawn pair member := (alike.drawn pair member).mono
  found other member record := by
    rcases List.mem_append.mp member with old | new
    · exact alike.found other old record
    · exact List.mem_singleton.mp new ▸ found record

theorem HoldsAlike.save (alike : HoldsAlike last names store db order) {saved : TokenRecord} {index now : Nat}
    (untaken : index ∉ order.map (·.thread)) (heeds : Heeds last order ⟨index, now, .save saved, .done⟩) :
    ∃ names', names.pairs ⊆ names'.pairs ∧
      HoldsAlike last names' (store.save saved)
        { db with tokens := db.tokens ++ [⟨.random ⟨index, 0⟩, saved.userId, saved.type, hashToken saved.token,
          saved.expiresAt, none, saved.createdAt⟩] } (order ++ [⟨index, now, .save saved, .done⟩]) := by
  obtain ⟨-, unsaved, unused, dated⟩ := heeds
  have fresh (pair) (member : pair ∈ names.pairs) : pair.1 ≠ saved.id := by
    obtain ⟨taken, inOrder, other, asked, same⟩ := alike.saved pair member
    exact same ▸ unsaved taken inOrder other asked
  have undrawn (pair) (member : pair ∈ names.pairs) : pair.2 ≠ .random ⟨index, 0⟩ :=
    (alike.drawn pair member).fresh untaken
  let names' := names.extend fresh undrawn
  have more : names.pairs ⊆ names'.pairs := List.subset_append_left ..
  have own : (saved.id, .random ⟨index, 0⟩) ∈ names'.pairs := List.mem_append_right _ (List.mem_singleton_self _)
  have absent : ∀ old ∈ store.records, old.id ≠ saved.id := by
    intro old member
    obtain ⟨_, _, entity⟩ := Sql.related_of_mem alike.rows.flip member
    exact fresh _ entity.renamed
  refine ⟨names', more, ?_⟩
  constructor
  · rw [save_records_of_fresh absent]
    refine List.rel_append (alike.rows.imp fun _ _ entity => ⟨more entity.renamed, entity.same, entity.dated⟩) ?_
    refine .cons ⟨own, ?_, dated⟩ .nil
    simp [TypeOrmTokenStore.record, unused]
  · exact alike.userData
  · exact alike.ids
  · intro pair member
    rcases List.mem_append.mp member with old | new
    · obtain ⟨taken, inOrder, saves⟩ := alike.saved pair old
      exact ⟨taken, List.mem_append_left _ inOrder, saves⟩
    · rw [List.mem_singleton.mp new]
      exact ⟨_, List.mem_append_right _ (List.mem_singleton_self _), saved, rfl, rfl⟩
  · intro pair member
    rcases List.mem_append.mp member with old | new
    · exact (alike.drawn pair old).mono
    · rw [List.mem_singleton.mp new]
      exact ⟨_, List.mem_append_right _ (List.mem_singleton_self _), rfl⟩
  · intro taken member record found
    rcases List.mem_append.mp member with old | new
    · obtain ⟨id, renamed⟩ := alike.found taken old record found
      exact ⟨id, more renamed⟩
    · rw [List.mem_singleton.mp new] at found
      cases found

theorem HoldsAlike.findByToken (alike : HoldsAlike last names store db order) (token : Str) (type : TokenType) :
    names.Agree (.found (store.findByToken token type))
      (.found ((Sql.selectFirst (fun row => row.tokenHash = hashToken token ∧ row.type = type) db.tokens).map
        TypeOrmTokenStore.record)) := by
  have found := Sql.find?_related alike.rows (p := fun record =>
    record.token = hashToken token ∧ record.type = type)
    (q := fun row => row.tokenHash = hashToken token ∧ row.type = type) fun record row entity => by
      simp only [entity.fields]
  rw [findByToken_eq, Sql.selectFirst]
  generalize (store.records.find? fun record => decide (record.token = hashToken token ∧
    record.type = type)) = record,
    (db.tokens.find? fun row => decide (row.tokenHash = hashToken token ∧ row.type = type)) = row at found ⊢
  cases found with
  | none => exact .missing
  | some entity =>
    simp only [Option.map_some, entity.same]
    exact .found entity.renamed

theorem HoldsAlike.markConsumed (alike : HoldsAlike last names store db order) {id other : Str}
    (renamed : (id, other) ∈ names.pairs) (now : Nat) :
    let updated := Sql.update (fun row : TokenEntity => row.id = other ∧ row.consumedAt = none)
      (fun row => { row with consumedAt := some (.ofMs now) }) db.tokens
    (store.markConsumed id now).1 = decide (0 < updated.1.length) ∧
      List.Forall₂ (EntityOf last names) (store.markConsumed id now).2.records updated.2 := by
  intro updated
  obtain ⟨answer, after⟩ := markConsumed_update store id now
  have same {record : TokenRecord} {row : TokenEntity} (entity : EntityOf last names record row) :
      (record.id = id ∧ record.consumedAt = none) ↔ (row.id = other ∧ row.consumedAt = none) := by
    rw [names.same_iff entity.renamed renamed, entity.fields.2.2.2.2]
  constructor
  · have length := (List.rel_filter (p := fun record => record.id = id ∧ record.consumedAt = none)
      (q := fun row : TokenEntity => row.id = other ∧ row.consumedAt = none)
      (fun record row entity => by simpa using same entity) alike.rows).length_eq
    rw [answer, length]
    rfl
  · rw [after]
    refine List.rel_map (fun record row entity => ?_) alike.rows
    by_cases hit : record.id = id ∧ record.consumedAt = none
    · simp only [decide_eq_true_eq, if_pos hit, if_pos ((same entity).mp hit)]
      refine ⟨entity.renamed, ?_, entity.dated⟩
      have fields := entity.same
      simp only [TypeOrmTokenStore.record, TokenRecord.mk.injEq] at fields
      simp [TypeOrmTokenStore.record, fields]
    · have miss : ¬ (row.id = other ∧ row.consumedAt = none) := fun there => hit ((same entity).mpr there)
      simpa [hit, miss] using entity

theorem HoldsAlike.deleteRecords (alike : HoldsAlike last names store db order) {doomed : TokenRecord → Bool}
    {cond : TokenEntity → Bool} (same : ∀ record row, EntityOf last names record row → doomed record = cond row) :
    List.Forall₂ (EntityOf last names) (store.deleteRecords doomed).records (Sql.delete cond db.tokens) := by
  rw [deleteRecords_records, Sql.delete]
  exact List.rel_filter (fun record row entity => by simp only [same record row entity]) alike.rows

theorem getUserData_put {userId key user name : String} {value : Str} {found : Option Str}
    (alike : store.getUserData user name = found) :
    (store.saveUserData userId key value).getUserData user name =
      if (userId, key) = (user, name) then some value else found := by
  by_cases same : (userId, key) = (user, name)
  · obtain ⟨rfl, rfl⟩ := Prod.mk.inj same
    simp
  · rw [getUserData_saveUserData_other, if_neg same, alike]
    by_contra both
    simp only [not_or, not_not] at both
    exact same (by rw [both.1, both.2])

/-- `saveUserData` in one instant, when it does not fail. -/
theorem HoldsAlike.saveUserData (alike : HoldsAlike last names store db order) {index now drawn : Nat}
    {userId key : String} {value : Str} {result : Reply}
    (evaluated : (method (.saveUserData userId key value)).eval (execute earlier) now index 0 db =
      ⟨.ok result, drawn, after⟩) :
    result = .done ∧ after.tokens = db.tokens ∧ (after.userData.map UserDataEntity.id).Nodup ∧
      ∀ user name, (store.saveUserData userId key value).getUserData user name =
        (Sql.selectFirst (fun row => row.target = (user, name)) after.userData).map UserDataEntity.value := by
  cases existing : Sql.selectFirst (fun row => row.target = (userId, key)) db.userData with
  | some row =>
    rw [eval_saveUserData_some existing] at evaluated
    cases evaluated
    refine ⟨rfl, rfl, ?_, fun user name => ?_⟩
    · simp only [execute, Sql.update, List.map_map]
      convert alike.ids using 2
      funext old
      simp only [Function.comp_apply]
      split <;> rfl
    · rw [getUserData_put (alike.userData user name)]
      exact (@Sql.selectFirst_update _ _ _ _ _ _ UserDataEntity.id UserDataEntity.target row
        (fun old => { old with value }) db.userData (userId, key) UserDataEntity.value value alike.ids existing
        (fun _ => rfl) (fun _ => rfl) (user, name)).symm
  | none =>
    cases put : execute earlier (.insertUserData ⟨.random ⟨index, 0⟩, userId, key, value⟩) db with
    | mk answer next =>
      rw [eval_saveUserData_none existing put] at evaluated
      cases answer with
      | error error => cases evaluated
      | ok done =>
        cases evaluated
        obtain ⟨rfl, -, ids⟩ := insertUserData_ok put
        refine ⟨rfl, rfl, ?_, fun user name => ?_⟩
        · rw [List.map_append]
          exact List.nodup_append.mpr ⟨alike.ids, List.nodup_singleton _, by simpa using ids⟩
        · rw [getUserData_put (alike.userData user name)]
          have selects := @Sql.selectFirst_concat _ _ _ UserDataEntity.target
            ⟨.random ⟨index, 0⟩, userId, key, value⟩ db.userData existing (user, name)
          simp only [selects]
          by_cases same : (userId, key) = (user, name) <;> simp [UserDataEntity.target, same]

theorem HoldsAlike.deleteUserData (alike : HoldsAlike last names store db order) (userId key user name : String) :
    (store.deleteUserData userId key).getUserData user name =
      (Sql.selectFirst (fun row => row.target = (user, name))
        (Sql.delete (fun row => row.target = (userId, key)) db.userData)).map UserDataEntity.value := by
  rw [Sql.selectFirst_delete]
  by_cases same : (userId, key) = (user, name)
  · obtain ⟨rfl, rfl⟩ := Prod.mk.inj same
    simp
  · rw [getUserData_deleteUserData_other, if_neg same, alike.userData]
    by_contra both
    simp only [not_or, not_not] at both
    exact same (by rw [both.1, both.2])

/-- One call in both stores: the replies agree, and what is held stays alike. -/
theorem HoldsAlike.step (alike : HoldsAlike last names store db order)
    (compares : ∀ expiresAt now, expiresAt ≤ last → now ≤ last →
      earlier (.ofMs expiresAt) now = (Date.ofMs expiresAt).before now)
    (untaken : taken.thread ∉ order.map (·.thread)) (heeds : Heeds last order taken) {drawn : Nat}
    (evaluated : (method taken.request).eval (execute earlier) taken.time taken.thread 0 db =
      ⟨.ok taken.result, drawn, after⟩) :
    ∃ names' call, names.pairs ⊆ names'.pairs ∧ names'.Made call taken.request ∧
      names'.Agree (replyInMemory taken.time call store).1 taken.result ∧
      HoldsAlike last names' (replyInMemory taken.time call store).2 after (order ++ [taken]) := by
  obtain ⟨index, now, request, result⟩ := taken
  change (method request).eval (execute earlier) now index 0 db = ⟨.ok result, drawn, after⟩ at evaluated
  have all : names.pairs ⊆ names.pairs := List.Subset.refl _
  cases request with
  | save saved =>
    cases put : execute earlier (.insertToken ⟨.random ⟨index, 0⟩, saved.userId, saved.type, hashToken saved.token,
      saved.expiresAt, none, saved.createdAt⟩) db with
    | mk answer next =>
      rw [eval_save put] at evaluated
      cases answer with
      | error error => cases evaluated
      | ok done =>
        cases evaluated
        obtain ⟨names', more, held⟩ := alike.save untaken heeds
        obtain rfl := insertToken_ok put
        exact ⟨names', .save saved, more, .same (by simp), .done, held⟩
  | findByToken token type =>
    cases evaluated
    have agree := alike.findByToken token type
    refine ⟨names, .findByToken token type, all, .same (by simp), agree,
      alike.keep alike.rows alike.userData alike.ids ?_⟩
    intro record found
    simp only at found
    rw [found] at agree
    exact agree.named
  | markConsumed id =>
    cases evaluated
    obtain ⟨-, finder, inOrder, record, found, rfl⟩ := heeds
    obtain ⟨id, renamed⟩ := alike.found finder inOrder record found
    obtain ⟨marked, rows⟩ := alike.markConsumed renamed now
    refine ⟨names, .markConsumed id, all, .consume renamed, ?_, alike.keep rows ?_ alike.ids (by simp)⟩
    · simp only [replyInMemory, answerStore, marked]
      exact .marked
    · intro user name
      exact (getUserData_markConsumed ..).trans (alike.userData user name)
  | deleteExpired =>
    cases evaluated
    refine ⟨names, .deleteExpired, all, .same (by simp), .done,
      alike.keep (alike.deleteRecords ?_) alike.userData alike.ids (by simp)⟩
    intro record row entity
    obtain ⟨time, bound, expires⟩ := entity.dated
    rw [← entity.fields.2.2.2.1, expires]
    exact (compares time now bound heeds.1).symm
  | deleteAllForUser userId =>
    cases evaluated
    refine ⟨names, .deleteAllForUser userId, all, .same (by simp), .done,
      alike.keep (alike.deleteRecords fun record row entity => ?_) alike.userData alike.ids (by simp)⟩
    rw [entity.fields.1]
  | saveUserData userId key value =>
    obtain ⟨rfl, tokens, ids, userData⟩ := alike.saveUserData evaluated
    exact ⟨names, .saveUserData userId key value, all, .same (by simp), .done,
      alike.keep (tokens ▸ alike.rows) userData ids (by simp)⟩
  | getUserData userId key =>
    cases evaluated
    refine ⟨names, .getUserData userId key, all, .same (by simp), ?_,
      alike.keep alike.rows alike.userData alike.ids (by simp)⟩
    simp only [replyInMemory, answerStore, alike.userData]
    exact .data
  | deleteUserData userId key =>
    cases evaluated
    refine ⟨names, .deleteUserData userId key, all, .same (by simp), .done,
      alike.keep ?_ (alike.deleteUserData userId key) (alike.ids.sublist (List.filter_sublist.map _)) (by simp)⟩
    simp only [replyInMemory, answerStore, deleteUserData_records]
    exact alike.rows

/-- By induction on the order, the last call first. -/
theorem holdsAlike_of_legal (compares : ∀ expiresAt now, expiresAt ≤ last → now ≤ last →
      earlier (.ofMs expiresAt) now = (Date.ofMs expiresAt).before now)
    (legal : (typeOrmSystem earlier).Legal none .empty order db) (once : (order.map (·.thread)).Nodup)
    (heeds : ∀ before taken, before ++ [taken] <+: order → Heeds last before taken) :
    ∃ names calls, List.Forall₂ (fun call taken => call.1 = taken.time ∧
      names.Made call.2 taken.request) calls order ∧
      List.Forall₂ names.Agree (servedInMemory calls).1 (order.map (·.result)) ∧
      HoldsAlike last names (servedInMemory calls).2 db order := by
  induction legal with
  | start =>
    refine ⟨⟨[], .nil, .nil⟩, [], .nil, .nil, .nil, fun _ _ => rfl, .nil, ?_, ?_, ?_⟩
    all_goals exact fun _ no => (List.not_mem_nil no).elim
  | @next order db after taken drawn legal evaluated ih =>
    obtain ⟨names, calls, made, agree, alike⟩ := ih (once.sublist ((List.sublist_append_left ..).map _))
      fun before earlier first => heeds before earlier (first.trans (List.prefix_append ..))
    have untaken : taken.thread ∉ order.map (·.thread) := by
      rw [List.map_append, List.nodup_append] at once
      exact fun member => once.2.2 _ member _ (List.mem_singleton_self _) rfl
    obtain ⟨names', call, more, asked, reply, held⟩ :=
      alike.step compares untaken (heeds order taken List.prefix_rfl) evaluated
    refine ⟨names', calls ++ [(taken.time, call)], ?_, ?_, ?_⟩
    · exact List.rel_append (made.imp fun _ _ both => ⟨both.1, both.2.mono more⟩) (.cons ⟨rfl, asked⟩ .nil)
    · rw [servedInMemory_concat, List.map_append]
      exact List.rel_append (agree.imp fun _ _ same => same.mono more) (.cons reply .nil)
    · rw [servedInMemory_concat]
      exact held

end

/-- Calls that overlap, made as the use cases make them: only fresh and unconsumed records that expire no later
than `last` are saved, and no id is consumed that has not been found. -/
structure IssuedMeanwhile (last : Nat) (earlier : Date → Nat → Bool) (clock : Nat)
    (events : List (Event StoreCall (Option String) Empty)) : Prop where
  distinct : ((events.filterMap Event.request?).filterMap fun call => (IssuedCall.call call).savedId).Nodup
  fresh : ∀ saved, .arrive (.save saved) ∈ events →
    saved.consumedAt = none ∧ ∃ time ≤ last, saved.expiresAt = .ofMs time
  looked : ∀ before id mid, before ++ [.arrive (.markConsumed id)] <+: events →
    (typeOrmSystem earlier).run (.start clock .empty) before = some mid →
    ∃ thread ∈ mid.threads, ∃ record, thread.state = .returned (.found (some record)) ∧ record.id = id

section
variable {last : Nat} {earlier : Date → Nat → Bool} {clock : Nat} {cfg : StoreConfig}
  {events : List (Event StoreCall (Option String) Empty)} {order before : List TakenCall} {taken : TakenCall}

theorem eq_of_savedId {calls : List StoreCall} {f : StoreCall → Option Str} (distinct : (calls.filterMap f).Nodup)
    {one two : Nat} {call other : StoreCall} {id : Str} (first : calls[one]? = some call)
    (second : calls[two]? = some other)
    (saves : f call = some id) (saves' : f other = some id) : one = two := by
  have apart := List.pairwise_filterMap.mp distinct
  rw [List.pairwise_iff_getElem] at apart
  obtain ⟨bound, rfl⟩ := List.getElem?_eq_some_iff.mp first
  obtain ⟨bound', rfl⟩ := List.getElem?_eq_some_iff.mp second
  rcases Nat.lt_trichotomy one two with less | equal | more
  · exact (apart _ _ bound bound' less _ saves _ saves' rfl).elim
  · exact equal
  · exact (apart _ _ bound' bound more _ saves' _ saves rfl).elim

theorem IssuedMeanwhile.heeds (issued : IssuedMeanwhile last earlier clock events)
    (ran : (typeOrmSystem earlier).run (.start clock .empty) events = some cfg) (within : cfg.clock ≤ last)
    (linearizes : (typeOrmSystem earlier).Linearizes none (.start clock .empty) events cfg order)
    (place : before ++ [taken] <+: order) : Heeds last before taken := by
  have inOrder : taken ∈ order := place.subset (List.mem_append_right _ (List.mem_singleton_self _))
  obtain ⟨thread, found, asked⟩ := linearizes.explains.arrived taken inOrder
  have requests : cfg.threads.map (·.request) = events.filterMap Event.request? := System.run_requests ran
  have arrives {call : StoreCall} (member : call ∈ events.filterMap Event.request?) : .arrive call ∈ events := by
    obtain ⟨event, inEvents, asks⟩ := List.mem_filterMap.mp member
    cases event <;> cases asks
    exact inEvents
  refine ⟨Nat.le_trans (linearizes.explains.past taken inOrder) within, ?_⟩
  cases same : taken.request with
  | save saved =>
    have there : .save saved ∈ events.filterMap Event.request? := by
      rw [← requests, ← same, ← asked]
      exact List.mem_map_of_mem (List.mem_of_getElem? found)
    refine ⟨fun other member record saves equal => ?_, issued.fresh saved (arrives there)⟩
    -- the two calls save the same id, so they are one call, which is taken once
    obtain ⟨thread', found', asked'⟩ := linearizes.explains.arrived other
      (place.subset (List.mem_append_left _ member))
    have one : (cfg.threads.map (·.request))[other.thread]? = some (.save record) := by simp [found', asked', saves]
    have two : (cfg.threads.map (·.request))[taken.thread]? = some (.save saved) := by simp [found, asked, same]
    rw [requests] at one two
    have threads := eq_of_savedId issued.distinct one two (show _ = some record.id from rfl) (equal ▸ rfl)
    have once := linearizes.once.sublist (place.sublist.map (·.thread))
    rw [List.map_append, List.nodup_append] at once
    exact once.2.2 _ (List.mem_map_of_mem member) _ (List.mem_singleton_self _) threads
  | markConsumed id =>
    obtain ⟨earlier, mid, first, reached, length⟩ := System.run_arrival ran rfl found
    rw [asked, same] at first
    obtain ⟨finder, member, record, returned, equal⟩ := issued.looked earlier id mid first reached
    obtain ⟨index, at'⟩ := List.mem_iff_getElem?.mp member
    obtain ⟨other, inBefore, -, result⟩ := linearizes.taken_before
      ((List.prefix_append ..).trans first) reached place
      (Nat.le_of_eq length) at' returned
    exact ⟨other, inBefore, record, result, equal⟩
  | findByToken token type => trivial
  | deleteExpired => trivial
  | deleteAllForUser userId => trivial
  | saveUserData userId key value => trivial
  | getUserData userId key => trivial
  | deleteUserData userId key => trivial

end

/-- Calls of the store that overlap give the replies of the in-memory store to the same calls, served one after
the other in an order that keeps to the times at which they arrived and returned. -/
theorem typeOrm_store_refines {last : Nat} {earlier : Date → Nat → Bool} {clock : Nat} {cfg : StoreConfig}
    {events : List (Event StoreCall (Option String) Empty)}
    (compares : ∀ expiresAt now, expiresAt ≤ last → now ≤ last →
      earlier (.ofMs expiresAt) now = (Date.ofMs expiresAt).before now)
    (issued : IssuedMeanwhile last earlier clock events)
    (ran : (typeOrmSystem earlier).run (.start clock .empty) events = some cfg) (within : cfg.clock ≤ last) :
    ∃ order names calls, (typeOrmSystem earlier).Linearizes none (.start clock .empty) events cfg order ∧
      List.Forall₂ (fun call taken => call.1 = taken.time ∧ Renaming.Made names call.2 taken.request) calls order ∧
      List.Forall₂ names.Agree (servedInMemory calls).1 (order.map (·.result)) := by
  obtain ⟨order, linearizes⟩ := @System.linearizes_of_tracks _ _ _ _ _ _ _ _ (typeOrmSystem earlier) none _ cfg
    (Ordered earlier) (.start clock) rfl (fun _ _ _ => Ordered.tracks)
      (fun _ _ _ _ _ ordered => ordered.advance) events ran
  obtain ⟨names, calls, made, agree, -⟩ := holdsAlike_of_legal compares linearizes.legal linearizes.once
    fun before taken place => issued.heeds ran within linearizes place
  exact ⟨order, names, calls, linearizes, made, agree⟩

namespace Sample

/-- Ann's link is saved and looked up; then two requests take it at the same time. -/
def linkTakenTwice : List (Event StoreCall (Option String) Empty) :=
  [.arrive (.save ⟨.random ⟨9, 0⟩, "ann", .magicLink, .random ⟨9, 1⟩, .ofMs 901000,
    none, .ofMs 1000⟩), .resume 0 none,
    .arrive (.findByToken (.random ⟨9, 1⟩) .magicLink), .resume 1 none, .arrive (.markConsumed (.random ⟨0, 0⟩)),
    .arrive (.markConsumed (.random ⟨0, 0⟩)), .tick 5, .resume 3 none, .arrive .deleteExpired, .resume 2 none,
    .resume 4 none]

theorem linkTakenTwice_issued : IssuedMeanwhile Date.maxTime Date.before 1000 linkTakenTwice where
  distinct := by decide
  fresh saved member := by
    simp only [linkTakenTwice, List.mem_cons, Event.arrive.injEq, StoreCall.save.injEq,
      reduceCtorEq, List.not_mem_nil,
      or_false] at member
    subst member
    exact ⟨rfl, 901000, by decide, rfl⟩
  looked before id mid first reached := by
    obtain ⟨rest, same⟩ := first
    -- the requests that consume come fifth and sixth
    rcases before with _ | ⟨_, _ | ⟨_, _ | ⟨_, _ | ⟨_, _ | ⟨_, _ | ⟨_, before⟩⟩⟩⟩⟩⟩ <;>
      simp [linkTakenTwice] at same
    · obtain ⟨rfl, rfl, rfl, rfl, rfl, -⟩ := same
      cases reached
      exact ⟨_, List.mem_cons_of_mem _ List.mem_cons_self, _, rfl, rfl⟩
    · obtain ⟨rfl, rfl, rfl, rfl, rfl, rfl, -⟩ := same
      cases reached
      exact ⟨_, List.mem_cons_of_mem _ List.mem_cons_self, _, rfl, rfl⟩
    · have member : .arrive (.markConsumed id) ∈ before ++ .arrive (.markConsumed id) :: rest := by simp
      rw [same.2.2.2.2.2.2] at member
      simp at member

theorem typeOrm_store_refines_linkTakenTwice :
    ∃ cfg order names calls, (typeOrmSystem Date.before).run (.start 1000 .empty) linkTakenTwice = some cfg ∧
      (typeOrmSystem Date.before).Linearizes none (.start 1000 .empty) linkTakenTwice cfg order ∧
      List.Forall₂ (fun call taken => call.1 = taken.time ∧ Renaming.Made names call.2 taken.request) calls order ∧
      List.Forall₂ names.Agree (servedInMemory calls).1 (order.map (·.result)) := by
  have ran : ∃ cfg, (typeOrmSystem Date.before).run (.start 1000 .empty) linkTakenTwice = some cfg ∧
    cfg.clock = 1005 :=
    ⟨_, rfl, rfl⟩
  obtain ⟨cfg, ran, clock⟩ := ran
  have within : cfg.clock ≤ Date.maxTime := by
    rw [clock]
    decide
  obtain ⟨order, names, calls, linearizes, made, agree⟩ :=
    typeOrm_store_refines (fun _ _ _ _ => rfl) linkTakenTwice_issued ran within
  exact ⟨cfg, order, names, calls, ran, linearizes, made, agree⟩

end Sample

end KeycloakAuth
