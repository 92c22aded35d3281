import KeycloakAuth.TypeOrmTokenStore

namespace KeycloakAuth
open Async TypeOrmTokenStore

abbrev StoreThread := Thread Statement.Ans Thrown StoreCall Reply

abbrev StoreConfig := Config Statement.Ans Thrown StoreCall Reply Database

abbrev TakenCall := Taken StoreCall Reply

/-- Where a call stands that has arrived at `now`. A row that `saveUserData` has found may be deleted before it
is updated; the call has then been taken just before the deletion. -/
inductive Stage (order : List TakenCall) (db : Database) (index now : Nat) : StoreThread → Prop
  | waiting {request : StoreCall} (untaken : index ∉ order.map (·.thread)) :
      Stage order db index now ⟨request, ((method request).settle now index 0).2,
        ((method request).settle now index 0).1⟩
  | updating {userId key : String} {value : Str} {row : UserDataEntity} {later : Nat}
      (untaken : index ∉ order.map (·.thread))
      (there : ∃ stored ∈ db.userData, stored.id = row.id ∧ stored.target = (userId, key)) :
      Stage order db index now
        ⟨.saveUserData userId key value, 0, ((putUserData userId key value (some row)).settle later index 0).1⟩
  | overtaken {userId key : String} {value : Str} {row : UserDataEntity} {later : Nat}
      (taken : ⟨index, now, .saveUserData userId key value, .done⟩ ∈ order)
      (known : ∃ other ∈ order, row.id = .random ⟨other.thread, 0⟩)
        (gone : ∀ stored ∈ db.userData, stored.id ≠ row.id) :
      Stage order db index now
        ⟨.saveUserData userId key value, 0, ((putUserData userId key value (some row)).settle later index 0).1⟩
  | inserting {userId key : String} {value : Str} {later : Nat} (untaken : index ∉ order.map (·.thread)) :
      Stage order db index now
        ⟨.saveUserData userId key value, 1, ((putUserData userId key value none).settle later index 0).1⟩
  | returned {request : StoreCall} {drawn : Nat} {value : Reply} (taken : ⟨index, now, request, value⟩ ∈ order) :
      Stage order db index now ⟨request, drawn, .returned value⟩
  | threw {request : StoreCall} {drawn : Nat} {error : Thrown} :
      Stage order db index now ⟨request, drawn, .threw error⟩

/-- The ids in a table are those that calls of the order have drawn. -/
def DrawnBy (order : List TakenCall) (id : Str) : Prop := ∃ taken ∈ order, id = .random ⟨taken.thread, 0⟩

/-- What holds of an order of calls that grows with the run. -/
structure Ordered (earlier : Date → Nat → Bool) (cfg : StoreConfig) (born : List Nat)
    (order : List TakenCall) : Prop where
  legal : (typeOrmSystem earlier).Legal none .empty order cfg.shared
  once : (order.map (·.thread)).Nodup
  arrived : ∀ taken ∈ order, ∃ thread, cfg.threads[taken.thread]? = some thread ∧ thread.request = taken.request
  times : ∀ taken ∈ order, born[taken.thread]? = some taken.time
  length : born.length = cfg.threads.length
  past : ∀ time ∈ born, time ≤ cfg.clock
  drawn : ∀ row ∈ cfg.shared.userData, DrawnBy order row.id
  ids : (cfg.shared.userData.map UserDataEntity.id).Nodup
  targets : (cfg.shared.userData.map UserDataEntity.target).Nodup
  stages : ∀ index thread, cfg.threads[index]? = some thread →
    ∃ now, born[index]? = some now ∧ Stage order cfg.shared index now thread

theorem DrawnBy.mono {order new : List TakenCall} {id : Str}
    (drawn : DrawnBy order id) : DrawnBy (order ++ new) id := by
  obtain ⟨taken, member, same⟩ := drawn
  exact ⟨taken, List.mem_append_left _ member, same⟩

/-- A call that has not been taken draws an id that no row has. -/
theorem DrawnBy.fresh {order : List TakenCall} {id : Str} {index : Nat} (drawn : DrawnBy order id)
    (untaken : index ∉ order.map (·.thread)) : id ≠ .random ⟨index, 0⟩ := by
  obtain ⟨taken, member, rfl⟩ := drawn
  rintro same
  cases same
  exact untaken (List.mem_map_of_mem member)

/-- The rows keep their ids and their targets, and a new one has the id that the call has drawn. -/
structure Keeps (index : Nat) (db after : Database) : Prop where
  kept : ∀ stored ∈ db.userData, ∃ later ∈ after.userData, later.id = stored.id ∧ later.target = stored.target
  fresh : ∀ later ∈ after.userData, (∃ stored ∈ db.userData, stored.id = later.id) ∨ later.id = .random ⟨index, 0⟩
  ids : (after.userData.map UserDataEntity.id).Nodup
  targets : (after.userData.map UserDataEntity.target).Nodup

section
variable {earlier : Date → Nat → Bool} {cfg : StoreConfig} {born : List Nat} {order new : List TakenCall}
  {db after : Database} {index now : Nat}

theorem Stage.mono {running : Nat} {thread : StoreThread} (stage : Stage order db index now thread)
    (untaken : running ∉ order.map (·.thread)) (other : index ≠ running) (keeps : Keeps running db after)
    {taken : TakenCall} (own : taken.thread = running) : Stage (order ++ [taken]) after index now thread := by
  have still (untaken : index ∉ order.map (·.thread)) : index ∉ (order ++ [taken]).map (·.thread) := by
    simpa [own, other] using untaken
  cases stage with
  | waiting untaken => exact .waiting (still untaken)
  | updating untaken there =>
    obtain ⟨stored, member, id, target⟩ := there
    obtain ⟨later, inAfter, sameId, sameTarget⟩ := keeps.kept stored member
    exact .updating (still untaken) ⟨later, inAfter, sameId.trans id, sameTarget.trans target⟩
  | overtaken member known gone =>
    refine .overtaken (List.mem_append_left _ member) (DrawnBy.mono known) fun stored inAfter same => ?_
    rcases keeps.fresh stored inAfter with ⟨old, inDb, sameOld⟩ | drawn
    · exact gone old inDb (sameOld.trans same)
    · exact DrawnBy.fresh known untaken (same.symm.trans drawn)
  | inserting untaken => exact .inserting (still untaken)
  | returned member => exact .returned (List.mem_append_left _ member)
  | threw => exact .threw

theorem Ordered.index_lt (ordered : Ordered earlier cfg born order) {taken : TakenCall} (member : taken ∈ order) :
    taken.thread < cfg.threads.length := by
  obtain ⟨thread, found, -⟩ := ordered.arrived taken member
  exact (List.getElem?_eq_some_iff.mp found).1

/-- Every method awaits a statement before it returns. -/
theorem method_waits (request : StoreCall) :
    ∃ statement rest, ((method request).settle now index 0).1 = .awaiting statement rest := by
  cases request <;> exact ⟨_, _, rfl⟩

theorem Ordered.tracks (ordered : Ordered earlier cfg born order) :
    (typeOrmSystem earlier).Tracks none Database.empty cfg born order where
  legal := ordered.legal
  once := ordered.once
  explains :=
    { arrived := ordered.arrived
      past := fun taken member => ordered.past _ (List.mem_of_getElem? (ordered.times taken member))
      returned := by
        intro index thread value found ended
        obtain ⟨now, _, stage⟩ := ordered.stages index thread found
        cases stage with
        | waiting untaken =>
          obtain ⟨statement, rest, waits⟩ := @method_waits index now _
          rw [waits] at ended
          cases ended
        | updating => cases ended
        | overtaken => cases ended
        | inserting => cases ended
        | threw => cases ended
        | returned taken =>
          cases ended
          exact ⟨_, taken, rfl, rfl⟩ }
  since taken member time arrived := by
    rw [ordered.times taken member] at arrived
    exact Nat.le_of_eq (Option.some.inj arrived).symm

/-- A call goes on, and some calls are taken. -/
theorem Ordered.extend (ordered : Ordered earlier cfg born order) {old thread : StoreThread}
    (found : cfg.threads[index]? = some old) (same : thread.request = old.request)
    (legal : (typeOrmSystem earlier).Legal none .empty (order ++ new) after)
    (once : ((order ++ new).map (·.thread)).Nodup)
    (arrived : ∀ taken ∈ new, ∃ thread, cfg.threads[taken.thread]? = some thread ∧ thread.request = taken.request)
    (times : ∀ taken ∈ new, born[taken.thread]? = some taken.time)
    (drawn : ∀ row ∈ after.userData, DrawnBy (order ++ new) row.id)
    (ids : (after.userData.map UserDataEntity.id).Nodup)
    (targets : (after.userData.map UserDataEntity.target).Nodup)
    (own : ∀ now, born[index]? = some now → Stage (order ++ new) after index now thread)
    (others : ∀ other now thread, other ≠ index → cfg.threads[other]? = some thread → born[other]? = some now →
      Stage order cfg.shared other now thread → Stage (order ++ new) after other now thread)
    (log : List (Entry Statement.Ans Thrown)) :
    Ordered earlier ⟨cfg.clock, after, cfg.threads.set index thread, log⟩ born (order ++ new) where
  legal := legal
  once := once
  arrived taken member := by
    have before : ∃ thread, cfg.threads[taken.thread]? = some thread ∧ thread.request = taken.request := by
      rcases List.mem_append.mp member with earlier | recent
      · exact ordered.arrived taken earlier
      · exact arrived taken recent
    obtain ⟨running, there, asked⟩ := before
    by_cases own : index = taken.thread
    · rw [← own] at there ⊢
      cases Option.some.inj (found.symm.trans there)
      exact ⟨thread, List.getElem?_set_self (List.getElem?_eq_some_iff.mp found).1, same.trans asked⟩
    · exact ⟨running, (List.getElem?_set_ne own).trans there, asked⟩
  times taken member := by
    rcases List.mem_append.mp member with earlier | recent
    · exact ordered.times taken earlier
    · exact times taken recent
  length := by rw [ordered.length, List.length_set]
  past := ordered.past
  drawn := drawn
  ids := ids
  targets := targets
  stages other running there := by
    by_cases equal : index = other
    · subst equal
      have bound := (List.getElem?_eq_some_iff.mp found).1
      cases Option.some.inj ((List.getElem?_set_self bound).symm.trans there)
      have inside : index < born.length := ordered.length ▸ bound
      exact ⟨_, List.getElem?_eq_getElem inside, own _ (List.getElem?_eq_getElem inside)⟩
    · rw [List.getElem?_set_ne equal] at there
      obtain ⟨now, arrived, stage⟩ := ordered.stages other running there
      exact ⟨now, arrived, others other now running (Ne.symm equal) there arrived stage⟩

/-- A call goes on, and nothing changes for the others. -/
theorem Ordered.stay (ordered : Ordered earlier cfg born order) {old thread : StoreThread}
    (found : cfg.threads[index]? = some old) (same : thread.request = old.request)
    (own : ∀ now, born[index]? = some now → Stage order cfg.shared index now thread)
    (log : List (Entry Statement.Ans Thrown)) :
    Ordered earlier ⟨cfg.clock, cfg.shared, cfg.threads.set index thread, log⟩ born (order ++ []) := by
  refine ordered.extend found same ?_ ?_ (fun _ no => (List.not_mem_nil no).elim)
    (fun _ no => (List.not_mem_nil no).elim) ?_ ordered.ids ordered.targets ?_ ?_ log
  all_goals rw [List.append_nil]
  · exact ordered.legal
  · exact ordered.once
  · exact ordered.drawn
  · exact own
  · exact fun _ _ _ _ _ _ stage => stage

/-- A call is taken as its last statement is answered. -/
theorem Ordered.commit (ordered : Ordered earlier cfg born order) (arrived : born[index]? = some now)
    (untaken : index ∉ order.map (·.thread)) {request : StoreCall} {old : StoreThread}
    (found : cfg.threads[index]? = some old) (same : request = old.request) {value : Reply} {drawn : Nat}
    (evaluated : (method request).eval (execute earlier) now index 0 cfg.shared = ⟨.ok value, drawn, after⟩)
    (keeps : Keeps index cfg.shared after) (log : List (Entry Statement.Ans Thrown)) :
    Ordered earlier ⟨cfg.clock, after, cfg.threads.set index ⟨request, drawn, .returned value⟩, log⟩ born
      (order ++ [⟨index, now, request, value⟩]) := by
  have legal : (typeOrmSystem earlier).Legal none .empty (order ++ [⟨index, now, request, value⟩]) after :=
    .next ordered.legal evaluated
  refine ordered.extend found same legal ?_ ?_ ?_ ?_ keeps.ids keeps.targets ?_ ?_ log
  · rw [List.map_append]
    exact List.nodup_append.mpr ⟨ordered.once, List.nodup_singleton _, by simpa using untaken⟩
  · intro taken member
    obtain rfl := List.mem_singleton.mp member
    exact ⟨old, found, same.symm⟩
  · intro taken member
    obtain rfl := List.mem_singleton.mp member
    exact arrived
  · intro row member
    rcases keeps.fresh row member with ⟨stored, inDb, same⟩ | own
    · exact (same ▸ ordered.drawn stored inDb).mono
    · exact ⟨_, List.mem_append_right _ (List.mem_singleton_self _), own⟩
  · intro time at'
    cases Option.some.inj (arrived.symm.trans at')
    exact .returned (List.mem_append_right _ (List.mem_singleton_self _))
  · exact fun other time thread apart found at' stage => stage.mono untaken apart keeps rfl

theorem Keeps.of_eq (ordered : Ordered earlier cfg born order) (same : after.userData = cfg.shared.userData) :
    Keeps index cfg.shared after where
  kept stored member := ⟨stored, same ▸ member, rfl, rfl⟩
  fresh later member := .inl ⟨later, same ▸ member, rfl⟩
  ids := same ▸ ordered.ids
  targets := same ▸ ordered.targets

theorem Keeps.of_map (ordered : Ordered earlier cfg born order) {set : UserDataEntity → UserDataEntity}
    (ids : ∀ row, (set row).id = row.id) (targets : ∀ row, (set row).target = row.target)
    (mapped : after.userData = cfg.shared.userData.map set) : Keeps index cfg.shared after where
  kept stored member := ⟨set stored, mapped ▸ List.mem_map_of_mem member, ids stored, targets stored⟩
  fresh later member := by
    rw [mapped] at member
    obtain ⟨stored, inDb, rfl⟩ := List.mem_map.mp member
    exact .inl ⟨stored, inDb, (ids stored).symm⟩
  ids := by
    rw [mapped, List.map_map, show UserDataEntity.id ∘ set = UserDataEntity.id from funext ids]
    exact ordered.ids
  targets := by
    rw [mapped, List.map_map, show UserDataEntity.target ∘ set = UserDataEntity.target from funext targets]
    exact ordered.targets

/-- An `INSERT` that succeeds has met neither its id nor its target. -/
theorem insertUserData_ok {row : UserDataEntity} {done : Unit}
    (succeeded : execute earlier (.insertUserData row) db = (.ok done, after)) :
    after = { db with userData := db.userData ++ [row] } ∧ (∀ old ∈ db.userData, old.target ≠ row.target) ∧
      ∀ old ∈ db.userData, old.id ≠ row.id := by
  rw [execute] at succeeded
  split at succeeded
  · cases succeeded
  · rename_i apart
    cases put : Sql.insert UserDataEntity.id row db.userData with
    | none =>
      rw [put] at succeeded
      cases succeeded
    | some userData =>
      rw [put] at succeeded
      cases succeeded
      unfold Sql.insert at put
      split at put
      · cases put
      · rename_i other
        cases put
        exact ⟨rfl, by simpa using apart, by simpa using other⟩

theorem Keeps.of_insert (ordered : Ordered earlier cfg born order) {row : UserDataEntity} {done : Unit}
    (own : row.id = .random ⟨index, 0⟩)
    (succeeded : execute earlier (.insertUserData row) cfg.shared = (.ok done, after)) :
      Keeps index cfg.shared after := by
  obtain ⟨rfl, targets, ids⟩ := insertUserData_ok succeeded
  refine ⟨fun stored member => ⟨stored, List.mem_append_left _ member, rfl, rfl⟩, fun later member => ?_, ?_, ?_⟩
  · rcases List.mem_append.mp member with old | recent
    · exact .inl ⟨later, old, rfl⟩
    · exact .inr (List.mem_singleton.mp recent ▸ own)
  · rw [List.map_append]
    exact List.nodup_append.mpr ⟨ordered.ids, List.nodup_singleton _, by simpa using ids⟩
  · rw [List.map_append]
    exact List.nodup_append.mpr ⟨ordered.targets, List.nodup_singleton _, by simpa using targets⟩

theorem eval_saveUserData_some {userId key : String} {value : Str} {row : UserDataEntity}
    (found : Sql.selectFirst (fun row => row.target = (userId, key)) db.userData = some row) :
    (method (.saveUserData userId key value)).eval (execute earlier) now index 0 db =
      ⟨.ok .done, 0, (execute earlier (.updateUserData row.id value) db).2⟩ := by
  simp only [method, saveUserData, perform, Program.bind_eq, Program.eval_bind,
    Program.eval_perform, execute, found]
  rfl

theorem eval_saveUserData_none {userId key : String} {value : Str} {answer : Except Thrown Unit}
    (absent : Sql.selectFirst (fun row => row.target = (userId, key)) db.userData = none)
    (answered : execute earlier (.insertUserData ⟨.random ⟨index, 0⟩, userId, key, value⟩) db = (answer, after)) :
    (method (.saveUserData userId key value)).eval (execute earlier) now index 0 db =
      ⟨answer.map fun _ => .done, 1, after⟩ := by
  have finds : execute earlier (.findUserData userId key) db = (.ok none, db) := by rw [execute, absent]
  simp only [method, saveUserData, perform, Program.bind_eq, Program.eval_bind,
    Program.eval_perform, finds, Outcome.andThen]
  change ((Program.ofExcept (execute earlier (.insertUserData ⟨.random ⟨index, 0⟩, userId, key, value⟩) db).1).bind
    fun _ => Program.done Reply.done).eval (execute earlier) now index 1
      (execute earlier (.insertUserData ⟨.random ⟨index, 0⟩, userId, key, value⟩) db).2 = _
  rw [answered]
  cases answer <;> rfl

theorem eval_save {saved : TokenRecord} {answer : Except Thrown Unit}
    (answered : execute earlier (.insertToken ⟨.random ⟨index, 0⟩, saved.userId, saved.type, hashToken saved.token,
      saved.expiresAt, none, saved.createdAt⟩) db = (answer, after)) :
    (method (.save saved)).eval (execute earlier) now index 0 db = ⟨answer.map fun _ => .done, 1, after⟩ := by
  change ((Program.ofExcept (execute earlier (.insertToken _) db).1).bind fun _ => Program.done Reply.done).eval
    (execute earlier) now index 1 (execute earlier (.insertToken _) db).2 = _
  rw [answered]
  cases answer <;> rfl

/-- The row with a target is found by it. -/
theorem selectFirst_target {stored : UserDataEntity} (targets : (db.userData.map UserDataEntity.target).Nodup)
    (member : stored ∈ db.userData) :
    Sql.selectFirst (fun row => row.target = stored.target) db.userData = some stored := by
  obtain ⟨first, found⟩ := Option.isSome_iff_exists.mp
    (List.find?_isSome.mpr ⟨stored, member, by simp⟩ : (db.userData.find? fun row =>
      row.target = stored.target).isSome)
  have same : first.target = stored.target := by simpa using List.find?_some found
  rw [Sql.selectFirst, found, List.inj_on_of_nodup_map targets (List.mem_of_find?_eq_some found) member same]

/-- The call of a thread that waits to update a row of this user and key. -/
def overtakenCall (cfg : StoreConfig) (born : List Nat) (order : List TakenCall)
    (userId key : String) (index : Nat) :
    Option TakenCall :=
  match cfg.threads[index]?, born[index]? with
  | some ⟨.saveUserData user name value, 0, .awaiting (.updateUserData _ _) _⟩, some now =>
    if (user, name) = (userId, key) ∧ index ∉ order.map (·.thread) then
      some ⟨index, now, .saveUserData user name value, .done⟩
    else none
  | _, _ => none

def overtakenCalls (cfg : StoreConfig) (born : List Nat) (order : List TakenCall)
    (userId key : String) : List TakenCall :=
  (List.range cfg.threads.length).filterMap (overtakenCall cfg born order userId key)

theorem overtakenCall_some {userId key : String} {taken : TakenCall}
    (called : overtakenCall cfg born order userId key index = some taken) :
    index ∉ order.map (·.thread) ∧ ∃ value id put rest,
      cfg.threads[index]? = some ⟨.saveUserData userId key value, 0, .awaiting (.updateUserData id put) rest⟩ ∧
      ∃ now, born[index]? = some now ∧ taken = ⟨index, now, .saveUserData userId key value, .done⟩ := by
  unfold overtakenCall at called
  split at called
  · rename_i user name value id put rest now found arrived
    split at called
    · rename_i both
      obtain ⟨rfl, rfl⟩ := Prod.mk.inj both.1
      exact ⟨both.2, value, id, put, rest, found, now, arrived, (Option.some.inj called).symm⟩
    · cases called
  · cases called

theorem mem_overtakenCalls {userId key : String} {taken : TakenCall}
    (member : taken ∈ overtakenCalls cfg born order userId key) :
    overtakenCall cfg born order userId key taken.thread = some taken := by
  obtain ⟨index, -, called⟩ := List.mem_filterMap.mp member
  obtain ⟨-, _, _, _, _, -, _, -, rfl⟩ := overtakenCall_some called
  exact called

theorem overtakenCalls_nodup (userId key : String) :
    ((overtakenCalls cfg born order userId key).map (·.thread)).Nodup := by
  rw [overtakenCalls, List.map_filterMap]
  refine List.Nodup.filterMap (fun one two thread left right => ?_) List.nodup_range
  obtain ⟨first, called, rfl⟩ := Option.map_eq_some_iff.mp left
  obtain ⟨second, called', same⟩ := Option.map_eq_some_iff.mp right
  obtain ⟨-, _, _, _, _, -, _, -, rfl⟩ := overtakenCall_some called
  obtain ⟨-, _, _, _, _, -, _, -, rfl⟩ := overtakenCall_some called'
  exact same.symm

/-- Calls that update a row just before it is deleted leave no trace: by induction on the calls. -/
theorem legal_overtaken {userId key : String} {calls : List TakenCall}
    (legal : (typeOrmSystem earlier).Legal none .empty order db) (ids : (db.userData.map UserDataEntity.id).Nodup)
    (saves : ∀ taken ∈ calls, ∃ value, taken.request = .saveUserData userId key value ∧ taken.result = .done)
    (there : ∀ taken ∈ calls, ∃ stored ∈ db.userData, stored.target = (userId, key)) :
    ∃ after, (typeOrmSystem earlier).Legal none .empty (order ++ calls) after ∧ after.tokens = db.tokens ∧
      Sql.delete (fun row => row.target = (userId, key)) after.userData =
        Sql.delete (fun row => row.target = (userId, key)) db.userData := by
  induction calls generalizing order db with
  | nil => exact ⟨db, by simpa using legal, rfl, rfl⟩
  | cons first rest ih =>
    obtain ⟨thread, time, request, result⟩ := first
    obtain ⟨value, same, done⟩ := saves _ List.mem_cons_self
    cases same
    cases done
    obtain ⟨stored, member, target⟩ := there _ List.mem_cons_self
    obtain ⟨row, found⟩ := Option.isSome_iff_exists.mp (List.find?_isSome.mpr ⟨stored,
      member, by simpa using target⟩ :
      (Sql.selectFirst (fun row => row.target = (userId, key)) db.userData).isSome)
    have inDb := List.mem_of_find?_eq_some found
    have hit : row.target = (userId, key) := by simpa using List.find?_some found
    have next : (typeOrmSystem earlier).Legal none .empty
      (order ++ [⟨thread, time, .saveUserData userId key value, .done⟩])
        (execute earlier (.updateUserData row.id value) db).2 := .next legal (eval_saveUserData_some found)
    obtain ⟨after, legal, tokens, deleted⟩ := ih next
      (by
        simp only [execute, Sql.update, List.map_map]
        convert ids using 2
        funext old
        simp only [Function.comp_apply]
        split <;> rfl)
      (fun taken member => saves taken (List.mem_cons_of_mem _ member))
      fun taken _ => by
        refine ⟨_, List.mem_map_of_mem member, ?_⟩
        split <;> exact target
    refine ⟨after, by simpa using legal, tokens, deleted.trans ?_⟩
    refine Sql.delete_map (fun old _ => by split <;> rfl) fun old member spared => ?_
    -- the row that is updated is the only one with its id
    rw [if_neg]
    intro same
    have both := List.inj_on_of_nodup_map ids member inDb (by simpa using same)
    rw [both, hit] at spared
    simp at spared

/-- Where a call stands while rows of this user and key are deleted. -/
theorem Stage.deleted (ordered : Ordered earlier cfg born order) {userId key : String} {running : Nat}
    {thread : StoreThread} (found : cfg.threads[index]? = some thread) (arrived : born[index]? = some now)
    (stage : Stage order cfg.shared index now thread) (other : index ≠ running) {taken : TakenCall}
    (own : taken.thread = running) :
    Stage (order ++ (overtakenCalls cfg born order userId key ++ [taken]))
      { cfg.shared with userData := Sql.delete (fun row => row.target = (userId, key)) cfg.shared.userData }
      index now
      thread := by
  have still (untaken : index ∉ order.map (·.thread))
      (waits : ∀ value id put rest, thread ≠ ⟨.saveUserData userId key value, 0,
        .awaiting (.updateUserData id put) rest⟩) :
      index ∉ (order ++ (overtakenCalls cfg born order userId key ++ [taken])).map (·.thread) := by
    intro member
    simp only [List.map_append, List.mem_append, List.map_cons, List.map_nil, List.mem_singleton] at member
    rcases member with old | called | last
    · exact untaken old
    · obtain ⟨call, inCalls, rfl⟩ := List.mem_map.mp called
      obtain ⟨-, value, id, put, rest, there, -⟩ := overtakenCall_some (mem_overtakenCalls inCalls)
      exact waits value id put rest (Option.some.inj (found.symm.trans there))
    · exact other (last.trans own)
  cases stage with
  | @waiting request untaken =>
    refine .waiting (still untaken fun value id put rest same => ?_)
    cases request <;> cases same
  | @updating user name value row later untaken there =>
    obtain ⟨stored, inDb, id, target⟩ := there
    by_cases same : (user, name) = (userId, key)
    · obtain ⟨rfl, rfl⟩ := Prod.mk.inj same
      have called : overtakenCall cfg born order user name index =
          some ⟨index, now, .saveUserData user name value, .done⟩ := by
        simp only [overtakenCall, found, arrived]
        exact if_pos ⟨rfl, untaken⟩
      have inside := (List.getElem?_eq_some_iff.mp found).1
      refine .overtaken (List.mem_append_right _ (List.mem_append_left _
        (List.mem_filterMap.mpr ⟨index, List.mem_range.mpr inside, called⟩))) ?_ fun old member sameId => ?_
      · exact (id ▸ ordered.drawn stored inDb).mono
      · obtain ⟨inTable, spared⟩ := List.mem_filter.mp member
        rw [List.inj_on_of_nodup_map ordered.ids inTable inDb (sameId.trans id.symm)] at spared
        simp [target] at spared
    · refine .updating (still untaken fun value' id put rest equal => ?_) ⟨stored, ?_, id, target⟩
      · cases equal
        exact same rfl
      · rw [← target] at same
        exact List.mem_filter.mpr ⟨inDb, by simpa using same⟩
  | overtaken member known gone =>
    exact .overtaken (List.mem_append_left _ member) (DrawnBy.mono known) fun stored inTable =>
      gone stored (List.mem_of_mem_filter inTable)
  | inserting untaken =>
    refine .inserting (still untaken fun value id put rest same => ?_)
    cases same
  | returned member => exact .returned (List.mem_append_left _ member)
  | threw => exact .threw

/-- A call that is overtaken has found a row of this user and key, which is still there. -/
theorem Ordered.overtaken_there (ordered : Ordered earlier cfg born order) {userId key : String} {taken : TakenCall}
    (member : taken ∈ overtakenCalls cfg born order userId key) :
    ∃ stored ∈ cfg.shared.userData, stored.target = (userId, key) := by
  obtain ⟨free, value, id, put, rest, found, -⟩ := overtakenCall_some (mem_overtakenCalls member)
  obtain ⟨time, -, stage⟩ := ordered.stages _ _ found
  generalize same : (⟨.saveUserData userId key value, 0, .awaiting (.updateUserData id put) rest⟩ : StoreThread) =
    thread at stage
  cases stage with
  | @waiting request => cases request <;> cases same
  | updating _ there =>
    cases same
    obtain ⟨stored, inDb, -, target⟩ := there
    exact ⟨stored, inDb, target⟩
  | overtaken member =>
    cases same
    exact (free (List.mem_map.mpr ⟨_, member, rfl⟩)).elim
  | inserting => cases same
  | returned => cases same
  | threw => cases same

/-- The calls that are overtaken, and then the deletion, can be served in one instant each. -/
theorem Ordered.legal_deletion (ordered : Ordered earlier cfg born order) (userId key : String) :
    (typeOrmSystem earlier).Legal none .empty
      (order ++ (overtakenCalls cfg born order userId key ++ [⟨index, now, .deleteUserData userId key, .done⟩]))
      (execute earlier (.deleteUserData userId key) cfg.shared).2 := by
  have saves : ∀ taken ∈ overtakenCalls cfg born order userId key,
      ∃ value, taken.request = .saveUserData userId key value ∧ taken.result = .done := by
    intro taken member
    obtain ⟨-, value, _, _, _, -, _, -, same⟩ := overtakenCall_some (mem_overtakenCalls member)
    exact ⟨value, by rw [same], by rw [same]⟩
  obtain ⟨after, legal, tokens, deleted⟩ :=
    legal_overtaken ordered.legal ordered.ids saves fun _ => ordered.overtaken_there
  have evaluated : (method (.deleteUserData userId key)).eval (execute earlier) now index 0 after =
      ⟨.ok .done, 0, (execute earlier (.deleteUserData userId key) cfg.shared).2⟩ := by
    change (⟨.ok .done, 0, (execute earlier (.deleteUserData userId key) after).2⟩ : Outcome Thrown
      Reply Database) = _
    simp only [execute, tokens, deleted]
  rw [← List.append_assoc]
  exact .next legal evaluated

/-- None of the calls that a deletion overtakes has been taken before, and none is the deletion itself. -/
theorem Ordered.once_deletion (ordered : Ordered earlier cfg born order) (untaken : index ∉ order.map (·.thread))
    {userId key : String} {result : Reply} {request : StoreCall}
    (running : ∀ value id put rest,
      cfg.threads[index]? ≠ some ⟨.saveUserData userId key value, 0, .awaiting (.updateUserData id put) rest⟩) :
    ((order ++ (overtakenCalls cfg born order userId key ++ [(⟨index, now, request, result⟩ : TakenCall)])).map
      (·.thread)).Nodup := by
  rw [List.map_append, List.map_append]
  refine List.nodup_append.mpr ⟨ordered.once, List.nodup_append.mpr
    ⟨overtakenCalls_nodup userId key, List.nodup_singleton _, ?_⟩, ?_⟩
  · intro thread member last single same
    obtain ⟨taken, inCalls, rfl⟩ := List.mem_map.mp member
    obtain ⟨-, value, id, put, rest, there, -⟩ := overtakenCall_some (mem_overtakenCalls inCalls)
    obtain rfl := List.mem_singleton.mp single
    exact running value id put rest (same ▸ there)
  · rintro thread member later inLater rfl
    rcases List.mem_append.mp inLater with overtaken | last
    · obtain ⟨taken, inCalls, rfl⟩ := List.mem_map.mp overtaken
      exact (overtakenCall_some (mem_overtakenCalls inCalls)).1 member
    · obtain rfl := List.mem_singleton.mp last
      exact untaken member

theorem Ordered.deleteUserData (ordered : Ordered earlier cfg born order) (arrived : born[index]? = some now)
    (untaken : index ∉ order.map (·.thread)) {userId key : String} {old : StoreThread}
    (found : cfg.threads[index]? = some old) (same : .deleteUserData userId key = old.request)
    (running : ∀ value id put rest,
      cfg.threads[index]? ≠ some ⟨.saveUserData userId key value, 0, .awaiting (.updateUserData id put) rest⟩)
    (log : List (Entry Statement.Ans Thrown)) :
    Ordered earlier ⟨cfg.clock, (execute earlier (.deleteUserData userId key) cfg.shared).2,
      cfg.threads.set index ⟨.deleteUserData userId key, 0, .returned .done⟩, log⟩ born
      (order ++ (overtakenCalls cfg born order userId key ++ [⟨index, now,
        .deleteUserData userId key, .done⟩])) := by
  refine ordered.extend found same (ordered.legal_deletion userId key) (ordered.once_deletion untaken running)
    ?_ ?_ ?_ ?_ ?_ ?_ ?_ log
  · intro taken member
    rcases List.mem_append.mp member with inCalls | last
    · obtain ⟨-, _, _, _, _, there, _, -, equal⟩ := overtakenCall_some (mem_overtakenCalls inCalls)
      exact ⟨_, there, by rw [equal]⟩
    · obtain rfl := List.mem_singleton.mp last
      exact ⟨old, found, same.symm⟩
  · intro taken member
    rcases List.mem_append.mp member with inCalls | last
    · obtain ⟨-, _, _, _, _, -, time, arrived, same⟩ := overtakenCall_some (mem_overtakenCalls inCalls)
      rw [arrived, same]
    · obtain rfl := List.mem_singleton.mp last
      exact arrived
  · exact fun row member => (ordered.drawn row (List.mem_of_mem_filter member)).mono
  · exact ordered.ids.sublist (List.filter_sublist.map _)
  · exact ordered.targets.sublist (List.filter_sublist.map _)
  · intro time at'
    cases Option.some.inj (arrived.symm.trans at')
    exact .returned (List.mem_append_right _ (List.mem_append_right _ (List.mem_singleton_self _)))
  · exact fun other time thread apart found at' stage => stage.deleted ordered found at' apart rfl

/-- A statement that fails changes nothing. -/
theorem execute_error {statement : Statement} {error : Thrown}
    (failed : execute earlier statement db = (.error error, after)) :
    after = db := by
  cases statement with
  | insertToken row =>
    cases put : Sql.insert TokenEntity.id row db.tokens <;> simp [execute, put, inserted] at failed
    exact failed.2.symm
  | insertUserData row =>
    rw [execute] at failed
    split at failed
    · cases failed
      rfl
    · cases put : Sql.insert UserDataEntity.id row db.userData <;> simp [put, inserted] at failed
      exact failed.2.symm
  | findToken tokenHash type => cases failed
  | consumeToken id consumedAt => cases failed
  | deleteTokensBefore now => cases failed
  | deleteTokensOf userId => cases failed
  | findUserData userId key => cases failed
  | updateUserData id value => cases failed
  | deleteUserData userId key => cases failed

theorem insertToken_ok {row : TokenEntity} {done : Unit}
    (put : execute earlier (.insertToken row) db = (.ok done, after)) :
    after = { db with tokens := db.tokens ++ [row] } := by
  cases tokens : Sql.insert TokenEntity.id row db.tokens with
  | none => simp [execute, tokens, inserted] at put
  | some rows =>
    simp only [execute, tokens, inserted, Option.map_some, Prod.mk.injEq] at put
    unfold Sql.insert at tokens
    split at tokens
    · cases tokens
    · cases tokens
      exact put.2.symm

theorem resume_answered {thread : StoreThread} {statement : Statement}
    {rest : Except Thrown statement.Ans → Program Statement.Ans Thrown Reply} {answer : Except Thrown statement.Ans}
    (answered : execute earlier statement cfg.shared = (answer, after)) :
    (typeOrmSystem earlier).resume cfg index thread statement rest none =
      ⟨cfg.clock, after, cfg.threads.set index ⟨thread.request,
        ((rest answer).settle cfg.clock index thread.drawn).2,
        ((rest answer).settle cfg.clock index thread.drawn).1⟩,
          cfg.log ++ [⟨index, statement, answer, cfg.clock⟩]⟩ := by
  have both : (typeOrmSystem earlier).perform none cfg.clock index statement cfg.shared =
    (answer, after) := answered
  simp only [System.resume, both]

section
variable {thread : StoreThread} {statement : Statement}
  {rest : Except Thrown statement.Ans → Program Statement.Ans Thrown Reply}

/-- A method hands on the error of a statement that fails. -/
theorem Ordered.fail (ordered : Ordered earlier cfg born order) (found : cfg.threads[index]? = some thread)
    (waits : thread.state = .awaiting statement rest) (message : String) :
    Ordered earlier ((typeOrmSystem earlier).resume cfg index thread statement rest (some message)) born
      (order ++ []) := by
  obtain ⟨now, arrived, stage⟩ := ordered.stages index thread found
  cases stage with
  | @waiting request untaken =>
    cases request <;> cases waits <;> exact ordered.stay found (by rfl) (fun _ _ => .threw) _
  | updating =>
    cases waits
    exact ordered.stay found (by rfl) (fun _ _ => .threw) _
  | overtaken =>
    cases waits
    exact ordered.stay found (by rfl) (fun _ _ => .threw) _
  | inserting =>
    cases waits
    exact ordered.stay found (by rfl) (fun _ _ => .threw) _
  | returned => cases waits
  | threw => cases waits

/-- `save` ends as its row is inserted or is refused. -/
theorem Ordered.insertToken (ordered : Ordered earlier cfg born order) (arrived : born[index]? = some now)
    (untaken : index ∉ order.map (·.thread)) {saved : TokenRecord}
    (asked : thread = ⟨.save saved, ((method (.save saved)).settle now index 0).2,
      ((method (.save saved)).settle now index 0).1⟩)
    (found : cfg.threads[index]? = some thread) (waits : thread.state = .awaiting statement rest) :
    ∃ new, Ordered earlier ((typeOrmSystem earlier).resume cfg index thread statement rest none) born
      (order ++ new) := by
  subst asked
  cases waits
  cases put : execute earlier (.insertToken ⟨.random ⟨index, 0⟩, saved.userId, saved.type, hashToken saved.token,
    saved.expiresAt, none, saved.createdAt⟩) cfg.shared with
  | mk answer after =>
    rw [resume_answered put]
    cases answer with
    | ok done =>
      exact ⟨_, ordered.commit arrived untaken found (by rfl) (eval_save put)
        (.of_eq ordered (by rw [insertToken_ok put])) _⟩
    | error error =>
      obtain rfl := execute_error put
      exact ⟨[], ordered.stay found (by rfl) (fun _ _ => .threw) _⟩

/-- `saveUserData` looks for the row. -/
theorem Ordered.findUserData (ordered : Ordered earlier cfg born order) (arrived : born[index]? = some now)
    (untaken : index ∉ order.map (·.thread)) {userId key : String} {value : Str}
    (asked : thread = ⟨.saveUserData userId key value, ((method
      (.saveUserData userId key value)).settle now index 0).2,
      ((method (.saveUserData userId key value)).settle now index 0).1⟩)
    (found : cfg.threads[index]? = some thread) (waits : thread.state = .awaiting statement rest) :
    Ordered earlier ((typeOrmSystem earlier).resume cfg index thread statement rest none) born (order ++ []) := by
  subst asked
  cases waits
  have answered : execute earlier (.findUserData userId key) cfg.shared =
    (.ok (Sql.selectFirst (fun row => row.target = (userId, key)) cfg.shared.userData), cfg.shared) := rfl
  rw [resume_answered answered]
  refine ordered.stay found (by rfl) (fun time at' => ?_) _
  cases Option.some.inj (arrived.symm.trans at')
  cases existing : Sql.selectFirst (fun row => row.target = (userId, key)) cfg.shared.userData with
  | none => exact .inserting untaken
  | some row =>
    exact .updating untaken ⟨row, List.mem_of_find?_eq_some existing, rfl, by simpa using List.find?_some existing⟩

/-- `saveUserData` updates the row that it has found. -/
theorem Ordered.updateUserData (ordered : Ordered earlier cfg born order) (arrived : born[index]? = some now)
    (untaken : index ∉ order.map (·.thread)) {userId key : String} {value : Str}
    {row : UserDataEntity} {later : Nat}
    (there : ∃ stored ∈ cfg.shared.userData, stored.id = row.id ∧ stored.target = (userId, key))
    (asked : thread =
      ⟨.saveUserData userId key value, 0, ((putUserData userId key value (some row)).settle later index 0).1⟩)
    (found : cfg.threads[index]? = some thread) (waits : thread.state = .awaiting statement rest) :
    ∃ new, Ordered earlier ((typeOrmSystem earlier).resume cfg index thread statement rest none) born
      (order ++ new) := by
  subst asked
  cases waits
  obtain ⟨stored, member, id, target⟩ := there
  have selected := selectFirst_target ordered.targets member
  rw [target] at selected
  have evaluated := @eval_saveUserData_some earlier cfg.shared index now userId key value stored selected
  rw [id] at evaluated
  have keeps : Keeps index cfg.shared (execute earlier (.updateUserData row.id value) cfg.shared).2 := by
    refine .of_map ordered (fun old => ?_) (fun old => ?_) rfl
    · split <;> rfl
    · split <;> rfl
  exact ⟨_, ordered.commit arrived untaken found (by rfl) evaluated keeps _⟩

/-- The row that `saveUserData` has found is gone, and the update meets none. -/
theorem Ordered.updateMissed (ordered : Ordered earlier cfg born order) (arrived : born[index]? = some now)
    {userId key : String} {value : Str} {row : UserDataEntity} {later : Nat}
    (taken : ⟨index, now, .saveUserData userId key value, .done⟩ ∈ order)
    (gone : ∀ stored ∈ cfg.shared.userData, stored.id ≠ row.id)
    (asked : thread =
      ⟨.saveUserData userId key value, 0, ((putUserData userId key value (some row)).settle later index 0).1⟩)
    (found : cfg.threads[index]? = some thread) (waits : thread.state = .awaiting statement rest) :
    Ordered earlier ((typeOrmSystem earlier).resume cfg index thread statement rest none) born (order ++ []) := by
  subst asked
  cases waits
  have missed : execute earlier (.updateUserData row.id value) cfg.shared = (.ok (), cfg.shared) := by
    have still : cfg.shared.userData.map (fun old => if old.id = row.id then { old with value } else old) =
        cfg.shared.userData :=
      (List.map_congr_left fun old member => if_neg (gone old member)).trans (List.map_id _)
    simp only [execute, Sql.update, decide_eq_true_eq, still]
  rw [resume_answered missed]
  refine ordered.stay found (by rfl) (fun time at' => ?_) _
  cases Option.some.inj (arrived.symm.trans at')
  exact .returned taken

/-- `saveUserData` has found no row and inserts one, or is refused. -/
theorem Ordered.insertUserData (ordered : Ordered earlier cfg born order) (arrived : born[index]? = some now)
    (untaken : index ∉ order.map (·.thread)) {userId key : String} {value : Str} {later : Nat}
    (asked : thread = ⟨.saveUserData userId key value, 1,
      ((putUserData userId key value none).settle later index 0).1⟩)
    (found : cfg.threads[index]? = some thread) (waits : thread.state = .awaiting statement rest) :
    ∃ new, Ordered earlier ((typeOrmSystem earlier).resume cfg index thread statement rest none) born
      (order ++ new) := by
  subst asked
  cases waits
  cases put : execute earlier (.insertUserData ⟨.random ⟨index, 0⟩, userId, key, value⟩) cfg.shared with
  | mk answer after =>
    rw [resume_answered put]
    cases answer with
    | ok done =>
      have absent : Sql.selectFirst (fun row => row.target = (userId, key)) cfg.shared.userData = none := by
        rw [Sql.selectFirst, List.find?_eq_none]
        exact fun old member hit => (insertUserData_ok put).2.1 old member (of_decide_eq_true hit)
      have keeps := Keeps.of_insert ordered rfl put
      exact ⟨_, ordered.commit arrived untaken found (by rfl) (eval_saveUserData_none absent put) keeps _⟩
    | error error =>
      obtain rfl := execute_error put
      exact ⟨[], ordered.stay found (by rfl) (fun _ _ => .threw) _⟩

/-- The first statement of a method is answered; it is the only one of every method but `saveUserData`. -/
theorem Ordered.first (ordered : Ordered earlier cfg born order) (arrived : born[index]? = some now)
    (untaken : index ∉ order.map (·.thread)) {request : StoreCall}
    (asked : thread = ⟨request, ((method request).settle now index 0).2, ((method request).settle now index 0).1⟩)
    (found : cfg.threads[index]? = some thread) (waits : thread.state = .awaiting statement rest) :
    ∃ new, Ordered earlier ((typeOrmSystem earlier).resume cfg index thread statement rest none) born
      (order ++ new) := by
  have same {statement : Statement} (untouched : (execute earlier statement cfg.shared).2.userData =
    cfg.shared.userData) :
      Keeps index cfg.shared (execute earlier statement cfg.shared).2 := .of_eq ordered untouched
  cases request with
  | save saved => exact ordered.insertToken arrived untaken asked found waits
  | saveUserData userId key value => exact ⟨[], ordered.findUserData arrived untaken asked found waits⟩
  | findByToken token type =>
    subst asked
    cases waits
    exact ⟨_, ordered.commit arrived untaken found (by rfl) rfl (.of_eq ordered rfl) _⟩
  | markConsumed id =>
    subst asked
    cases waits
    exact ⟨_, ordered.commit arrived untaken found (by rfl) rfl (@same (.consumeToken id (.ofMs now)) rfl) _⟩
  | deleteExpired =>
    subst asked
    cases waits
    exact ⟨_, ordered.commit arrived untaken found (by rfl) rfl (@same (.deleteTokensBefore now) rfl) _⟩
  | deleteAllForUser userId =>
    subst asked
    cases waits
    exact ⟨_, ordered.commit arrived untaken found (by rfl) rfl (@same (.deleteTokensOf userId) rfl) _⟩
  | getUserData userId key =>
    subst asked
    cases waits
    exact ⟨_, ordered.commit arrived untaken found (by rfl) rfl (.of_eq ordered rfl) _⟩
  | deleteUserData userId key =>
    subst asked
    cases waits
    refine ⟨_, ordered.deleteUserData arrived untaken found (by rfl) (fun value id put rest same => ?_) _⟩
    cases Option.some.inj (found.symm.trans same)

/-- A statement is answered. -/
theorem Ordered.resume (ordered : Ordered earlier cfg born order) (found : cfg.threads[index]? = some thread)
    (waits : thread.state = .awaiting statement rest) (failure : Option String) :
    ∃ new, Ordered earlier ((typeOrmSystem earlier).resume cfg index thread statement rest failure) born
      (order ++ new) := by
  cases failure with
  | some message => exact ⟨[], ordered.fail found waits message⟩
  | none =>
    obtain ⟨now, arrived, stage⟩ := ordered.stages index thread found
    cases stage with
    | waiting untaken => exact ordered.first arrived untaken rfl found waits
    | updating untaken there => exact ordered.updateUserData arrived untaken there rfl found waits
    | overtaken taken known gone => exact ⟨[], ordered.updateMissed arrived taken gone rfl found waits⟩
    | inserting untaken => exact ordered.insertUserData arrived untaken rfl found waits
    | returned => cases waits
    | threw => cases waits

end

theorem Ordered.advance {next : StoreConfig} (ordered : Ordered earlier cfg born order)
    {event : Event StoreCall (Option String) Empty} (step : (typeOrmSystem earlier).advance cfg event = some next) :
    ∃ new, Ordered earlier next (System.bornAfter cfg born event) (order ++ new) := by
  rcases System.advance_cases step with ⟨delay, rfl, rfl⟩ | ⟨change, -, -⟩ | ⟨request, rfl, rfl⟩ |
    ⟨index, failure, thread, statement, rest, rfl, found, waits, rfl⟩
  · refine ⟨[], ?_⟩
    rw [List.append_nil]
    exact { ordered with past := fun time member => Nat.le_trans (ordered.past time member) (Nat.le_add_right _ _) }
  · exact change.elim
  · refine ⟨[], ?_⟩
    rw [List.append_nil]
    have behind : cfg.threads.length ∉ order.map (·.thread) := by
      intro member
      obtain ⟨taken, inOrder, same⟩ := List.mem_map.mp member
      exact Nat.lt_irrefl _ (same ▸ ordered.index_lt inOrder)
    exact
      { ordered with
        arrived := fun taken member => by
          obtain ⟨thread, found, same⟩ := ordered.arrived taken member
          exact ⟨thread, (List.getElem?_append_left (ordered.index_lt member)).trans found, same⟩
        times := fun taken member => by
          have inside := ordered.length ▸ ordered.index_lt member
          exact (List.getElem?_append_left inside).trans (ordered.times taken member)
        length := by simp [System.bornAfter, System.arrive, ordered.length]
        past := by simpa [System.bornAfter, System.arrive, or_imp, forall_and] using ordered.past
        stages := fun index thread found => by
          rcases Nat.lt_or_ge index cfg.threads.length with old | recent
          · rw [System.arrive, List.getElem?_append_left old] at found
            obtain ⟨now, arrived, stage⟩ := ordered.stages index thread found
            exact ⟨now, (List.getElem?_append_left (ordered.length ▸ old)).trans arrived, stage⟩
          · rw [System.arrive, List.getElem?_append_right recent] at found
            have same : index - cfg.threads.length = 0 := by
              have bound := (List.getElem?_eq_some_iff.mp found).1
              simp only [List.length_singleton] at bound
              omega
            obtain rfl : index = cfg.threads.length := by omega
            rw [same] at found
            cases Option.some.inj found
            exact ⟨cfg.clock, by simp [System.bornAfter, ← ordered.length], .waiting behind⟩ }
  · exact ordered.resume found waits failure

theorem Ordered.start (clock : Nat) : Ordered earlier (.start clock .empty) [] [] where
  legal := .start
  once := .nil
  arrived _ no := (List.not_mem_nil no).elim
  times _ no := (List.not_mem_nil no).elim
  length := rfl
  past _ no := (List.not_mem_nil no).elim
  drawn _ no := (List.not_mem_nil no).elim
  ids := .nil
  targets := .nil
  stages index thread found := by simp [Config.start] at found

end

/-- Calls of the store that overlap return and leave what they would if each were served in one instant. -/
theorem typeOrm_store_linearizable {earlier : Date → Nat → Bool} {clock : Nat} {cfg : StoreConfig}
    {events : List (Event StoreCall (Option String) Empty)}
    (ran : (typeOrmSystem earlier).run (.start clock .empty) events = some cfg) :
    ∃ order, (typeOrmSystem earlier).Linearizes none (.start clock .empty) events cfg order :=
  System.linearizes_of_tracks (.start clock) rfl (fun _ _ _ => Ordered.tracks)
    (fun _ _ _ _ _ ordered => ordered.advance) ran

namespace Sample

/-- Ann's secret is stored; a second one is about to replace it when it is deleted. -/
def secretOvertaken : List (Event StoreCall (Option String) Empty) :=
  [.arrive (.saveUserData "ann" "totpSecret" (.lit "JBSW")), .resume 0 none, .resume 0 none,
    .arrive (.saveUserData "ann" "totpSecret" (.lit "K5XW")),
      .arrive (.deleteUserData "ann" "totpSecret"), .resume 1 none,
    .tick 3, .resume 2 none, .resume 1 none, .arrive (.getUserData "ann" "totpSecret"), .resume 3 none]

theorem typeOrm_store_linearizable_secretOvertaken :
    ∃ cfg order, (typeOrmSystem Date.before).run (.start 1000 .empty) secretOvertaken = some cfg ∧
      (typeOrmSystem Date.before).Linearizes none (.start 1000 .empty) secretOvertaken cfg order := by
  have ran : ∃ cfg, (typeOrmSystem Date.before).run (.start 1000 .empty) secretOvertaken = some cfg := ⟨_, rfl⟩
  obtain ⟨cfg, ran⟩ := ran
  obtain ⟨order, linearizes⟩ := typeOrm_store_linearizable ran
  exact ⟨cfg, order, ran, linearizes⟩

end Sample

end KeycloakAuth
