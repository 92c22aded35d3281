import KeycloakAuth.Ledger

namespace KeycloakAuth
open Async InMemoryTokenStore

/-- A refresh or a logout with `t`. -/
def Request.Presents (t : Str) (request : Request) : Prop := request = .refresh t ∨ request = .logout t

/-- A request about to take a record has looked it up. -/
theorem Phase.marking {platform : Platform} {options : Deployment} {p : Nat} {request : Request}
    {history : List LogEntry} {id : Str}
    (phase : Phase platform options p request history (.awaiting (.store (.markConsumed id)))) :
    ∃ token type record t, foundEntry p token type record t ∈ history ∧ record.id = id ∧
      (type = .refreshToken → request.Presents token) := by
  cases request with
  | complete2FA token code =>
    cases phase with | @taking record t => exact ⟨token, .preAuth2FA, record,
      t, by simp, rfl, fun no => by cases no⟩
  | refresh token =>
    cases phase with | @taking record t => exact ⟨token, .refreshToken, record, t, by simp, rfl, fun _ => .inl rfl⟩
  | verifyMagicLink token =>
    cases phase with | @taking record t => exact ⟨token, .magicLink, record, t, by simp, rfl, fun no => by cases no⟩
  | resetPassword token newPassword =>
    cases phase with | @taking record t => exact ⟨token, .resetPassword, record,
      t, by simp, rfl, fun no => by cases no⟩
  | logout token =>
    cases phase with | @taking record t => exact ⟨token, .refreshToken, record, t, by simp, rfl, fun _ => .inr rfl⟩
  | login email password => cases phase
  | register email username password => cases phase
  | forgotPassword email => cases phase
  | sendMagicLink email => cases phase
  | setup2FA userId => cases phase
  | verify2FA userId code => cases phase

namespace InMemoryTokenStore

/-- The record with that id, if it is on file, is the one that a lookup answers with. -/
def Stands (store : InMemoryTokenStore) (token : Str) (type : TokenType) (id : Str) : Prop :=
  ∀ record ∈ store.records, record.id = id → store.findByToken token type = some record

/-- Of the records of one token none is consumed before an earlier one. -/
def ConsumedInOrder (store : InMemoryTokenStore) : Prop :=
  store.records.Pairwise fun earlier later => earlier.token = later.token → earlier.type = later.type →
    later.consumedAt.isSome = true → earlier.consumedAt.isSome = true

variable {store : InMemoryTokenStore} {token : Str} {type : TokenType} {record : TokenRecord}

theorem Stands.of_records {after : InMemoryTokenStore} {id : Str} (stands : store.Stands token type id)
    (same : after.records = store.records) : after.Stands token type id := by
  intro record member own
  rw [findByToken_eq, same, ← findByToken_eq]
  exact stands record (same ▸ member) own

theorem Stands.save {id : Str} {new : TokenRecord} (stands : store.Stands token type id)
    (fresh : ∀ old ∈ store.records, old.id ≠ new.id) (other : id ≠ new.id) :
      (store.save new).Stands token type id := by
  intro record member own
  rw [save_records_of_fresh fresh] at member
  rcases List.mem_append.mp member with old | added
  · exact findByToken_save fresh (stands record old own)
  · rw [List.mem_singleton.mp added] at own
    exact absurd own.symm other

theorem Stands.markConsumed {id : Str} (stands : store.Stands token type id) (taken : Str) (now : Nat) :
    (store.markConsumed taken now).2.Stands token type id := by
  rcases markConsumed_cases store taken now with ⟨paid, onFile, rfl, unused, _, after⟩ | ⟨_, same⟩
  · intro record member own
    rw [after] at member
    obtain ⟨old, inStore, rfl⟩ := List.mem_map.mp member
    rw [consume_id] at own
    rw [findByToken_markConsumed now onFile unused, stands old inStore own]
    rfl
  · rw [same]
    exact stands

theorem Stands.deleteRecords {id : Str} (stands : store.Stands token type id) (doomed : TokenRecord → Bool) :
    (store.deleteRecords doomed).Stands token type id := by
  intro record member own
  rw [deleteRecords_records] at member
  obtain ⟨onFile, kept⟩ := List.mem_filter.mp member
  exact findByToken_deleteRecords (stands record onFile own) (by simpa using kept)

theorem records_nodup (store : InMemoryTokenStore) : store.records.Nodup := by
  refine (List.nodup_map_iff_inj_on ?_).mpr ?_
  · exact store.tokens.nodup.of_map _
  · rintro ⟨first, one⟩ inMap ⟨second, two⟩ inMap' same
    have key := store.keyed _ inMap
    have key' := store.keyed _ inMap'
    simp_all

/-- No record in front of the one a lookup answers with has its token. -/
theorem found_first (found : store.findByToken token type = some record) :
    store.records.Pairwise fun earlier later => later = record →
      ¬ (earlier.token = record.token ∧ earlier.type = record.type) := by
  obtain ⟨_, hashed, typed⟩ := findByToken_spec found
  rw [findByToken_eq] at found
  obtain ⟨_, front, back, split, unmatched⟩ := List.find?_eq_some_iff_append.mp found
  have distinct := store.records_nodup
  rw [split] at distinct ⊢
  obtain ⟨_, distinct, apart⟩ := List.nodup_append.mp distinct
  have behind := (List.nodup_cons.mp distinct).1
  refine List.pairwise_append.mpr ⟨?_, List.pairwise_cons.mpr ⟨?_, ?_⟩, ?_⟩
  · refine List.pairwise_of_forall_mem_list fun earlier _ later member same => ?_
    exact absurd same (apart later member record List.mem_cons_self)
  · rintro later member rfl
    exact absurd member behind
  · refine List.pairwise_of_forall_mem_list fun earlier _ later member same => ?_
    exact absurd (same ▸ member) behind
  · intro earlier member later _ _
    simpa [hashed, typed, imp_iff_not_or] using unmatched earlier member

theorem ConsumedInOrder.markConsumed {id : Str} (inOrder : store.ConsumedInOrder)
    (stands : store.Stands token type id) (now : Nat) : (store.markConsumed id now).2.ConsumedInOrder := by
  rcases markConsumed_cases store id now with ⟨taken, onFile, rfl, unused, _, after⟩ | ⟨_, same⟩
  · have found := stands taken onFile rfl
    unfold ConsumedInOrder
    rw [after, List.pairwise_map]
    refine (inOrder.and (found_first found)).imp_of_mem ?_
    intro earlier later _ member pair sameToken sameType used
    obtain ⟨ordered, first⟩ := pair
    rw [consume_token, consume_token] at sameToken
    rw [consume_type, consume_type] at sameType
    by_cases own : later.id = taken.id
    · obtain rfl := eq_of_id_eq member (findByToken_spec found).1 own
      exact absurd ⟨sameToken, sameType⟩ (first rfl)
    · have before : later.consumedAt.isSome = true := by simpa [consume, own] using used
      exact consume_used taken.id now (ordered sameToken sameType before)
  · rw [same]
    exact inOrder

theorem ConsumedInOrder.of_records {after : InMemoryTokenStore} (inOrder : store.ConsumedInOrder)
    (same : after.records = store.records) : after.ConsumedInOrder := by
  unfold ConsumedInOrder
  rw [same]
  exact inOrder

theorem ConsumedInOrder.deleteRecords (inOrder : store.ConsumedInOrder) (doomed : TokenRecord → Bool) :
    (store.deleteRecords doomed).ConsumedInOrder := by
  unfold ConsumedInOrder
  rw [deleteRecords_records]
  exact inOrder.sublist List.filter_sublist

theorem ConsumedInOrder.save {new : TokenRecord} (inOrder : store.ConsumedInOrder)
    (fresh : ∀ old ∈ store.records, old.id ≠ new.id) (unused : new.consumedAt = none) :
    (store.save new).ConsumedInOrder := by
  unfold ConsumedInOrder
  rw [save_records_of_fresh fresh]
  refine List.pairwise_append.mpr ⟨inOrder, List.pairwise_singleton .., ?_⟩
  intro earlier _ later member _ _ used
  rw [List.mem_singleton.mp member, unused] at used
  cases used

theorem ConsumedInOrder.first (inOrder : store.ConsumedInOrder) (member : record ∈ store.records)
    (hashed : record.token = hashToken token) (used : record.consumedAt.isSome = true) :
    ∃ first, store.findByToken token record.type = some first ∧ first.consumedAt.isSome = true := by
  cases found : store.findByToken token record.type with
  | none =>
    rw [findByToken_eq, List.find?_eq_none] at found
    simpa [hashed] using found record member
  | some first =>
    obtain ⟨_, hashed', typed'⟩ := findByToken_spec found
    rw [findByToken_eq] at found
    obtain ⟨_, front, back, split, unmatched⟩ := List.find?_eq_some_iff_append.mp found
    refine ⟨first, rfl, ?_⟩
    unfold ConsumedInOrder at inOrder
    rw [split] at inOrder member
    rcases List.mem_append.mp member with inFront | inRest
    · simpa [hashed] using unmatched record inFront
    rcases List.mem_cons.mp inRest with rfl | inBack
    · exact used
    · exact (List.pairwise_cons.mp (List.pairwise_append.mp inOrder).2.1).1 record inBack
        (hashed'.trans hashed.symm) typed' used

end InMemoryTokenStore

section
variable {κ : Type} {server : KeycloakServer κ} {platform : Platform} {options : Deployment}
  {permitted : AuthConfig κ → AuthEvent κ → Prop} {clock : Nat} {keycloak : κ} {cfg : AuthConfig κ}

/-- What a lookup has answered with still stands for its token, as long as it is on file. -/
structure Lookups (store : InMemoryTokenStore) (log : List LogEntry) : Prop where
  stands : ∀ p token type record t, foundEntry p token type record t ∈ log → store.Stands token type record.id
  inOrder : store.ConsumedInOrder

theorem reach_lookups
    (reach : (authSystem server platform options).Reach permitted (.start clock (.fresh keycloak)) cfg) :
    Lookups cfg.shared.store cfg.log := by
  refine reach.invariant (fun shared log => Lookups shared.store log) ⟨?_, ?_⟩ ?_ ?_
  · simp [Config.start]
  · simp [ConsumedInOrder, Config.start, World.fresh]
  · rintro (state | _) now shared log lookups
    · exact lookups
    · exact ⟨fun p token type record t looked => (lookups.stands p token type record t looked).deleteRecords _,
        lookups.inOrder.deleteRecords _⟩
  intro cfg p thread call rest choice reach found waiting _ lookups
  have phase := reach_phase reach found
  rw [waiting] at phase
  have kept := answerCall_store_cases server platform options choice cfg.clock p cfg.shared call
  have unused (old : TokenRecord) (onFile : old ∈ cfg.shared.store.records) (original : TokenRecord)
      (saves : call = .store (.save original)) : old.id ≠ original.id := by
    subst saves
    obtain ⟨earlier, saved, stems⟩ := (reach_ledger reach).stems old onFile
    rw [stems.id_eq]
    exact reach_save_fresh reach found waiting earlier saved
  constructor
  · intro q token type record t member
    rcases List.mem_append.mp member with old | new
    · have stands := lookups.stands q token type record t old
      rcases kept with same | ⟨doomed, same⟩ | ⟨id, _, same⟩ | ⟨original, saves, same⟩
      · exact stands.of_records same
      · exact same ▸ stands.deleteRecords doomed
      · exact same ▸ stands.markConsumed id cfg.clock
      · obtain ⟨before, after, split⟩ := List.append_of_mem old
        obtain ⟨earlier, saved, stems, _⟩ := reach_found reach split
        subst saves
        have inLog : Saved cfg.log earlier := saved.mono (by rw [split]; exact List.subset_append_left ..)
        have other : record.id ≠ original.id := by
          rw [stems.id_eq]
          exact reach_save_fresh reach found waiting earlier inLog
        exact same ▸ stands.save (fun old onFile => unused old onFile original rfl) other
    · obtain ⟨rfl, rfl, answer, rfl⟩ := Entry.mk.inj (List.mem_singleton.mp new)
      have looked : cfg.shared.store.findByToken token type = some record := (Except.ok.inj (eq_of_heq answer)).symm
      intro left onFile own
      obtain rfl := eq_of_id_eq onFile (findByToken_spec looked).1 own
      exact looked
  · rcases kept with same | ⟨doomed, same⟩ | ⟨id, rfl, same⟩ | ⟨original, rfl, same⟩
    · exact lookups.inOrder.of_records same
    · exact same ▸ lookups.inOrder.deleteRecords doomed
    · obtain ⟨token, type, record, t, looked, rfl, -⟩ := phase.marking
      have stands := lookups.stands p token type record t (System.mem_history.mp looked).1
      exact same ▸ lookups.inOrder.markConsumed stands cfg.clock
    · exact same ▸ lookups.inOrder.save (fun old onFile => unused old onFile original rfl) phase.saving.2.1

/-- Where some record of a token has been consumed, the one that a lookup answers with has been. -/
theorem reach_first_consumed
    (reach : (authSystem server platform options).Reach permitted (.start clock (.fresh keycloak)) cfg) {t : Str}
    {record : TokenRecord} (member : record ∈ cfg.shared.store.records) (hashed : record.token = hashToken t)
    (used : record.consumedAt.isSome = true) :
    ∃ first, cfg.shared.store.findByToken t record.type = some first ∧ first.consumedAt.isSome = true :=
  (reach_lookups reach).inOrder.first member hashed used

/-- A record of the token is on file that has been consumed. -/
def Rotated (t : Str) (store : InMemoryTokenStore) : Prop :=
  ∃ record ∈ store.records, record.token = hashToken t ∧ record.type = .refreshToken ∧
    record.consumedAt.isSome = true

theorem Rotated.of_subset {t : Str} {before after : InMemoryTokenStore} (rotated : Rotated t after)
    (sub : after.records ⊆ before.records) : Rotated t before := by
  obtain ⟨record, member, used⟩ := rotated
  exact ⟨record, sub member, used⟩

/-- By induction on the run: without a refresh or a logout with `t`, no record of `t` is consumed. -/
theorem Rotated.before {t : Str} {final : AuthConfig κ}
    (reach : (authSystem server platform options).Reach anyEvent (.start clock (.fresh keycloak)) cfg)
    (later : (authSystem server platform options).Reach permitted cfg final)
    (others : ∀ entry ∈ final.log.drop cfg.log.length, ∀ thread, final.threads[entry.request]? = some thread →
      ¬ thread.request.Presents t)
    (rotated : Rotated t final.shared.store) : Rotated t cfg.shared.store := by
  induction later with
  | start => exact rotated
  | @next before after event previous allowed step ih =>
    have forth {entry : LogEntry} (member : entry ∈ before.log.drop cfg.log.length) :
        entry ∈ after.log.drop cfg.log.length := by
      obtain ⟨more, extended⟩ := System.advance_log step
      rw [← extended, List.drop_append_of_le_length previous.log_prefix.length_le]
      exact List.mem_append_left _ member
    have back := ih fun entry member thread found presents => by
      obtain ⟨after, found, same⟩ := (System.Reach.start.next trivial
        step : (authSystem server platform options).Reach
        anyEvent before after).request_kept found
      exact others entry (forth member) after found (same ▸ presents)
    rcases System.advance_cases step with ⟨_, _, rfl⟩ | ⟨change, _, rfl⟩ | ⟨_, _, rfl⟩ |
      ⟨q, plan, thread, call, rest, rfl, found, waiting, rfl⟩
    · exact back rotated
    · exact back (rotated.of_subset fun _ member => disturb_records server platform options member)
    · exact back rotated
    have reached := reach.trans previous.any
    have phase := reach_phase reached found
    rw [waiting] at phase
    refine back ?_
    change Rotated t (answerCall server platform options plan before.clock q call before.shared).2.store at rotated
    rcases answerCall_store_cases server platform options plan before.clock q before.shared call with
      same | ⟨doomed, same⟩ | ⟨id, rfl, same⟩ | ⟨original, rfl, same⟩
    · exact rotated.of_subset (same ▸ List.Subset.refl _)
    · refine rotated.of_subset ?_
      rw [same, deleteRecords_records]
      exact List.filter_subset_self _
    · obtain ⟨token, type, looked, time, earlier, rfl, presents⟩ := phase.marking
      have stands := (reach_lookups reached).stands q token type looked time (System.mem_history.mp earlier).1
      rcases markConsumed_cases before.shared.store looked.id before.clock with ⟨_, _, _, _, _, records⟩ | ⟨_, kept⟩
      swap
      · rwa [same, kept] at rotated
      obtain ⟨record, member, hashed, typed, used⟩ := rotated
      rw [same, records] at member
      obtain ⟨old, onFile, rfl⟩ := List.mem_map.mp member
      by_cases taken : old.id = looked.id
      · -- whoever takes a record of `t` has presented `t`
        obtain ⟨_, hashed', typed'⟩ := findByToken_spec (stands old onFile taken)
        rw [consume_token, hashed'] at hashed
        rw [consume_type, typed'] at typed
        obtain ⟨final, found', same'⟩ := (System.Reach.start.next trivial step : (authSystem server platform
          options).Reach anyEvent before _).request_kept found
        have drop : ((authSystem server platform options).resume before q thread
          (.store (.markConsumed looked.id)) rest
            plan).log.drop cfg.log.length = before.log.drop cfg.log.length ++ [_] :=
          List.drop_append_of_le_length previous.log_prefix.length_le
        have last := drop ▸ List.mem_append_right (before.log.drop cfg.log.length) (List.mem_singleton_self _)
        exact (others _ last final found' (same' ▸ Str.sha256.inj hashed ▸ presents typed)).elim
      · rw [consume_other _ taken] at hashed typed used
        exact ⟨old, onFile, hashed, typed, used⟩
    · obtain ⟨record, member, hashed, typed, used⟩ := rotated
      rw [same] at member
      rcases save_records_cases member with old | rfl
      · exact ⟨record, old, hashed, typed, used⟩
      · simp [phase.saving.2.1] at used

end

end KeycloakAuth
