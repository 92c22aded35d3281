import KeycloakAuth.LoginHistories
import KeycloakAuth.Provider

namespace KeycloakAuth
open Async InMemoryTokenStore

namespace TokenRecord

/-- What the store keeps of a record that was saved as `original`: its token is hashed, and it may have
been consumed since. -/
def Stems (record original : TokenRecord) : Prop :=
  ∃ consumedAt, record = { original with token := hashToken original.token, consumedAt := consumedAt }

/-- The same record at a later time. Once consumed, it stays consumed. -/
def Follows (record old : TokenRecord) : Prop :=
  ∃ consumedAt, record = { old with consumedAt := consumedAt } ∧
    (old.consumedAt.isSome → Option.isSome consumedAt)

theorem Stems.id_eq {record original : TokenRecord} (stems : record.Stems original) : record.id = original.id := by
  obtain ⟨_, rfl⟩ := stems
  rfl

theorem Stems.userId_eq {record original : TokenRecord} (stems : record.Stems original) :
    record.userId = original.userId := by
  obtain ⟨_, rfl⟩ := stems
  rfl

theorem Follows.refl (record : TokenRecord) : record.Follows record := ⟨_, rfl, fun used => used⟩

theorem Follows.stems {record old original : TokenRecord} (follows : record.Follows old)
    (stems : old.Stems original) : record.Stems original := by
  obtain ⟨consumedAt, rfl, -⟩ := follows
  obtain ⟨earlier, rfl⟩ := stems
  exact ⟨consumedAt, rfl⟩

end TokenRecord

def Saved (log : List LogEntry) (original : TokenRecord) : Prop :=
  ∃ entry ∈ log, entry.call = .store (.save original)

theorem Saved.mono {log longer : List LogEntry} {original : TokenRecord} (saved : Saved log original)
    (sub : log ⊆ longer) : Saved longer original := by
  obtain ⟨entry, member, same⟩ := saved
  exact ⟨entry, sub member, same⟩

theorem InMemoryTokenStore.save_records_cases {store : InMemoryTokenStore} {saved record : TokenRecord}
    (member : record ∈ (store.save saved).records) :
    record ∈ store.records ∨ record = { saved with token := hashToken saved.token } := by
  obtain ⟨entry, inMap, rfl⟩ := List.mem_map.mp member
  rcases OrderedMap.mem_set.mp inMap with ⟨_, same⟩ | ⟨_, old⟩
  · exact .inr same
  · exact .inl (List.mem_map.mpr ⟨entry, old, rfl⟩)

theorem InMemoryTokenStore.consume_follows (id : Str) (now : Nat) (record : TokenRecord) :
    (consume id now record).Follows record := by
  unfold consume
  split
  · exact ⟨_, rfl, fun _ => rfl⟩
  · exact .refl record

/-- Where the records come from that are on file after a call of the store. -/
theorem answerStore_records {now : Nat} {call : StoreCall} {store : InMemoryTokenStore} {record : TokenRecord}
    (member : record ∈ (answerStore now call store).2.records) :
    (∃ old ∈ store.records, record.Follows old) ∨
      ∃ original, call = .save original ∧ record = { original with token := hashToken original.token } := by
  cases call with
  | save original =>
    rcases save_records_cases member with old | new
    · exact .inl ⟨record, old, .refl record⟩
    · exact .inr ⟨original, rfl, new⟩
  | markConsumed id =>
    rcases markConsumed_cases store id now with ⟨_, _, _, _, _, marked⟩ | ⟨_, same⟩
    · rw [answerStore, marked] at member
      obtain ⟨old, inStore, rfl⟩ := List.mem_map.mp member
      exact .inl ⟨old, inStore, consume_follows id now old⟩
    · rw [answerStore, same] at member
      exact .inl ⟨record, member, .refl record⟩
  | deleteExpired =>
    simp only [answerStore, deleteExpired, deleteRecords_records] at member
    exact .inl ⟨record, (List.mem_filter.mp member).1, .refl record⟩
  | deleteAllForUser userId =>
    simp only [answerStore, deleteAllForUser_records] at member
    exact .inl ⟨record, (List.mem_filter.mp member).1, .refl record⟩
  | saveUserData userId key value => exact .inl ⟨record, member, .refl record⟩
  | deleteUserData userId key =>
    simp only [answerStore, deleteUserData_records] at member
    exact .inl ⟨record, member, .refl record⟩
  | findByToken token type => exact .inl ⟨record, member, .refl record⟩
  | getUserData userId key => exact .inl ⟨record, member, .refl record⟩

section
variable {κ : Type} {server : KeycloakServer κ} {platform : Platform} {options : Deployment} {plan : Plan}
  {now request : Nat} {world : World κ}

theorem answerCall_records {call : Call} {record : TokenRecord}
    (member : record ∈ (answerCall server platform options plan now request call world).2.store.records) :
    (∃ old ∈ world.store.records, record.Follows old) ∨
      ∃ original, call = .store (.save original) ∧
        record = { original with token := hashToken original.token } := by
  cases call with
  | store call =>
    rcases answerStore_records member with old | ⟨original, rfl, new⟩
    · exact .inl old
    · exact .inr ⟨original, rfl, new⟩
  | auth call =>
    rw [answerCall, answerAuth_records] at member
    exact .inl ⟨record, member, .refl record⟩
  | render template link => exact .inl ⟨record, member, .refl record⟩
  | send mail => exact .inl ⟨record, member, .refl record⟩

variable (server platform options) in
/-- What happens apart from requests files nothing. -/
theorem disturb_records {change : Disturbance κ} {record : TokenRecord}
    (member : record ∈ ((authSystem server platform options).disturb change now world).store.records) :
    record ∈ world.store.records := by
  cases change with
  | keycloak state => exact member
  | deleteExpired =>
    simp only [authSystem, deleteExpired, deleteRecords_records] at member
    exact (List.mem_filter.mp member).1

variable (server platform options plan now request world) in
/-- What a call can do to the records. -/
theorem answerCall_store_cases (call : Call) :
    let after := (answerCall server platform options plan now request call world).2.store
    after.records = world.store.records ∨ (∃ doomed, after = world.store.deleteRecords doomed) ∨
      (∃ id, call = .store (.markConsumed id) ∧ after = (world.store.markConsumed id now).2) ∨
      ∃ original, call = .store (.save original) ∧ after = world.store.save original := by
  cases call with
  | store call =>
    cases call with
    | save original => exact .inr (.inr (.inr ⟨original, rfl, rfl⟩))
    | markConsumed id => exact .inr (.inr (.inl ⟨id, rfl, rfl⟩))
    | deleteExpired => exact .inr (.inl ⟨_, rfl⟩)
    | deleteAllForUser userId => exact .inr (.inl ⟨_, rfl⟩)
    | findByToken token type => exact .inl rfl
    | saveUserData userId key value => exact .inl rfl
    | getUserData userId key => exact .inl rfl
    | deleteUserData userId key => exact .inl (deleteUserData_records ..)
  | auth call => exact .inl (answerAuth_records ..)
  | render template link => exact .inl rfl
  | send mail => exact .inl rfl

end

/-- A request saves at most one record, under an id it has just drawn. -/
theorem Phase.saving {platform : Platform} {options : Deployment} {p : Nat} {request : Request}
    {history : List LogEntry} {record : TokenRecord}
    (phase : Phase platform options p request history (.awaiting (.store (.save record)))) :
    (∃ index, record.id = .random ⟨p, index⟩) ∧ record.consumedAt = none ∧
      ∀ entry ∈ history, ∀ other, entry.call ≠ .store (.save other) := by
  cases request with
  | login email password =>
    cases phase with
    | challenging passed enrolled => cases passed <;> exact ⟨⟨1, rfl⟩, rfl, by simp⟩
    | saving passed notEnrolled => cases passed <;> exact ⟨⟨0, rfl⟩, rfl, by simp⟩
  | complete2FA token code => cases phase with | saving => exact ⟨⟨0, rfl⟩, rfl, by simp⟩
  | refresh token => cases phase with | saving => exact ⟨⟨0, rfl⟩, rfl, by simp⟩
  | verifyMagicLink token => cases phase with | saving => exact ⟨⟨0, rfl⟩, rfl, by simp⟩
  | forgotPassword email => cases phase with | saving => exact ⟨⟨1, rfl⟩, rfl, by simp⟩
  | sendMagicLink email => cases phase with | saving => exact ⟨⟨1, rfl⟩, rfl, by simp⟩
  | resetPassword token newPassword => cases phase
  | logout token => cases phase
  | register email username password => cases phase
  | setup2FA userId => cases phase
  | verify2FA userId code => cases phase

section
variable {κ : Type} {server : KeycloakServer κ} {platform : Platform} {options : Deployment}
  {permitted : AuthConfig κ → AuthEvent κ → Prop} {clock : Nat} {world : World κ} {cfg : AuthConfig κ}

theorem reach_saved_id (reach : (authSystem server platform options).Reach permitted (.start clock world) cfg)
    {entry : LogEntry} (member : entry ∈ cfg.log) {record : TokenRecord}
    (save : entry.call = .store (.save record)) :
    (∃ index, record.id = .random ⟨entry.request, index⟩) ∧ record.consumedAt = none := by
  obtain ⟨i, found⟩ := List.mem_iff_getElem?.mp member
  obtain ⟨thread, -, phase⟩ := reach_phase_at reach found
  rw [save] at phase
  exact ⟨phase.saving.1, phase.saving.2.1⟩

/-- The id of a record about to be saved is not on the log. -/
theorem reach_save_fresh
    (reach : (authSystem server platform options).Reach permitted (.start clock world) cfg) {p : Nat}
    {thread : Thread Call.Ans Thrown Request Response} (found : cfg.threads[p]? = some thread)
    {record : TokenRecord} {rest} (waiting : thread.state = .awaiting (.store (.save record)) rest) :
    ∀ other, Saved cfg.log other → other.id ≠ record.id := by
  intro other saved same
  obtain ⟨entry, member, save⟩ := saved
  have phase := reach_phase reach found
  rw [waiting] at phase
  obtain ⟨⟨index, drawn⟩, -, first⟩ := phase.saving
  obtain ⟨⟨earlier, named⟩, -⟩ := reach_saved_id reach member save
  rw [same, drawn] at named
  simp only [Str.random.injEq, Nonce.mk.injEq] at named
  exact first entry (System.mem_history.mpr ⟨member, named.1.symm⟩) other save

/-- A request saves at most one record, and no two requests use one id. -/
theorem reach_saved_unique
    (reach : (authSystem server platform options).Reach permitted (.start clock world) cfg) {i j : Nat}
    {first second : LogEntry} {record other : TokenRecord} (one : cfg.log[i]? = some first)
    (save : first.call = .store (.save record)) (two : cfg.log[j]? = some second)
    (save' : second.call = .store (.save other)) (same : record.id = other.id) : i = j := by
  obtain ⟨⟨index, named⟩, -⟩ := reach_saved_id reach (List.mem_of_getElem? one) save
  obtain ⟨⟨index', named'⟩, -⟩ := reach_saved_id reach (List.mem_of_getElem? two) save'
  rw [same, named'] at named
  simp only [Str.random.injEq, Nonce.mk.injEq] at named
  rcases Nat.lt_trichotomy i j with less | equal | more
  · obtain ⟨_, _, phase⟩ := reach_phase_at reach two
    rw [save'] at phase
    have own := System.mem_ownEntries.mpr ⟨System.mem_take.mpr ⟨i, less, one⟩, named.1.symm⟩
    exact absurd save (phase.saving.2.2 first own record)
  · exact equal
  · obtain ⟨_, _, phase⟩ := reach_phase_at reach one
    rw [save] at phase
    have own := System.mem_ownEntries.mpr ⟨System.mem_take.mpr ⟨j, more, two⟩, named.1⟩
    exact absurd save' (phase.saving.2.2 second own other)

theorem reach_saved_eq
    (reach : (authSystem server platform options).Reach permitted (.start clock world) cfg)
    {record other : TokenRecord} (one : Saved cfg.log record) (two : Saved cfg.log other)
    (same : record.id = other.id) : record = other := by
  obtain ⟨first, member, save⟩ := one
  obtain ⟨second, member', save'⟩ := two
  obtain ⟨i, at_first⟩ := List.mem_iff_getElem?.mp member
  obtain ⟨j, at_second⟩ := List.mem_iff_getElem?.mp member'
  have position := reach_saved_unique reach at_first save at_second save' same
  subst position
  cases Option.some.inj (at_first.symm.trans at_second)
  simpa only [save, Call.store.injEq, StoreCall.save.injEq] using save'

/-- The store agrees with the log. -/
structure Ledger (store : InMemoryTokenStore) (log : List LogEntry) : Prop where
  stems : ∀ record ∈ store.records, ∃ original, Saved log original ∧ record.Stems original
  spent : ∀ p id t, markedEntry p id true t ∈ log → (∃ original, Saved log original ∧ original.id = id) ∧
    ∀ record ∈ store.records, record.id = id → record.consumedAt.isSome

/-- Marking a record as consumed succeeds only on an unconsumed record on file, and leaves no other
unconsumed record under its id. -/
theorem answerCall_marked {plan : Plan} {now request : Nat} {id : Str}
    (marked : (answerCall server platform options plan now request (.store (.markConsumed id)) world).1 =
      .ok true) :
    (∃ record ∈ world.store.records, record.id = id ∧ record.consumedAt = none) ∧
      ∀ record ∈ (answerCall server platform options plan now request (.store (.markConsumed id))
        world).2.store.records, record.id = id → record.consumedAt.isSome := by
  rcases markConsumed_cases world.store id now with ⟨record, member, own, unused, -, after⟩ | ⟨_, same⟩
  · refine ⟨⟨record, member, own, unused⟩, fun found inStore named => ?_⟩
    simp only [answerCall, answerStore, after] at inStore
    obtain ⟨old, -, rfl⟩ := List.mem_map.mp inStore
    unfold consume at named ⊢
    split <;> simp_all
  · simp [answerCall, answerStore, same] at marked

theorem reach_ledger {keycloak : κ}
    (reach : (authSystem server platform options).Reach permitted (.start clock (.fresh keycloak)) cfg) :
    Ledger cfg.shared.store cfg.log := by
  refine reach.invariant (fun shared log => Ledger shared.store log) ⟨?_, ?_⟩ ?_ ?_
  · simp [Config.start, World.fresh]
  · simp [Config.start]
  · intro change now shared log ledger
    refine ⟨fun record member => ledger.stems record (disturb_records server platform options member),
      fun p id t marked => ?_⟩
    obtain ⟨saved, used⟩ := ledger.spent p id t marked
    exact ⟨saved, fun record member => used record (disturb_records server platform options member)⟩
  intro cfg p thread call rest choice reach found waiting _ ledger
  have sub : cfg.log ⊆ cfg.log ++ [⟨p, call,
      ((authSystem server platform options).perform choice cfg.clock p call cfg.shared).1, cfg.clock⟩] :=
    List.subset_append_left ..
  constructor
  · intro record member
    rcases answerCall_records member with ⟨old, inStore, follows⟩ | ⟨original, rfl, rfl⟩
    · obtain ⟨original, saved, stems⟩ := ledger.stems old inStore
      exact ⟨original, saved.mono sub, follows.stems stems⟩
    · exact ⟨original, ⟨_, List.mem_append_right _ (List.mem_singleton_self _), rfl⟩, _, rfl⟩
  · intro q id t marked
    rcases List.mem_append.mp marked with old | new
    · obtain ⟨⟨original, saved, named⟩, used⟩ := ledger.spent q id t old
      refine ⟨⟨original, saved.mono sub, named⟩, fun record member own => ?_⟩
      rcases answerCall_records member with ⟨earlier, inStore, consumedAt, rfl, keeps⟩ | ⟨other, rfl, rfl⟩
      · exact keeps (used earlier inStore own)
      · exact absurd (named.trans own.symm) (reach_save_fresh reach found waiting original saved)
    · obtain ⟨rfl, rfl, answer, rfl⟩ := Entry.mk.inj (List.mem_singleton.mp new)
      have answered : (answerCall server platform options choice cfg.clock q (.store (.markConsumed id))
        cfg.shared).1 = .ok true := (eq_of_heq answer).symm
      obtain ⟨⟨record, inStore, named, _⟩, used⟩ := answerCall_marked answered
      obtain ⟨original, saved, consumedAt, stems⟩ := ledger.stems record inStore
      exact ⟨⟨original, saved.mono sub, by rw [← named, stems]⟩, used⟩

/-- No record on file has an id that the next request can draw. -/
theorem reach_unused_id {keycloak : κ}
    (reach : (authSystem server platform options).Reach permitted (.start clock (.fresh keycloak)) cfg)
    {record : TokenRecord} (member : record ∈ cfg.shared.store.records) (index : Nat) :
    record.id ≠ .random ⟨cfg.threads.length, index⟩ := by
  intro drawn
  obtain ⟨original, ⟨entry, logged, save⟩, stems⟩ := (reach_ledger reach).stems record member
  obtain ⟨⟨_, named⟩, _⟩ := reach_saved_id reach logged save
  rw [stems.id_eq, named] at drawn
  simp only [Str.random.injEq, Nonce.mk.injEq] at drawn
  exact absurd (reach.request_lt entry logged) (by omega)

theorem reach_unused_id_marked {keycloak : κ}
    (reach : (authSystem server platform options).Reach permitted (.start clock (.fresh keycloak)) cfg) {id : Str}
    {marked : Nat} {record : TokenRecord} (member : record ∈ (cfg.shared.store.markConsumed id marked).2.records)
    (index : Nat) : record.id ≠ .random ⟨cfg.threads.length, index⟩ := by
  rcases markConsumed_cases cfg.shared.store id marked with ⟨_, _, _, _, _, after⟩ | ⟨_, same⟩
  · rw [after] at member
    obtain ⟨old, onFile, rfl⟩ := List.mem_map.mp member
    rw [consume_id]
    exact reach_unused_id reach onFile index
  · rw [same] at member
    exact reach_unused_id reach member index

/-- A record that a lookup answered with was saved before, for that token and that purpose. -/
theorem reach_found {keycloak : κ}
    (reach : (authSystem server platform options).Reach permitted (.start clock (.fresh keycloak)) cfg)
    {before after : List LogEntry} {p : Nat} {token : Str} {type : TokenType} {record : TokenRecord} {t : Nat}
    (split : cfg.log = before ++ foundEntry p token type record t :: after) :
    ∃ original, Saved before original ∧ record.Stems original ∧ original.token = token ∧
      original.type = type := by
  refine reach.justified_entry (fun before entry => ∀ p token type record t,
    entry = foundEntry p token type record t →
    ∃ original, Saved before original ∧ record.Stems original ∧ original.token = token ∧
      original.type = type) ?_ split p token type record t rfl
  intro cfg q thread call rest choice reach found waiting _ p token type record t same
  obtain ⟨rfl, rfl, answer, rfl⟩ := Entry.mk.inj same
  have looked : cfg.shared.store.findByToken token type = some record := Except.ok.inj (eq_of_heq answer)
  obtain ⟨member, hashed, typed⟩ := findByToken_spec looked
  obtain ⟨original, saved, stems⟩ := (reach_ledger reach).stems record member
  obtain ⟨consumedAt, rfl⟩ := id stems
  exact ⟨original, saved, stems, Str.sha256.inj hashed, typed⟩

/-- No record is taken twice. -/
theorem reach_marked_once {keycloak : κ}
    (reach : (authSystem server platform options).Reach permitted (.start clock (.fresh keycloak)) cfg)
    {before after : List LogEntry} {p : Nat} {id : Str} {t : Nat}
    (split : cfg.log = before ++ markedEntry p id true t :: after) :
    ∀ q t', markedEntry q id true t' ∉ before := by
  refine reach.justified_entry (fun before entry => ∀ p id t, entry = markedEntry p id true t →
    ∀ q t', markedEntry q id true t' ∉ before) ?_ split p id t rfl
  intro cfg p thread call rest choice reach found waiting _ _ id _ same q t' member
  obtain ⟨rfl, rfl, answer, rfl⟩ := Entry.mk.inj same
  have answered : (answerCall server platform options choice cfg.clock p (.store (.markConsumed id))
    cfg.shared).1 = .ok true := eq_of_heq answer
  obtain ⟨⟨record, inStore, named, unused⟩, -⟩ := answerCall_marked answered
  have used := ((reach_ledger reach).spent q id t' member).2 record inStore named
  simp [unused] at used

end

end KeycloakAuth
