import KeycloakAuth.FreshTokens
import KeycloakAuth.Revocation

namespace KeycloakAuth
open Async InMemoryTokenStore

/-- `original` descends by rotation from `root`. -/
inductive Chain (log : List LogEntry) (root : TokenRecord) : TokenRecord → Prop
  | root (saved : Saved log root) : Chain log root root
  | rotated {p old t original} (earlier : Chain log root old) (marked : markedEntry p old.id true t ∈ log)
      (saved : SavedBy log p original) : Chain log root original

namespace Chain
variable {log : List LogEntry} {root original : TokenRecord}

theorem saved (chain : Chain log root original) : Saved log original := by
  cases chain with
  | root saved => exact saved
  | rotated earlier marked saved => exact saved.saved

theorem opened (chain : Chain log root original) : Saved log root := by
  induction chain with
  | root saved => exact saved
  | rotated _ _ _ ih => exact ih

/-- A record that is not the root of its chain comes behind the first rotation of the root. -/
theorem head (chain : Chain log root original) : original = root ∨
    ∃ p t next, markedEntry p root.id true t ∈ log ∧ SavedBy log p next ∧ Chain log next original := by
  induction chain with
  | root saved => exact .inl rfl
  | @rotated p old t original earlier marked saved ih =>
    rcases ih with rfl | ⟨q, t', next, first, files, rest⟩
    · exact .inr ⟨p, t, original, marked, saved, .root saved.saved⟩
    · exact .inr ⟨q, t', next, first, files, .rotated rest marked saved⟩

end Chain

/-- A refresh that has filed its new token has ended. -/
theorem RefreshPhase.saved_last {p ttl : Nat} {token : Str} {history : List LogEntry} {call : Call}
    (phase : RefreshPhase p ttl token history (.awaiting call)) :
    ∀ entry ∈ history, ∀ record, entry.call ≠ .store (.save record) := by
  cases phase <;> simp

section
variable {κ : Type} {server : KeycloakServer κ} {platform : Platform} {options : Deployment}
  {permitted : AuthConfig κ → AuthEvent κ → Prop} {clock : Nat} {keycloak : κ} {cfg final : AuthConfig κ}
  {root : TokenRecord}

theorem reach_saves_once
    (reach : (authSystem server platform options).Reach permitted (.start clock (.fresh keycloak)) cfg) {p : Nat}
    {first second : TokenRecord} (one : SavedBy cfg.log p first) (two : SavedBy cfg.log p second) :
    first = second := by
  obtain ⟨entry, member, own, save⟩ := one
  obtain ⟨other, member', own', save'⟩ := two
  obtain ⟨i, at_entry⟩ := List.mem_iff_getElem?.mp member
  obtain ⟨j, at_other⟩ := List.mem_iff_getElem?.mp member'
  have apart {i j : Nat} {entry other : LogEntry} {one two : TokenRecord} (before : i < j)
      (at_entry : cfg.log[i]? = some entry) (at_other : cfg.log[j]? = some other)
      (same : entry.request = other.request) (save : entry.call = .store (.save one))
      (save' : other.call = .store (.save two)) : False := by
    obtain ⟨_, _, phase⟩ := reach_phase_at reach at_other
    rw [save'] at phase
    have earlier := System.mem_ownEntries.mpr ⟨System.mem_take.mpr ⟨i, before, at_entry⟩, same⟩
    exact phase.saving.2.2 entry earlier one save
  rcases Nat.lt_trichotomy i j with less | equal | more
  · exact (apart less at_entry at_other (own.trans own'.symm) save save').elim
  · subst equal
    cases Option.some.inj (at_entry.symm.trans at_other)
    simpa only [save, Call.store.injEq, StoreCall.save.injEq] using save'
  · exact (apart more at_other at_entry (own'.trans own.symm) save' save).elim

theorem reach_marker
    (reach : (authSystem server platform options).Reach permitted (.start clock (.fresh keycloak)) cfg) {p q : Nat}
    {id : Str} {t t' : Nat} (one : markedEntry p id true t ∈ cfg.log) (two : markedEntry q id true t' ∈ cfg.log) :
    p = q := by
  obtain ⟨i, at_one⟩ := List.mem_iff_getElem?.mp one
  obtain ⟨j, at_two⟩ := List.mem_iff_getElem?.mp two
  rcases Nat.lt_trichotomy i j with less | equal | more
  · exact absurd (System.mem_take.mpr ⟨i, less, at_one⟩) (reach_marked_once reach (System.split_at at_two) _ _)
  · subst equal
    exact (Entry.mk.inj (Option.some.inj (at_one.symm.trans at_two))).1
  · exact absurd (System.mem_take.mpr ⟨j, more, at_two⟩) (reach_marked_once reach (System.split_at at_one) _ _)

/-- Of two records of one session, one descends from the other. -/
theorem reach_chain_linear
    (reach : (authSystem server platform options).Reach permitted (.start clock (.fresh keycloak)) cfg)
    {first second : TokenRecord} (one : Chain cfg.log root first) (two : Chain cfg.log root second) :
    Chain cfg.log first second ∨ Chain cfg.log second first := by
  induction one with
  | root saved => exact .inl two
  | @rotated p old t first earlier marked saved ih =>
    rcases ih with behind | before
    · rcases behind.head with rfl | ⟨q, t', next, marked', files, rest⟩
      · exact .inr (.rotated (.root earlier.saved) marked saved)
      · obtain rfl := reach_marker reach marked marked'
        obtain rfl := reach_saves_once reach saved files
        exact .inl rest
    · exact .inr (.rotated before marked saved)

/-- A request that has taken a refresh token and files a record is a refresh, and files the next one. -/
theorem reach_rotates
    (reach : (authSystem server platform options).Reach permitted (.start clock (.fresh keycloak)) cfg) {p t : Nat}
    {old new : TokenRecord} (onLog : Saved cfg.log old) (typed : old.type = .refreshToken)
    (marked : markedEntry p old.id true t ∈ cfg.log) (saved : SavedBy cfg.log p new) :
    (∃ thread token, cfg.threads[p]? = some thread ∧ thread.request = .refresh token) ∧
      new.type = .refreshToken := by
  obtain ⟨thread, found, history, inHistory, sub, phase⟩ := reach_taken_before reach marked rfl saved
  obtain ⟨-, token, type, record, t', looked, named⟩ := phase.saving_marked inHistory
  obtain ⟨k, at_lookup⟩ := List.mem_iff_getElem?.mp (sub looked)
  obtain ⟨earlier, saved, stems, -, rfl⟩ := reach_found reach (System.split_at at_lookup)
  obtain rfl := reach_saved_eq reach (saved.mono (List.take_subset _ _)) onLog (stems.id_eq.symm.trans named)
  rw [typed] at looked
  obtain ⟨presented, -, next⟩ := phase.saving_found looked
  exact ⟨⟨thread, token, found, Request.refresh_of_credential presented⟩, next⟩

theorem reach_chain_type
    (reach : (authSystem server platform options).Reach permitted (.start clock (.fresh keycloak)) cfg)
    {original : TokenRecord} (typed : root.type = .refreshToken) (chain : Chain cfg.log root original) :
    original.type = .refreshToken := by
  induction chain with
  | root saved => exact typed
  | rotated earlier marked saved ih => exact (reach_rotates reach earlier.saved ih marked saved).2

/-- What is on file unconsumed has been so since it was saved. -/
theorem reach_unused_before (later : (authSystem server platform options).Reach permitted cfg final)
    (reach : (authSystem server platform options).Reach anyEvent (.start clock (.fresh keycloak)) cfg)
    {original record : TokenRecord} (saved : Saved cfg.log original) (member : record ∈ final.shared.store.records)
    (named : record.id = original.id) (unused : record.consumedAt = none) :
    ∃ earlier ∈ cfg.shared.store.records, earlier.id = original.id ∧ earlier.consumedAt = none := by
  induction later generalizing record with
  | start => exact ⟨record, member, named, unused⟩
  | @next before after event previous allowed step ih =>
    rcases System.advance_cases step with ⟨_, _, rfl⟩ | ⟨change, _, rfl⟩ | ⟨_, _, rfl⟩ |
      ⟨p, choice, thread, call, rest, rfl, found, waiting, rfl⟩
    · exact ih member named unused
    · exact ih (disturb_records server platform options member) named unused
    · exact ih member named unused
    · rcases answerCall_records member with ⟨old, onFile, consumedAt, rfl, keeps⟩ | ⟨new, rfl, rfl⟩
      · refine ih onFile named ?_
        rw [Option.eq_none_iff_forall_ne_some]
        intro date used
        have still := keeps (by rw [used]; rfl)
        simp only at unused
        rw [unused] at still
        cases still
      · exact absurd named.symm (reach_save_fresh (reach.trans previous.any) found waiting original
          (saved.mono previous.log_prefix.subset))

end

end KeycloakAuth
