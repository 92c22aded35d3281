import Mathlib.Data.Set.Function
import KeycloakAuth.Realm
import KeycloakAuth.Sessions

namespace KeycloakAuth
open Async

/-- The purpose of the records a request can pay with, and the token it presents. -/
def Request.credential : Request → Option (TokenType × Str)
  | .refresh token => some (.refreshToken, token)
  | .verifyMagicLink token => some (.magicLink, token)
  | .complete2FA token _ => some (.preAuth2FA, token)
  | .resetPassword token _ => some (.resetPassword, token)
  | _ => none

/-- The calls by which a redemption takes effect. -/
def Call.redeems : Call → Bool
  | .auth (.refreshToken _) => true
  | .auth (.issueTokens _) => true
  | .auth (.completePasswordReset _ _) => true
  | _ => false

/-- The answered call acts for that user and for no other. -/
def ActsFor (userId : String) : LogEntry → Prop
  | ⟨_, .auth (.refreshToken _), answer, _⟩ => ∀ tokens, answer = .ok tokens → tokens.sub = userId
  | ⟨_, .auth (.issueTokens id), answer, _⟩ => id = userId ∧ ∀ tokens, answer = .ok tokens → tokens.sub = userId
  | ⟨_, .auth (.completePasswordReset id _), _, _⟩ => id = userId
  | _ => False

/-- A request about to redeem has looked up one record, a live one of the right purpose under its own token,
and has taken it. It has redeemed nothing before, and it acts for the user of that record. -/
theorem Phase.redeeming {platform : Platform} {options : Deployment} {p : Nat} {request : Request}
    {history : List LogEntry} {call : Call} (redeems : call.redeems = true)
    (phase : Phase platform options p request history (.awaiting call)) :
    ∃ purpose token record t t', request.credential = some (purpose, token) ∧
      foundEntry p token purpose record t ∈ history ∧ record.expiresAt.before t = false ∧
      markedEntry p record.id true t' ∈ history ∧ (∀ entry ∈ history, entry.call.redeems = false) ∧
      (∀ token' type found t', foundEntry p token' type found t' ∈ history →
        token' = token ∧ type = purpose ∧ found = record) ∧
      (call = .auth (.refreshToken token) ∧ purpose = .refreshToken ∨
        call = .auth (.issueTokens record.userId) ∨
        ∃ password, call = .auth (.completePasswordReset record.userId password)) := by
  cases request with
  | login email password => cases phase <;> cases redeems
  | complete2FA token code =>
    cases phase with
    | @issuing record _ t _ t' _ unused alive =>
      exact ⟨_, token, record, t, t', rfl, by simp, alive, by simp, by simp [Call.redeems], by simp +contextual,
        .inr (.inl rfl)⟩
    | _ => cases redeems
  | refresh token =>
    cases phase with
    | @issuing record t t' unused alive =>
      exact ⟨_, token, record, t, t', rfl, by simp, alive, by simp, by simp [Call.redeems], by simp +contextual,
        .inl ⟨rfl, rfl⟩⟩
    | _ => cases redeems
  | verifyMagicLink token =>
    cases phase with
    | @issuing record t t' unused alive =>
      exact ⟨_, token, record, t, t', rfl, by simp, alive, by simp, by simp [Call.redeems], by simp +contextual,
        .inr (.inl rfl)⟩
    | _ => cases redeems
  | resetPassword token newPassword =>
    cases phase with
    | @changing record t t' unused alive =>
      exact ⟨_, token, record, t, t', rfl, by simp, alive, by simp, by simp [Call.redeems], by simp +contextual,
        .inr (.inr ⟨newPassword, rfl⟩)⟩
    | _ => cases redeems
  | forgotPassword email => cases phase <;> cases redeems
  | sendMagicLink email => cases phase <;> cases redeems
  | logout token => cases phase <;> cases redeems
  | register email username password => cases phase <;> cases redeems
  | setup2FA userId => cases phase <;> cases redeems
  | verify2FA userId code => cases phase <;> cases redeems

/-- A request that saves a record has redeemed a credential, and has found and taken one record for it, or
it has looked for none and taken none. -/
theorem Phase.saving_cases {platform : Platform} {options : Deployment} {p : Nat} {request : Request}
    {history : List LogEntry} {new : TokenRecord}
    (phase : Phase platform options p request history (.awaiting (.store (.save new)))) :
    (∃ type token record t, request.credential = some (type, token) ∧
      foundEntry p token type record t ∈ history ∧ new.userId = record.userId ∧ new.type = .refreshToken ∧
      (∀ token' type' found t', foundEntry p token' type' found t' ∈ history →
        token' = token ∧ type' = type ∧ found = record) ∧
      ∀ id t', markedEntry p id true t' ∈ history → id = record.id) ∨
    ((∀ token type found t, foundEntry p token type found t ∉ history) ∧
      ∀ id t, markedEntry p id true t ∉ history) := by
  cases request with
  | login email password =>
    right
    cases phase with
    | challenging passed enrolled => cases passed <;> simp
    | saving passed notEnrolled => cases passed <;> simp
  | complete2FA token code =>
    cases phase with
    | @saving record _ _ t =>
      exact .inl ⟨_, token, record, t, rfl, by simp, rfl, rfl, by simp +contextual, by simp +contextual⟩
  | refresh token =>
    cases phase with
    | @saving record _ t =>
      exact .inl ⟨_, token, record, t, rfl, by simp, rfl, rfl, by simp +contextual, by simp +contextual⟩
  | verifyMagicLink token =>
    cases phase with
    | @saving record _ t =>
      exact .inl ⟨_, token, record, t, rfl, by simp, rfl, rfl, by simp +contextual, by simp +contextual⟩
  | forgotPassword email => cases phase with | saving => exact .inr ⟨by simp, by simp⟩
  | sendMagicLink email => cases phase with | saving => exact .inr ⟨by simp, by simp⟩
  | resetPassword token newPassword => cases phase
  | logout token => cases phase
  | register email username password => cases phase
  | setup2FA userId => cases phase
  | verify2FA userId code => cases phase

/-- What a request saves after a lookup is a refresh token for the user of the record it found. -/
theorem Phase.saving_found {platform : Platform} {options : Deployment} {p : Nat} {request : Request}
    {history : List LogEntry} {new record : TokenRecord} {token : Str} {type : TokenType} {t : Nat}
    (looked : foundEntry p token type record t ∈ history)
    (phase : Phase platform options p request history (.awaiting (.store (.save new)))) :
    request.credential = some (type, token) ∧ new.userId = record.userId ∧ new.type = .refreshToken := by
  rcases phase.saving_cases with ⟨_, _, _, _, presented, -, files, refreshes, only, -⟩ | ⟨unfound, -⟩
  · obtain ⟨rfl, rfl, rfl⟩ := only _ _ _ _ looked
    exact ⟨presented, files, refreshes⟩
  · exact absurd looked (unfound _ _ _ _)

section
variable {κ : Type} {server : KeycloakServer κ} {platform : Platform} {options : Deployment}
  {permitted : AuthConfig κ → AuthEvent κ → Prop} {clock : Nat} {keycloak : κ} {cfg : AuthConfig κ}

/-- The call logged at `i` is a redemption. -/
def Redeems (cfg : AuthConfig κ) (i : Nat) : Prop := ∃ entry, cfg.log[i]? = some entry ∧ entry.call.redeems = true

/-- The record saved at `j` pays for the redemption at `i`: it was saved for the token the request
presents, for the purpose the request requires and for the user it acts for, and it had not expired when
the request looked it up in between. -/
structure Pays (cfg : AuthConfig κ) (j i : Nat) (saving entry lookup : LogEntry) (original : TokenRecord)
    (request : Request) : Prop where
  saved : cfg.log[j]? = some saving ∧ saving.call = .store (.save original)
  redeemed : cfg.log[i]? = some entry ∧ (cfg.threads[entry.request]?).map Thread.request = some request
  presented : request.credential = some (original.type, original.token)
  lookedUp : ∃ k, j < k ∧ k < i ∧ cfg.log[k]? = some lookup ∧ lookup.request = entry.request ∧
    lookup.call = .store (.findByToken original.token original.type)
  alive : original.expiresAt.before lookup.time = false
  acts : ActsFor original.userId entry
  files : ∀ s later new, i < s → cfg.log[s]? = some later → later.request = entry.request →
    later.call = .store (.save new) → new.userId = original.userId

/-- How a request comes to a redemption, seen from the log before it. -/
structure Redemption (request : Request) (before : List LogEntry) (entry : LogEntry) (purpose : TokenType)
    (token : Str) (record : TokenRecord) (t t' : Nat) : Prop where
  presented : request.credential = some (purpose, token)
  looked : foundEntry entry.request token purpose record t ∈ before
  alive : record.expiresAt.before t = false
  marked : markedEntry entry.request record.id true t' ∈ before
  first : ∀ earlier ∈ before, earlier.request = entry.request → earlier.call.redeems = false
  calls : entry.call = .auth (.refreshToken token) ∧ purpose = .refreshToken ∨
    entry.call = .auth (.issueTokens record.userId) ∨
    ∃ password, entry.call = .auth (.completePasswordReset record.userId password)

theorem reach_redeeming (reach : (authSystem server platform options).Reach permitted
    (.start clock (.fresh keycloak)) cfg) {i : Nat} {entry : LogEntry} (found : cfg.log[i]? = some entry)
    (redeems : entry.call.redeems = true) :
    ∃ thread, cfg.threads[entry.request]? = some thread ∧ ∃ purpose token record t t',
      Redemption thread.request (cfg.log.take i) entry purpose token record t t' := by
  obtain ⟨thread, at_request, phase⟩ := reach_phase_at reach found
  obtain ⟨purpose, token, record, t, t', presented, looked, alive, marked, first, -, calls⟩ :=
    phase.redeeming redeems
  exact ⟨thread, at_request, purpose, token, record, t, t', presented, (System.mem_ownEntries.mp looked).1, alive,
    (System.mem_ownEntries.mp marked).1,
    fun earlier member own => first earlier (System.mem_ownEntries.mpr ⟨member, own⟩), calls⟩

theorem reach_files (reach : (authSystem server platform options).Reach permitted
    (.start clock (.fresh keycloak)) cfg) {s p t : Nat} {later : LogEntry} {new record : TokenRecord} {token : Str}
    {type : TokenType} (found : cfg.log[s]? = some later) (own : later.request = p)
    (save : later.call = .store (.save new)) (looked : foundEntry p token type record t ∈ cfg.log.take s) :
    new.userId = record.userId := by
  subst own
  obtain ⟨_, _, phase⟩ := reach_phase_at reach found
  rw [save] at phase
  exact (phase.saving_found (System.mem_ownEntries.mpr ⟨looked, rfl⟩)).2.1

/-- The call a redemption makes acts for the user of the record it has taken. -/
theorem reach_acts (reach : (authSystem server platform options).Reach permitted
    (.start clock (.fresh keycloak)) cfg) {entry : LogEntry} (member : entry ∈ cfg.log) {original : TokenRecord}
    (saved : Saved cfg.log original)
    (calls : entry.call = .auth (.refreshToken original.token) ∧ original.type = .refreshToken ∨
      entry.call = .auth (.issueTokens original.userId) ∨
      ∃ password, entry.call = .auth (.completePasswordReset original.userId password)) :
    ActsFor original.userId entry := by
  obtain ⟨p, call, answer, t⟩ := entry
  rcases calls with ⟨rfl, typed⟩ | rfl | ⟨password, rfl⟩
  · rintro tokens rfl
    obtain ⟨payload, user, valid, named, rfl⟩ := reach_refreshed reach member
    exact named.trans ((reach_session reach saved typed).claims valid)
  · refine ⟨rfl, ?_⟩
    rintro tokens rfl
    obtain ⟨user, named, rfl⟩ := reach_issued reach member
    exact named
  · rfl

/-- The record that a redemption has taken, as it was saved and as it was found. -/
theorem reach_taken (reach : (authSystem server platform options).Reach permitted
    (.start clock (.fresh keycloak)) cfg) {i : Nat} {entry : LogEntry} (found : cfg.log[i]? = some entry)
    (redeems : entry.call.redeems = true) :
    ∃ thread original record k t t', cfg.threads[entry.request]? = some thread ∧
      Redemption thread.request (cfg.log.take i) entry original.type original.token record t t' ∧ k < i ∧
      cfg.log[k]? = some (foundEntry entry.request original.token original.type record t) ∧
      record.Stems original ∧ Saved (cfg.log.take k) original := by
  obtain ⟨thread, at_request, purpose, token, record, t, t', redemption⟩ := reach_redeeming reach found redeems
  obtain ⟨k, before, at_lookup⟩ := System.mem_take.mp redemption.looked
  obtain ⟨original, saved, stems, rfl, rfl⟩ := reach_found reach (System.split_at at_lookup)
  exact ⟨thread, original, record, k, t, t', at_request, redemption, before, at_lookup, stems, saved⟩

/-- Every redemption is paid for by an earlier record, which the request has found and taken. -/
theorem reach_paid (reach : (authSystem server platform options).Reach permitted
    (.start clock (.fresh keycloak)) cfg) {i : Nat} (redeems : Redeems cfg i) :
    ∃ j saving entry lookup original request, Pays cfg j i saving entry lookup original request ∧
      ∃ t', markedEntry entry.request original.id true t' ∈ cfg.log.take i := by
  obtain ⟨entry, found, redeems⟩ := redeems
  obtain ⟨thread, original, _, k, t, t', at_request, redemption, before, at_lookup, ⟨_, rfl⟩, saved⟩ :=
    reach_taken reach found redeems
  have inLog : Saved cfg.log original := saved.mono (List.take_subset _ _)
  have acts := reach_acts reach (List.mem_of_getElem? found) inLog redemption.calls
  obtain ⟨saving, member, save⟩ := saved
  obtain ⟨j, earlier, at_saving⟩ := System.mem_take.mp member
  refine ⟨j, saving, entry, _, original, thread.request, ⟨⟨at_saving, save⟩, ⟨found, by rw [at_request]; rfl⟩,
    redemption.presented, ⟨k, earlier, before, at_lookup, rfl, rfl⟩, redemption.alive, acts, ?_⟩, t',
    redemption.marked⟩
  intro s later new after at_later own save
  have filed := reach_files reach at_later own save (System.mem_take.mpr ⟨k, Nat.lt_trans before after, at_lookup⟩)
  exact filed

/-- Two redemptions that have taken one record are one redemption. -/
theorem reach_redeemed_once (reach : (authSystem server platform options).Reach permitted
    (.start clock (.fresh keycloak)) cfg) {i j : Nat} {first second : LogEntry} {id : Str} {t t' : Nat}
    (one : cfg.log[i]? = some first ∧ first.call.redeems = true)
    (two : cfg.log[j]? = some second ∧ second.call.redeems = true)
    (marked : markedEntry first.request id true t ∈ cfg.log.take i)
    (again : markedEntry second.request id true t' ∈ cfg.log.take j) : i = j := by
  obtain ⟨m, before, at_first⟩ := System.mem_take.mp marked
  obtain ⟨n, before', at_second⟩ := System.mem_take.mp again
  have positions : m = n := by
    rcases Nat.lt_trichotomy m n with less | same | more
    · exact absurd (System.mem_take.mpr ⟨m, less, at_first⟩)
        (reach_marked_once reach (System.split_at at_second) _ _)
    · exact same
    · exact absurd (System.mem_take.mpr ⟨n, more, at_second⟩)
        (reach_marked_once reach (System.split_at at_first) _ _)
  subst positions
  have sameRequest : first.request = second.request :=
    (Entry.mk.inj (Option.some.inj (at_first.symm.trans at_second))).1
  rcases Nat.lt_trichotomy i j with less | same | more
  · obtain ⟨_, _, _, _, _, _, _, redemption⟩ := reach_redeeming reach two.1 two.2
    have no := redemption.first first (System.mem_take.mpr ⟨i, less, one.1⟩) sameRequest
    rw [one.2] at no
    cases no
  · exact same
  · obtain ⟨_, _, _, _, _, _, _, redemption⟩ := reach_redeeming reach one.1 one.2
    have no := redemption.first second (System.mem_take.mpr ⟨j, more, two.1⟩) sameRequest.symm
    rw [two.2] at no
    cases no

/-- In every run an injective map sends each redemption to the earlier saved record that pays for it. -/
theorem redemptions_paid_injectively
    (reach : (authSystem server platform options).Reach anyEvent (.start clock (.fresh keycloak)) cfg) :
    ∃ payment : Nat → TokenRecord, Set.InjOn (fun i => (payment i).id) {i | Redeems cfg i} ∧
      ∀ i, Redeems cfg i → ∃ j saving entry lookup request,
        Pays cfg j i saving entry lookup (payment i) request := by
  classical
  have each (i : Nat) : ∃ original, Redeems cfg i →
      ∃ j saving entry lookup request, Pays cfg j i saving entry lookup original request ∧
        ∃ t', markedEntry entry.request original.id true t' ∈ cfg.log.take i := by
    by_cases redeems : Redeems cfg i
    · obtain ⟨j, saving, entry, lookup, original, request, paid⟩ := reach_paid reach redeems
      exact ⟨original, fun _ => ⟨j, saving, entry, lookup, request, paid⟩⟩
    · exact ⟨freshRecord ⟨0, 0⟩ "" .refreshToken (.lit "") 0 0, fun no => absurd no redeems⟩
  choose payment pays using each
  refine ⟨payment, fun i one j two same => ?_, fun i redeems => ?_⟩
  · obtain ⟨_, _, first, _, _, paid, t, marked⟩ := pays i one
    obtain ⟨_, _, second, _, _, paid', t', marked'⟩ := pays j two
    obtain ⟨found, at_i, redeems⟩ := one
    obtain ⟨found', at_j, redeems'⟩ := two
    cases Option.some.inj (at_i.symm.trans paid.redeemed.1)
    cases Option.some.inj (at_j.symm.trans paid'.redeemed.1)
    have sameId : (payment i).id = (payment j).id := same
    exact reach_redeemed_once reach ⟨at_i, redeems⟩ ⟨at_j, redeems'⟩ marked (sameId ▸ marked')
  · obtain ⟨j, saving, entry, lookup, request, paid, -⟩ := pays i redeems
    exact ⟨j, saving, entry, lookup, request, paid⟩

end

/-- Ann rotates her session. -/
def Sample.rotated : AuthConfig Realm :=
  Sample.system.serve Sample.loggedIn Sample.promptly (.refresh (Sample.session Sample.ann 1000))

theorem redemptions_paid_injectively_rotated : Redeems Sample.rotated 8 ∧
    ∃ payment : Nat → TokenRecord, Set.InjOn (fun i => (payment i).id) {i | Redeems Sample.rotated i} ∧
      ∀ i, Redeems Sample.rotated i →
        ∃ j saving entry lookup request, Pays Sample.rotated j i saving entry lookup (payment i) request :=
  ⟨⟨_, rfl, rfl⟩,
    redemptions_paid_injectively (Sample.loggedIn_reach.trans (System.serve_reach _ _ _))⟩

end KeycloakAuth
