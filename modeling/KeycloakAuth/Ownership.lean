import KeycloakAuth.Realm
import KeycloakAuth.Sessions

namespace KeycloakAuth
open Async InMemoryTokenStore

/-- The `sub` claim of the token that a stored hash was made of. -/
def hashedSubject : Str → Option String
  | .sha256 token => token.subject
  | _ => none

@[simp] theorem hashedSubject_hashToken (token : Str) : hashedSubject (hashToken token) = token.subject := rfl

/-- Every refresh token on file was signed for the user it is filed under. -/
def Owned (store : InMemoryTokenStore) : Prop :=
  ∀ record ∈ store.records, record.type = .refreshToken → hashedSubject record.token = some record.userId

theorem Session.subject {options : Deployment} {original : TokenRecord} (session : Session options original) :
    original.token.subject = some original.userId := by
  obtain ⟨user, issuedAt, _, named, signed, _⟩ := session
  rw [signed, ← named]
  rfl

theorem mem_deleteAllForUser {store : InMemoryTokenStore} {record : TokenRecord} (member : record ∈ store.records)
    (u : String) : record ∈ (store.deleteAllForUser u).records ↔ record.userId ≠ u := by
  rw [deleteAllForUser_records, List.mem_filter, decide_eq_true_eq]
  exact ⟨fun kept => kept.2, fun other => ⟨member, other⟩⟩

/-- A wipe by owner is a wipe by subject. -/
theorem Owned.wiped {store : InMemoryTokenStore} (owned : Owned store) {record : TokenRecord}
    (member : record ∈ store.records) (typed : record.type = .refreshToken) (u : String) :
    record ∈ (store.deleteAllForUser u).records ↔ hashedSubject record.token ≠ some u := by
  rw [mem_deleteAllForUser member, owned record member typed]
  exact not_congr Option.some_inj.symm

section
variable {κ : Type} {server : KeycloakServer κ} {platform : Platform} {options : Deployment}
  {permitted : AuthConfig κ → AuthEvent κ → Prop} {clock : Nat} {keycloak : κ} {cfg : AuthConfig κ}

theorem reach_owned
    (reach : (authSystem server platform options).Reach permitted (.start clock (.fresh keycloak)) cfg) :
    Owned cfg.shared.store := by
  intro record member typed
  obtain ⟨original, saved, consumedAt, rfl⟩ := (reach_ledger reach).stems record member
  exact (reach_session reach saved typed).subject

/-- Only a password reset and a refresh ever wipe, and a refresh wipes the user who is the subject of its token. -/
theorem reach_wiping
    (reach : (authSystem server platform options).Reach permitted (.start clock (.fresh keycloak)) cfg) {p : Nat}
    {thread : Thread Call.Ans Thrown Request Response} (found : cfg.threads[p]? = some thread) {u : String} {rest}
    (waiting : thread.state = .awaiting (.store (.deleteAllForUser u)) rest) :
    (∃ token, thread.request = .refresh token ∧ token.subject = some u) ∨
      ∃ token newPassword, thread.request = .resetPassword token newPassword := by
  have phase := reach_phase reach found
  rw [waiting] at phase
  have hers {token : Str} {record : TokenRecord} {t : Nat}
      (looked : foundEntry p token .refreshToken record t ∈ cfg.history p) :
        token.subject = some record.userId := by
    obtain ⟨before, after, split⟩ := List.append_of_mem (System.mem_history.mp looked).1
    obtain ⟨original, saved, stems, rfl, typed⟩ := reach_found reach split
    have saved : Saved cfg.log original := saved.mono (by rw [split]; exact List.subset_append_left ..)
    rw [stems.userId_eq]
    exact (reach_session reach saved typed).subject
  generalize cfg.history p = history at phase hers
  generalize thread.request = request at phase ⊢
  cases request with
  | refresh token =>
    cases phase with
    | reused used => exact .inl ⟨token, rfl, hers (List.mem_singleton_self _)⟩
    | lost unused => exact .inl ⟨token, rfl, hers List.mem_cons_self⟩
  | resetPassword token newPassword => exact .inr ⟨token, newPassword, rfl⟩
  | login email password => cases phase
  | complete2FA token code => cases phase
  | verifyMagicLink token => cases phase
  | forgotPassword email => cases phase
  | sendMagicLink email => cases phase
  | logout token => cases phase
  | register email username password => cases phase
  | setup2FA userId => cases phase
  | verify2FA userId code => cases phase

theorem sessions_owned
    (reach : (authSystem server platform options).Reach permitted (.start clock (.fresh keycloak)) cfg) :
    Owned cfg.shared.store ∧
      ∀ (p : Nat) (thread : Thread Call.Ans Thrown Request Response) (u : String)
        (rest : Except Thrown Unit → Service Response) (plan : Plan), cfg.threads[p]? = some thread →
        thread.state = .awaiting (.store (.deleteAllForUser u)) rest →
        let wiped := ((authSystem server platform options).resume cfg p thread (.store (.deleteAllForUser u)) rest
          plan).shared.store
        wiped.records ⊆ cfg.shared.store.records ∧ ∀ record ∈ cfg.shared.store.records,
          (record ∈ wiped.records ↔ record.userId ≠ u) ∧
            (record.type = .refreshToken → (record ∈ wiped.records ↔ hashedSubject record.token ≠ some u)) := by
  have owned := reach_owned reach
  refine ⟨owned, fun p thread u rest plan found waiting => ⟨?_, fun record member => ⟨?_, fun typed => ?_⟩⟩⟩
  · intro record left
    exact (List.mem_filter.mp (deleteAllForUser_records cfg.shared.store u ▸ left)).1
  · exact mem_deleteAllForUser member u
  · exact owned.wiped member typed u

end

namespace Sample

/-- Ann has refreshed her session, and the old token is about to wipe it. -/
def wiping : AuthConfig Realm :=
  after (system.serve { loggedIn with clock := 3000 } promptly (.refresh (session ann 1000)))
    [.arrive (.refresh (session ann 1000)), .resume 2 .good]

theorem wiping_reach : system.Reach anyEvent start wiping :=
  ((loggedIn_reach.next trivial (show system.advance loggedIn (.tick 2000) = _ from rfl)).trans
    (System.serve_reach _ _ _)).trans (after_reach (fun _ _ _ => trivial) (by decide +kernel))

theorem sessions_owned_wiping : Owned wiping.shared.store ∧ wiping.shared.store.records.length = 2 ∧
    ∃ thread rest, wiping.threads[2]? = some thread ∧ thread.state =
      .awaiting (.store (.deleteAllForUser "ann")) rest ∧
      (system.resume wiping 2 thread (.store (.deleteAllForUser "ann")) rest .good).shared.store.records = [] := by
  obtain ⟨owned, wipes⟩ := sessions_owned wiping_reach
  have shown : wiping.threads[2]?.map (·.state.view) = some (.awaiting (.store (.deleteAllForUser "ann"))) := rfl
  obtain ⟨⟨request, drawn, state⟩, found, view⟩ := Option.map_eq_some_iff.mp shown
  cases state with
  | returned value => cases view
  | threw error => cases view
  | awaiting call rest =>
    cases view
    obtain ⟨kept, left⟩ := wipes 2 _ "ann" rest .good found rfl
    refine ⟨owned, by decide +kernel, _, rest, found, rfl,
      List.eq_nil_iff_forall_not_mem.mpr fun record member => ?_⟩
    have anns : ∀ record ∈ wiping.shared.store.records, record.userId = "ann" := by decide +kernel
    exact ((left record (kept member)).1.mp member) (anns record (kept member))

end Sample

end KeycloakAuth
