import KeycloakAuth.Cli.AdminApi

namespace KeycloakAuth.Cli
open Async

/-- The client has the settings of the entry. -/
def KcClient.Carries (client : KcClient) (entry : ClientConfig) : Prop :=
  ∀ key value, entry.settings.get key = some value → client.settings.get key = some value

/-- Where two entries for one client both say something, they agree. -/
def Consistent (entries : List ClientConfig) : Prop :=
  ∀ one ∈ entries, ∀ other ∈ entries, one.clientId = other.clientId → ∀ key value value',
    one.settings.get key = some value → other.settings.get key = some value' → value = value'

theorem find_unique {α : Type} {key : α → String} {xs : List α} {x : α} {k : String} (nodup : (xs.map key).Nodup) :
    (xs.find? fun y => key y = k) = some x ↔ x ∈ xs ∧ key x = k := by
  induction xs with
  | nil => simp
  | cons y ys ih =>
    obtain ⟨absent, rest⟩ := List.nodup_cons.mp nodup
    by_cases same : key y = k
    · rw [List.find?_cons_of_pos (by simpa using same)]
      constructor
      · intro first
        cases first
        exact ⟨List.mem_cons_self, same⟩
      · rintro ⟨member, own⟩
        rcases List.mem_cons.mp member with rfl | later
        · rfl
        · exact absurd (List.mem_map.mpr ⟨x, later, own.trans same.symm⟩) absent
    · rw [List.find?_cons_of_neg (by simpa using same), ih rest]
      constructor
      · rintro ⟨member, own⟩
        exact ⟨List.mem_cons_of_mem _ member, own⟩
      · rintro ⟨member, own⟩
        rcases List.mem_cons.mp member with rfl | later
        · exact absurd own same
        · exact ⟨later, own⟩

theorem filter_unique {α : Type} {key : α → String} {xs : List α} {x : α} {k : String} (nodup : (xs.map key).Nodup)
    (found : (xs.find? fun y => key y = k) = some x) : (xs.filter fun y => key y = k) = [x] := by
  induction xs with
  | nil => cases found
  | cons y ys ih =>
    obtain ⟨absent, rest⟩ := List.nodup_cons.mp nodup
    by_cases same : key y = k
    · rw [List.find?_cons_of_pos (by simpa using same)] at found
      cases found
      rw [List.filter_cons_of_pos (by simpa using same), List.filter_eq_nil_iff.mpr fun other member own => absent
        (List.mem_map.mpr ⟨other, member, (of_decide_eq_true own).trans same.symm⟩)]
    · rw [List.find?_cons_of_neg (by simpa using same)] at found
      rw [List.filter_cons_of_neg (by simpa using same)]
      exact ih rest found

namespace KcRealm
variable {setup : KcSetup} {realm changed : KcRealm} {incoming : ClientConfig}

theorem client?_eq_some {clientId : String} {client : KcClient} :
    realm.client? clientId = some client ↔ client ∈ realm.clients ∧ client.clientId = clientId :=
  find_unique realm.clientIds

theorem client?_eq_none {clientId : String} :
    realm.client? clientId = none ↔ clientId ∉ realm.clients.map (·.clientId) := by
  simp only [client?, List.find?_eq_none, List.mem_map, not_exists, not_and]
  constructor
  · rintro absent client member rfl
    exact absent client member (by simp)
  · intro absent client member same
    exact absent client member (by simpa using same)

theorem accepts_iff {clientId clientSecret : String} : realm.accepts clientId clientSecret = true ↔
    ∃ client, realm.client? clientId = some client ∧ client.secret = some clientSecret := by
  simp [accepts, Option.any_eq_true]

theorem eq_of_data {other : KcRealm} (settings : realm.settings = other.settings)
    (clients : realm.clients = other.clients) : realm = other := by
  obtain ⟨settings', clients', ids, clientIds⟩ := realm
  cases settings
  cases clients
  rfl

/-- The entry is sent without its secret, to the client with its `clientId` or to a new one. -/
def upsert (setup : KcSetup) (realm : KcRealm) (incoming : ClientConfig) : Except HttpErrorResponse KcRealm :=
  match realm.client? incoming.clientId with
  | some found => realm.updateClient found.id { incoming with secret := none }
  | none => realm.createClient setup { incoming with secret := none }

/-- What becomes of a realm when an entry is imported. -/
inductive Upserted (setup : KcSetup) (realm : KcRealm) (incoming : ClientConfig) (changed : KcRealm) : Prop
  | updated {found} (known : realm.client? incoming.clientId = some found)
      (settings : changed.settings = realm.settings)
      (clients : changed.clients = realm.clients.map fun client => if client.clientId = incoming.clientId then
        { client with settings := client.settings.merge incoming.settings } else client)
  | created (unknown : realm.client? incoming.clientId = none) (settings : changed.settings = realm.settings)
      (clients : changed.clients = realm.clients ++ [realm.newClient setup { incoming with secret := none }])

variable (setup realm incoming) in
/-- The server refuses none of the requests of an import. -/
theorem upsert_spec : ∃ changed, realm.upsert setup incoming = .ok changed ∧
    Upserted setup realm incoming changed := by
  unfold upsert
  cases known : realm.client? incoming.clientId with
  | none =>
    simp only [createClient, dif_neg (client?_eq_none.mp known)]
    exact ⟨_, rfl, .created known rfl rfl⟩
  | some found =>
    obtain ⟨member, named⟩ := client?_eq_some.mp known
    have there : (realm.clients.any fun client => client.id = found.id) = true :=
      List.any_eq_true.mpr ⟨found, member, by simp⟩
    simp only [updateClient, there, if_true]
    refine ⟨_, rfl, .updated known rfl (List.map_congr_left fun client inRealm => ?_)⟩
    have unique : client.id = found.id ↔ client.clientId = incoming.clientId := by
      constructor
      · intro same
        rw [List.inj_on_of_nodup_map realm.ids inRealm member same, named]
      · intro same
        rw [List.inj_on_of_nodup_map realm.clientIds inRealm member (same.trans named.symm)]
    simp only [unique, updated, Option.none_or]

namespace Upserted

/-- Other clients are left alone. -/
theorem other (upserted : Upserted setup realm incoming changed) {clientId : String}
    (different : clientId ≠ incoming.clientId) : changed.client? clientId = realm.client? clientId := by
  cases upserted with
  | updated known settings clients =>
    refine Option.ext fun client => ?_
    rw [client?_eq_some, client?_eq_some, clients, List.mem_map]
    constructor
    · rintro ⟨⟨old, member, rfl⟩, named⟩
      split at named
      · rename_i same
        exact absurd (named.symm.trans same) different
      · rename_i apart
        rw [if_neg apart]
        exact ⟨member, named⟩
    · rintro ⟨member, named⟩
      exact ⟨⟨client, member, if_neg fun same => different (named.symm.trans same)⟩, named⟩
  | created unknown settings clients =>
    have apart : ¬ incoming.clientId = clientId := fun same => different same.symm
    simp [client?, clients, newClient, apart]

/-- The client of the entry is there afterwards, with the settings of the entry over its own. -/
theorem own (upserted : Upserted setup realm incoming changed) :
    ∃ client, changed.client? incoming.clientId = some client ∧ client.Carries incoming ∧
      (∀ old, realm.client? incoming.clientId = some old → client.secret = old.secret ∧
        client.settings = old.settings.merge incoming.settings) ∧
      (realm.client? incoming.clientId = none → client =
        realm.newClient setup { incoming with secret := none }) := by
  cases upserted with
  | @updated found known settings clients =>
    obtain ⟨member, named⟩ := client?_eq_some.mp known
    refine ⟨{ found with settings := found.settings.merge incoming.settings }, ?_, ?_, ?_, ?_⟩
    · refine client?_eq_some.mpr ⟨?_, named⟩
      rw [clients]
      exact List.mem_map.mpr ⟨found, member, if_pos named⟩
    · intro key value said
      rw [OrderedMap.get_merge, said]
      rfl
    · intro old same
      cases known.symm.trans same
      exact ⟨rfl, rfl⟩
    · intro unknown
      cases known.symm.trans unknown
  | created unknown settings clients =>
    refine ⟨realm.newClient setup { incoming with secret := none }, ?_, fun key value said => said, ?_, fun _ => rfl⟩
    · refine client?_eq_some.mpr ⟨?_, rfl⟩
      rw [clients]
      exact List.mem_append_right _ (List.mem_singleton_self _)
    · intro old same
      cases unknown.symm.trans same

/-- An entry that is carried already changes nothing. -/
theorem same (upserted : Upserted setup realm incoming changed) {client : KcClient}
    (known : realm.client? incoming.clientId = some client)
    (carried : client.Carries incoming) : changed = realm := by
  cases upserted with
  | created unknown => cases known.symm.trans unknown
  | updated _ settings clients =>
    refine eq_of_data settings (clients.trans ((List.map_congr_left fun other member => ?_).trans (List.map_id _)))
    split
    · rename_i named
      cases known.symm.trans (client?_eq_some.mpr ⟨member, named⟩)
      rw [OrderedMap.merge_same carried]
      rfl
    · rfl

theorem accepts (upserted : Upserted setup realm incoming changed) {clientId clientSecret : String}
    (accepted : realm.accepts clientId clientSecret = true) : changed.accepts clientId clientSecret = true := by
  obtain ⟨client, known, secret⟩ := accepts_iff.mp accepted
  by_cases same : clientId = incoming.clientId
  · subst same
    obtain ⟨client', found, -, kept, -⟩ := upserted.own
    exact accepts_iff.mpr ⟨client', found, (kept client known).1.trans secret⟩
  · exact accepts_iff.mpr ⟨client, (upserted.other same).trans known, secret⟩

end Upserted

/-- The realm after the import of a list of entries. -/
inductive Imported (setup : KcSetup) : KcRealm → List ClientConfig → KcRealm → Prop
  | done {realm : KcRealm} : Imported setup realm [] realm
  | next {realm middle final : KcRealm} {incoming : ClientConfig} {rest : List ClientConfig}
      (upserted : Upserted setup realm incoming middle) (later : Imported setup middle rest final) :
      Imported setup realm (incoming :: rest) final

namespace Imported
variable {entries : List ClientConfig}

/-- By induction on the entries: a client keeps its secret. -/
theorem keeps (imported : Imported setup realm entries changed) {clientId : String} {old : KcClient}
    (known : realm.client? clientId = some old) :
    ∃ client, changed.client? clientId = some client ∧ client.secret = old.secret := by
  induction imported generalizing old with
  | done => exact ⟨old, known, rfl⟩
  | @next realm middle final incoming rest upserted _ ih =>
    by_cases same : clientId = incoming.clientId
    · subst same
      obtain ⟨client, found, -, kept, -⟩ := upserted.own
      obtain ⟨client', later, secret⟩ := ih found
      exact ⟨client', later, secret.trans (kept old known).1⟩
    · exact ih ((upserted.other same).trans known)

/-- A setting that the remaining entries do not contradict stays. -/
theorem carries (imported : Imported setup realm entries changed) {entry : ClientConfig} {old : KcClient}
    (consistent : Consistent (entry :: entries)) (known : realm.client? entry.clientId = some old)
    (carried : old.Carries entry) : ∃ client, changed.client? entry.clientId = some client ∧
      client.Carries entry := by
  induction imported generalizing old with
  | done => exact ⟨old, known, carried⟩
  | @next realm middle final incoming rest upserted _ ih =>
    have fewer : Consistent (entry :: rest) := by
      intro one first other second
      refine consistent one ?_ other ?_
      · rcases List.mem_cons.mp first with rfl | member
        · exact List.mem_cons_self
        · exact List.mem_cons_of_mem _ (List.mem_cons_of_mem _ member)
      · rcases List.mem_cons.mp second with rfl | member
        · exact List.mem_cons_self
        · exact List.mem_cons_of_mem _ (List.mem_cons_of_mem _ member)
    by_cases same : entry.clientId = incoming.clientId
    · obtain ⟨client, found, -, kept, -⟩ := upserted.own
      rw [same] at known
      refine ih fewer (same ▸ found) fun key value said => ?_
      rw [(kept old known).2, OrderedMap.get_merge]
      cases again : incoming.settings.get key with
      | none => exact carried key value said
      | some value' =>
        rw [consistent entry List.mem_cons_self incoming (List.mem_cons_of_mem _ List.mem_cons_self) same key value
          value' said again]
        rfl
    · exact ih fewer ((upserted.other same).trans known) carried

theorem carries_all (imported : Imported setup realm entries changed) (consistent : Consistent entries) :
    ∀ entry ∈ entries, ∃ client, changed.client? entry.clientId = some client ∧ client.Carries entry := by
  induction imported with
  | done => simp
  | @next realm middle final incoming rest upserted later ih =>
    intro entry member
    rcases List.mem_cons.mp member with rfl | inRest
    · obtain ⟨client, found, carried, -⟩ := upserted.own
      exact later.carries consistent found carried
    · refine ih (fun one first other second => ?_) entry inRest
      exact consistent one (List.mem_cons_of_mem _ first) other (List.mem_cons_of_mem _ second)

/-- Importing what is carried already changes nothing. -/
theorem same (imported : Imported setup realm entries changed)
    (carried : ∀ entry ∈ entries, ∃ client, realm.client? entry.clientId = some client ∧ client.Carries entry) :
    changed = realm := by
  induction imported with
  | done => rfl
  | @next realm middle final incoming rest upserted later ih =>
    obtain ⟨client, known, own⟩ := carried incoming List.mem_cons_self
    cases upserted.same known own
    exact ih fun entry member => carried entry (List.mem_cons_of_mem _ member)

theorem settings (imported : Imported setup realm entries changed) : changed.settings = realm.settings := by
  induction imported with
  | done => rfl
  | next upserted _ ih =>
    refine ih.trans ?_
    cases upserted with
    | updated _ settings => exact settings
    | created _ settings => exact settings

end Imported

end KcRealm

end KeycloakAuth.Cli
