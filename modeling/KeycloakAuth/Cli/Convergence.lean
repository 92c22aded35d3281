import KeycloakAuth.Cli.Import

namespace KeycloakAuth.Cli
open Async

def NeverFails (schedule : Schedule Failure) : Prop := ∀ index, (schedule index).2 = none

/-- The credentials are registered in some realm. -/
def ImportOptions.Valid (options : ImportOptions) (realms : KcRealms) : Prop :=
  ∃ name realm, realms.get name = some realm ∧ realm.accepts options.clientId options.clientSecret = true

/-- The realm of the file is there, with the settings of the file and one client for each `clientId` in it. -/
structure Carried (realm : KcRealm) (config : RealmConfig) : Prop where
  settings : ∀ key value, config.settings.get key = some value → realm.settings.get key = some value
  clients : ∀ entry ∈ config.clients.getD [], ∃ client,
    (realm.clients.filter fun found => found.clientId = entry.clientId) = [client] ∧ client.Carries entry

section
variable (setup : KcSetup) (options : ImportOptions) (config : RealmConfig)
  (schedule : Schedule Failure) (now : Nat)
  (realms : KcRealms) (files : OrderedMap String RealmConfig)

def imported : Driven CliCall.Ans Thrown Unit World :=
  run setup (importCommand options) schedule now ⟨realms, none, files⟩

/-- The import ends without error where the server carries the file, and a second one changes nothing. -/
structure Converged : Prop where
  ends : (imported setup options schedule now realms files).result = .ok ()
  carries : ∃ realm, (imported setup options schedule now realms files).shared.realms.get
    config.realm = some realm ∧
    Carried realm config
  again : ∀ second later, NeverFails second →
    let driven := run setup (importCommand options) second later
      (imported setup options schedule now realms files).shared
    driven.result = .ok () ∧ driven.shared.realms = (imported setup options schedule now realms files).shared.realms

/-- What is wanted of one import. -/
structure ImportConverges : Prop where
  converges : NeverFails schedule → options.Valid realms → Converged setup options config schedule now realms files
  creates : ∀ entry ∈ (imported setup options schedule now realms files).log, entry.call.creates = true →
    realms.get config.realm = none

end

/-- The call fails transiently. The calls of an import are counted from the reading of the file (0) on. -/
def fails (schedule : Schedule Failure) (index : Nat) : Bool := (schedule index).2.isSome

/-- The token request (2) or the `GET` (4) of the probe fails, and yet the creation of the realm gets a token:
from the cache that was filled before the `GET`, or with a request of its own. -/
def ProbeMisleads (setup : KcSetup) (schedule : Schedule Failure) : Prop :=
  fails schedule 2 ∧ ¬ fails schedule 4 ∨
    ¬ fails schedule 2 ∧ fails schedule 4 ∧
      (((schedule 3).1 + (schedule 4).1 + (schedule 5).1 : Nat) < ((setup.accessTokenLifespan : Int) - 30) * 1000 ∨
        ¬ fails schedule 6)

section
variable (setup : KcSetup) {options : ImportOptions} {config : RealmConfig}
  (schedule : Schedule Failure) (now : Nat)
  {realms : KcRealms} {realm : KcRealm} {files : OrderedMap String RealmConfig}

/-- An import with credentials that are registered in the realm of the file. -/
theorem import_registered (allowed : Failure → Prop) (file : files.get options.filePath = some config)
    (registered : (options.client config).Registered realms realm) (choices : ∀ index, allowed (schedule index).2) :
    let driven := imported setup options schedule now realms files
    driven.shared.files = files ∧ driven.shared.adminTokenCache = none ∧
      (∀ value, driven.result = .ok value → ∃ changed,
        KcRealm.Imported setup (realm.configured config.settings) (config.clients.getD []) changed ∧
        driven.shared.realms = realms.set config.realm changed) ∧
      (∀ error, driven.result = .error error → Troubled allowed) := by
  refine Program.Ensures.drive (importCommand_ends (fun result after _ =>
    (∀ value, result = .ok value → ∃ changed,
      KcRealm.Imported setup (realm.configured config.settings) (config.clients.getD []) changed ∧
      after = realms.set config.realm changed) ∧
    (∀ error, result = .error error → Troubled allowed)) file (fun _ _ _ _ ended =>
      ended) fun now read => ?_) choices
  refine Program.Ensures.mono (fun result _ world _ ended => ?_) (importConfig_succeeds rfl registered _ _ _ _ _ _)
  cases ended with
  | done fine =>
    refine ⟨rfl, fun _ _ => fine, fun _ no => ?_⟩
    cases no
  | failed troubled _ =>
    refine ⟨rfl, fun _ no => ?_, fun _ _ => troubled⟩
    cases no

/-- An import without them. -/
theorem import_unregistered (file : files.get options.filePath = some config)
    (unregistered : ¬ ∃ realm, (options.client config).Registered realms realm) :
    let driven := imported setup options schedule now realms files
    (∃ error, driven.result = .error error) ∧ driven.shared.realms = realms ∧
      ∀ entry ∈ driven.log, entry.call.creates = false := by
  have ensures : (importCommand options).Ensures (answerCli setup)
    (fun _ => True) 0 _ now 0 ⟨realms, none, files⟩ [] :=
    importCommand_ends (fun result after log => (∃ error, result = .error error) ∧ after = realms ∧
      ∀ entry ∈ log, entry.call.creates = false) file
      (fun _ _ _ _ ended => ⟨ended.1, ended.2.1, quiet_concat ended.2.2 rfl⟩) fun now read => by
        refine Program.Ensures.mono (fun result _ world _ ended => ?_)
          (importConfig_refused (not_exists.mp unregistered) ?_)
        · obtain ⟨failed, rfl, quiet⟩ := ended
          exact ⟨rfl, failed, rfl, quiet⟩
        · intro entry member
          rw [List.mem_singleton.mp member]
          rfl
  exact (ensures.drive fun index => trivial).2.2

/-- With registered credentials a new realm is only asked for after a probe that was mistaken. -/
theorem import_creates (file : files.get options.filePath = some config)
    (registered : (options.client config).Registered realms realm) :
    (∃ entry ∈ (imported setup options schedule now realms files).log, entry.call.creates = true) ↔
      ProbeMisleads setup schedule := by
  have probe : Creates setup (importConfig (options.client config) config) (fun index => schedule (index + 1))
      (now + (schedule 0).1) ⟨realms, none, files⟩ ↔ _ := importConfig_creates registered
  refine (@Program.drive_makes _ CliCall.Ans _ _ _ _ _ (fun call : CliCall => call.creates = true) ..).trans
    ((or_iff_right (by simp)).trans ?_)
  rw [importCommand_eq]
  simp only [Program.perform_bind, Program.Makes, answerCli, file, Program.ofExcept_ok, Program.done_bind,
    CliCall.creates_readFile, Bool.false_eq_true, false_or]
  refine probe.trans ?_
  unfold ProbeMisleads fails
  cases (schedule 2).2 <;> cases (schedule 4).2 <;> cases (schedule 6).2 <;> simp

theorem not_troubled : ¬ Troubled (· = none) := by
  rintro ⟨failure, same, different⟩
  exact different same

/-- An import with registered credentials in which no call fails. -/
theorem import_undisturbed (file : files.get options.filePath = some config)
    (registered : (options.client config).Registered realms realm) (never : NeverFails schedule) :
    ∃ changed, KcRealm.Imported setup (realm.configured config.settings) (config.clients.getD []) changed ∧
      (imported setup options schedule now realms files).result = .ok () ∧
      (imported setup options schedule now realms files).shared =
        ⟨realms.set config.realm changed, none, files⟩ := by
  obtain ⟨kept, closed, fine, wrong⟩ := import_registered setup schedule now (· = none) file registered never
  generalize imported setup options schedule now realms files = driven at *
  obtain ⟨result, _, _, ⟨realms', cache, files'⟩, _⟩ := driven
  cases result with
  | error error => exact absurd (wrong error rfl) not_troubled
  | ok value =>
    obtain ⟨changed, import_done, after⟩ := fine value rfl
    cases kept
    cases closed
    cases after
    exact ⟨changed, import_done, rfl, rfl⟩

end

section
variable {setup : KcSetup} {options : ImportOptions} {config : RealmConfig}
  {schedule : Schedule Failure} {now : Nat}
  {realms : KcRealms} {realm changed : KcRealm} {files : OrderedMap String RealmConfig}

/-- Two entries that contradict one another cannot both be carried. -/
theorem Carried.consistent (carried : Carried realm config) : Consistent (config.clients.getD []) := by
  intro one first other second same key value value' said said'
  obtain ⟨client, found, own⟩ := carried.clients one first
  obtain ⟨client', found', own'⟩ := carried.clients other second
  rw [same, found'] at found
  cases found
  exact Option.some.inj ((own key value said).symm.trans (own' key value' said'))

theorem KcRealm.Imported.carried (consistent : Consistent (config.clients.getD []))
    (import_done : KcRealm.Imported setup (realm.configured config.settings) (config.clients.getD []) changed) :
    Carried changed config where
  settings key value said := by
    rw [import_done.settings]
    simp only [KcRealm.configured, OrderedMap.get_merge, said]
    rfl
  clients entry member := by
    obtain ⟨client, known, own⟩ := import_done.carries_all consistent entry member
    exact ⟨client, filter_unique changed.clientIds known, own⟩

/-- An import into a realm that carries the file already changes nothing. -/
theorem Carried.imported_same (carried : Carried realm config)
    (import_done : KcRealm.Imported setup (realm.configured config.settings) (config.clients.getD []) changed) :
    changed = realm := by
  have unchanged : realm.configured config.settings = realm := by
    refine KcRealm.eq_of_data ?_ rfl
    exact OrderedMap.merge_same carried.settings
  rw [unchanged] at import_done
  refine import_done.same fun entry member => ?_
  obtain ⟨client, found, own⟩ := carried.clients entry member
  exact ⟨client, by rw [KcRealm.client?, ← List.head?_filter, found]; rfl, own⟩

theorem KcRealm.Imported.accepts {entries : List ClientConfig} {clientId clientSecret : String}
    (import_done : KcRealm.Imported setup realm entries changed)
    (accepted : realm.accepts clientId clientSecret = true) : changed.accepts clientId clientSecret = true := by
  obtain ⟨client, known, secret⟩ := KcRealm.accepts_iff.mp accepted
  obtain ⟨client', known', kept⟩ := import_done.keeps known
  exact KcRealm.accepts_iff.mpr ⟨client', known', kept.trans secret⟩

/-- Without a failing call, an import with registered credentials converges if the file does not contradict
itself. -/
theorem import_converges (file : files.get options.filePath = some config)
    (registered : (options.client config).Registered realms realm)
    (consistent : Consistent (config.clients.getD []))
    (never : NeverFails schedule) : Converged setup options config schedule now realms files := by
  obtain ⟨changed, import_done, ends, world⟩ := import_undisturbed setup schedule now file registered never
  have carried := import_done.carried consistent
  have found : (realms.set config.realm changed).get config.realm = some changed := OrderedMap.get_set_self ..
  have still : (options.client config).Registered (realms.set config.realm changed) changed := by
    have accepted : (realm.configured config.settings).accepts options.clientId options.clientSecret = true :=
      registered.2
    exact ⟨found, import_done.accepts accepted⟩
  refine ⟨ends, ⟨changed, ?_, carried⟩, fun second later quiet => ?_⟩
  · rw [world]
    exact found
  · rw [world]
    obtain ⟨changed', again, ended, after⟩ := import_undisturbed setup second later file still quiet
    cases carried.imported_same again
    exact ⟨ended, (congrArg World.realms after).trans (OrderedMap.set_set ..)⟩

/-- Without failing calls an import with valid credentials converges if they are registered in the realm of the
file and the file does not contradict itself, and an import asks for a realm that is there if its probe was
mistaken. -/
theorem import_converges_iff (file : files.get options.filePath = some config) :
    ImportConverges setup options config schedule now realms files ↔
      (NeverFails schedule → options.Valid realms →
        (∃ realm, (options.client config).Registered realms realm) ∧ Consistent (config.clients.getD [])) ∧
      ¬ ((∃ realm, (options.client config).Registered realms realm) ∧ ProbeMisleads setup schedule) := by
  constructor
  · intro wanted
    constructor
    · intro never valid
      have converged := wanted.converges never valid
      obtain ⟨realm, -, carried⟩ := converged.carries
      refine ⟨by_contra fun unregistered => ?_, carried.consistent⟩
      obtain ⟨⟨error, failed⟩, -⟩ := import_unregistered setup schedule now file unregistered
      cases failed.symm.trans converged.ends
    · rintro ⟨⟨realm, registered⟩, misled⟩
      obtain ⟨entry, member, asks⟩ := (import_creates setup schedule now file registered).mpr misled
      have known : realms.get config.realm = some realm := registered.1
      cases known.symm.trans (wanted.creates entry member asks)
  · rintro ⟨settled, sound⟩
    constructor
    · intro never valid
      obtain ⟨⟨realm, registered⟩, consistent⟩ := settled never valid
      exact import_converges file registered consistent never
    · intro entry member asks
      by_cases there : ∃ realm, (options.client config).Registered realms realm
      · obtain ⟨realm, registered⟩ := there
        have misled := (import_creates setup schedule now file registered).mp ⟨entry, member, asks⟩
        exact absurd ⟨⟨realm, registered⟩, misled⟩ sound
      · obtain ⟨-, -, quiet⟩ := import_unregistered setup schedule now file there
        cases (quiet entry member).symm.trans asks

end

namespace Sample

def quiet : Schedule Failure := fun _ => (0, none)

def options : ImportOptions := ⟨"admin-cli", "admin's secret", "keycloak-realm.json"⟩

def files : OrderedMap String RealmConfig := OrderedMap.empty.set
    "keycloak-realm.json" (fileOf "web" "web's secret")

/-- Once the realm of the file has the admin client, imports into it converge. -/
theorem import_converges_iff_app : ImportConverges setup options (fileOf "web" "web's secret") quiet 0
    (OrderedMap.empty.set "app" (realmOf "admin-cli" "admin's secret")) files := by
  refine (import_converges_iff rfl).mpr ⟨fun _ _ => ⟨⟨_, rfl, by decide⟩, ?_⟩, fun misled => ?_⟩
  · intro one first other second _ key value value' said said'
    cases List.mem_singleton.mp first
    cases List.mem_singleton.mp second
    exact Option.some.inj (said.symm.trans said')
  · exact misled.2.elim (fun no => by cases no.1) fun no => by cases no.2.1

/-- A server with nothing but its master realm, in which the admin client is registered. The file is about a
realm that is not there yet, and the import ends with an error. -/
theorem absent_realm_not_imported : ¬ ImportConverges setup options (fileOf "web" "web's secret") quiet 0
    (OrderedMap.empty.set "master" (realmOf "admin-cli" "admin's secret")) files := by
  intro wanted
  have converged := wanted.converges (fun _ => rfl) ⟨"master", _, rfl, by decide⟩
  cases (show (imported setup options quiet 0 (OrderedMap.empty.set "master" (realmOf "admin-cli" "admin's secret"))
    files).result = .error (.axios (some ⟨404, some ⟨some "Realm does not exist",
      none, none⟩⟩)) from rfl).symm.trans converged.ends

end Sample

end KeycloakAuth.Cli
