import KeycloakAuth.Cli.Convergence

namespace KeycloakAuth.Cli
open Async

/-- The secret as it is sent to the token endpoint. A value that is undefined is sent as this word. -/
def KeycloakConfig.sentSecret (config : KeycloakConfig) : String := config.clientSecret.getD "undefined"

/-- The token endpoint accepts the client that the application makes of its configuration. -/
def KeycloakConfig.Accepted (setup : KcSetup) (realms : KcRealms) (config : KeycloakConfig) : Prop :=
  ∃ answer, token setup realms config.realm config.clientId config.sentSecret = .ok answer

section
variable {setup : KcSetup} {config : RealmConfig} {realms : KcRealms} {realm : KcRealm}

/-- The application takes the first client of the file. -/
theorem loadKeycloakConfigFromPath_result {path : String} {env : Option String}
    {schedule : Schedule Failure} {now : Nat}
    {world : World} {first : ClientConfig} (file : world.files.get path = some config)
    (listed : (config.clients.getD []).head? = some first) :
    (run setup (loadKeycloakConfigFromPath path env) schedule now world).result =
      .ok ⟨env.getD "http://localhost:8080", config.realm, first.clientId, first.secret⟩ := by
  have read : answerCli setup (schedule 0).2 (now + (schedule 0).1) 0 (.readFile path) world =
    (.ok config, world) := by
    simp only [answerCli, file]
  unfold run loadKeycloakConfigFromPath perform
  rw [Program.bind_eq, Program.drive_perform_ok read]
  simp only [listed, Program.pure_eq, Program.drive]

theorem accepted_iff {loaded : KeycloakConfig} (known : realms.get loaded.realm = some realm) :
    loaded.Accepted setup realms ↔ realm.accepts loaded.clientId loaded.sentSecret = true := by
  simp only [KeycloakConfig.Accepted, token, known]
  by_cases accepts : realm.accepts loaded.clientId loaded.sentSecret = true
  · simp [accepts]
  · simp [accepts]

/-- After an import the first client of the file has the secret that it had before, or, if it was not there, the
one that Keycloak has drawn for it. The secret in the file has no part in it. -/
theorem KcRealm.Imported.accepts_first {first : ClientConfig} {rest : List ClientConfig} {changed : KcRealm}
    {secret : String} (import_done : KcRealm.Imported setup realm (first :: rest) changed) :
    changed.accepts first.clientId secret = true ↔ realm.accepts first.clientId secret = true ∨
      realm.client? first.clientId = none ∧ KcRealm.isPublic first = false ∧
        setup.newSecret (realm.clients.map (·.id)) = secret := by
  cases import_done with
  | next upserted later =>
    obtain ⟨client, there, -, kept, fresh⟩ := upserted.own
    obtain ⟨client', found, same⟩ := later.keeps there
    have accepts : changed.accepts first.clientId secret = true ↔ client.secret = some secret := by
      simp only [KcRealm.accepts_iff, found, Option.some.injEq, exists_eq_left', same]
    rw [accepts]
    cases before : realm.client? first.clientId with
    | some old =>
      simp only [KcRealm.accepts_iff, before, (kept old before).1, Option.some.injEq, exists_eq_left', reduceCtorEq,
        false_and, or_false]
    | none =>
      rw [fresh before]
      simp only [KcRealm.accepts_iff, before, reduceCtorEq, false_and, exists_false, false_or, true_and,
        KcRealm.newClient, Option.none_or]
      rw [show isPublic { first with secret := none } = isPublic first from rfl]
      cases isPublic first <;> simp

end

/-- After an import that has succeeded, the server accepts what the application loads from the same file if it
accepted it before, or if Keycloak happens to draw the secret of the file for a new client. -/
theorem loaded_config_accepted_iff {setup : KcSetup} {options : ImportOptions} {config : RealmConfig}
    {first : ClientConfig} {rest : List ClientConfig} {schedule again : Schedule Failure} {now later : Nat}
    {realms : KcRealms} {realm : KcRealm} {files : OrderedMap String RealmConfig} {env : Option String}
    (file : files.get options.filePath = some config) (listed : config.clients = some (first :: rest))
    (known : realms.get config.realm = some realm)
    (succeeded : (imported setup options schedule now realms files).result = .ok ()) :
    let after := (imported setup options schedule now realms files).shared
    (∃ loaded, (run setup (loadKeycloakConfigFromPath options.filePath env) again later after).result = .ok loaded ∧
        loaded.Accepted setup after.realms) ↔
      realm.accepts first.clientId (first.secret.getD "undefined") = true ∨
        realm.client? first.clientId = none ∧ KcRealm.isPublic first = false ∧
          setup.newSecret (realm.clients.map (·.id)) = first.secret.getD "undefined" := by
  intro after
  have registered : (options.client config).Registered realms realm := by
    obtain ⟨realm', there⟩ := by_contra fun unregistered => by
      obtain ⟨⟨error, failed⟩, -⟩ := import_unregistered setup schedule now file unregistered
      cases failed.symm.trans succeeded
    cases known.symm.trans there.1
    exact there
  obtain ⟨kept, -, fine, -⟩ := import_registered setup schedule now (fun _ => True) file registered fun _ => trivial
  obtain ⟨changed, import_done, realms_after⟩ := fine () succeeded
  have head : (config.clients.getD []).head? = some first := by rw [listed]; rfl
  have loads : (run setup (loadKeycloakConfigFromPath options.filePath env) again later after).result = .ok _ :=
    loadKeycloakConfigFromPath_result (kept ▸ file) head
  have found : after.realms.get config.realm = some changed := by
    rw [realms_after]
    exact OrderedMap.get_set_self ..
  rw [listed] at import_done
  simp only [loads, Except.ok.injEq, exists_eq_left']
  exact (accepted_iff found).trans import_done.accepts_first

namespace Sample

/-- A server with one realm, in which one client is registered. -/
def serverOf (clientId secret : String) : KcRealms := OrderedMap.empty.set "app" (realmOf clientId secret)

def webOptions : ImportOptions := ⟨"web", "web's secret", "keycloak-realm.json"⟩

/-- The client of the file is registered with the secret of the file, and imports the file itself. -/
theorem loaded_config_accepted_iff_web :
    let after := (imported setup webOptions quiet 0 (serverOf "web" "web's secret") files).shared
    ∃ loaded, (run setup (loadKeycloakConfigFromPath "keycloak-realm.json" none) quiet
      5 after).result = .ok loaded ∧
      loaded.Accepted setup after.realms := by
  have file : files.get webOptions.filePath = some (fileOf "web" "web's secret") := rfl
  have listed : (fileOf "web" "web's secret").clients = some [⟨"web", some "web's secret", _⟩] := rfl
  have known : (serverOf "web" "web's secret").get "app" = some (realmOf "web" "web's secret") := rfl
  have succeeded : (imported setup webOptions quiet 0 (serverOf "web" "web's secret") files).result = .ok () := rfl
  exact (loaded_config_accepted_iff file listed known succeeded).mpr (.inl (by decide))

/-- A client that the import has to create gets a secret that is not the one in the file, and the application is
turned away with the latter. -/
theorem new_client_not_accepted :
    let driven := imported setup options quiet 0 (serverOf "admin-cli" "admin's secret") files
    driven.result = .ok () ∧ ¬ ∃ loaded,
      (run setup (loadKeycloakConfigFromPath "keycloak-realm.json" none) quiet 5
        driven.shared).result = .ok loaded ∧
      loaded.Accepted setup driven.shared.realms := by
  refine ⟨rfl, ?_⟩
  rintro ⟨loaded, loads, answer, accepted⟩
  cases loads
  cases accepted

end Sample

end KeycloakAuth.Cli
